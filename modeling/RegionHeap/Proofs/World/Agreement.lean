import RegionHeap.Proofs.World.Said

/-!
# Worlds that agree

Two worlds agree if they differ at most in who listens and in what was heard, and neither log
keeps totals. Whatever is done to both then, by one thread or by many, comes to the same and
leaves them in agreement. Only what was heard may be another matter.
-/

namespace RegionHeap

namespace Diagnostics

/-- Whoever hears of something, the log keeps as much as before. -/
theorem noteAll_logLevel (d : Diagnostics) (said : List Entry) :
    (d.noteAll said).2.logLevel = d.logLevel := by
  induction said generalizing d with
  | nil => rfl
  | cons entry rest ih =>
      cases entry with
      | event e => exact (ih (d.hear e)).trans (d.hear_logLevel e)
      | summary regions bytes regionBytes =>
          simp only [noteAll, note]
          cases d.logLevel.keepsDebug with
          | false => exact ih d
          | true =>
              cases Summary.new regions bytes regionBytes with
              | error fault => rfl
              | ok summary => exact ih _

end Diagnostics

namespace World

variable {w w' : World} {k : Nat}

/-- What a race brings. Nobody hears of totals, so that only the race itself can be a fault. -/
theorem drain_outcome {site : Site} (reached : w.site k = .ok site) (threads words : Nat) :
    (w.drain k threads words).1 =
      match ((Race.Shared.new site.arena (w.store site) threads).drain words).fault? with
      | some fault => .error fault
      | none => .ok (((Race.Shared.new site.arena (w.store site) threads).drain
          words).spans.map Span.start) := by
  obtain ⟨said, spoken, -⟩ := Race.drain_tells site.arena (w.store site) rfl threads words
  simp only [World.drain, reached, absorb, spoken, Diagnostics.noteAll_events]
  cases ((Race.Shared.new site.arena (w.store site) threads).drain words).fault? <;> rfl

theorem Alike.site (alike : w.Alike w') : w'.site k = w.site k := by
  unfold World.site
  rw [alike.sites]

/-- A race comes to the same, whoever listens. -/
theorem Alike.drain (alike : w.Alike w') (k threads words : Nat) :
    (w'.drain k threads words).1 = (w.drain k threads words).1 ∧
      (w.drain k threads words).2.Alike (w'.drain k threads words).2 := by
  cases reached : w.site k with
  | error fault =>
      have reached' := alike.site.trans reached
      simp only [World.drain, reached, reached']
      exact ⟨trivial, alike⟩
  | ok site =>
      have reached' := alike.site.trans reached
      constructor
      · rw [drain_outcome reached, drain_outcome reached', alike.store]
      · rw [drain_leaves reached, drain_leaves reached', alike.store]
        refine ⟨alike.settings, rfl, ?_⟩
        simp only [absorb, alike.sites]

/-- No action changes how much the log keeps. -/
theorem perform_logLevel (w : World) (action : Action) :
    (w.perform action).2.diagnostics.logLevel = w.diagnostics.logLevel := by
  cases action with
  | call k c =>
      change (w.call k c).2.diagnostics.logLevel = _
      cases reached : w.siteFor k c with
      | error fault => simp only [World.call, reached]
      | ok site =>
          rw [call_leaves reached]
          exact w.diagnostics.noteAll_logLevel _
  | drain k threads words =>
      change (w.drain k threads words).2.diagnostics.logLevel = _
      cases reached : w.site k with
      | error fault => simp only [World.drain, reached]
      | ok site =>
          rw [drain_leaves reached]
          exact w.diagnostics.noteAll_logLevel _
  | read max =>
      simp only [World.perform, World.read]
      cases w.diagnostics.channel? with
      | none => rfl
      | some channel => exact Diagnostics.mapChannel_logLevel _ _
  | hangUp => exact Diagnostics.mapChannel_logLevel _ _
  | clearRecord => exact Diagnostics.clear_logLevel _
  | _ => exact congrArg Diagnostics.logLevel (perform_apart rfl (by simp) (by simp) (by simp) (by simp))

theorem after_logLevel (w : World) (actions : List Action) :
    (w.after actions).diagnostics.logLevel = w.diagnostics.logLevel :=
  after_invariant (P := fun later => later.diagnostics.logLevel = w.diagnostics.logLevel)
    (fun h _ same => (h.before.perform_logLevel h.action).trans same) rfl

/-- The worlds differ at most in who listens and in what was heard, and no log keeps totals. -/
structure Agree (w w' : World) : Prop extends Alike w w' where
  quiet : w.diagnostics.logLevel.keepsDebug = false
  quiet' : w'.diagnostics.logLevel.keepsDebug = false

end World

namespace Happening

/-- What is said meanwhile, by one thread or by many. -/
def said (h : Happening) : List Entry :=
  match h.action with
  | .call k c =>
      match h.before.siteFor k c with
      | .ok site => ((site.arena.answer c).run (h.before.store site)).2.transcript
      | .error _ => []
  | .drain k threads words =>
      match h.before.site k with
      | .ok site =>
          ((Race.Shared.new site.arena (h.before.store site) threads).drain words).store.transcript
      | .error _ => []
  | _ => []

/-- The same happens in two worlds that agree. The same is said, and it comes to the same,
unless it tells what was heard. -/
structure Same (h h' : Happening) : Prop where
  action : h'.action = h.action
  before : h.before.Agree h'.before
  after : h.after.Agree h'.after
  said : h'.said = h.said
  outcome : (∀ max, h.action ≠ .read max) → h'.outcome = h.outcome

end Happening

namespace World

variable {w w' : World}

/-- The same is said, whoever listens. -/
theorem Alike.said (alike : w.Alike w') (action : Action) :
    Happening.said { before := w', action } = Happening.said { before := w, action } := by
  cases action with
  | call k c => simp only [Happening.said, alike.siteFor, alike.store]
  | drain k threads words => simp only [Happening.said, alike.site, alike.store]
  | _ => rfl

theorem Agree.perform (agree : w.Agree w') (action : Action) :
    Happening.Same { before := w, action } { before := w', action } := by
  have said := agree.said action
  have quiet : (w.perform action).2.diagnostics.logLevel.keepsDebug = false := by
    rw [w.perform_logLevel action]
    exact agree.quiet
  have quiet' : (w'.perform action).2.diagnostics.logLevel.keepsDebug = false := by
    rw [w'.perform_logLevel action]
    exact agree.quiet'
  cases single : action.single with
  | false =>
      cases action with
      | drain k threads words =>
          obtain ⟨outcome, after⟩ := agree.drain k threads words
          exact ⟨rfl, agree, ⟨after, quiet, quiet'⟩, said,
            fun _ => congrArg (Except.map Outcome.starts) outcome⟩
      | _ => cases single
  | true =>
      have parallel := agree.parallel single
      refine ⟨rfl, agree, ⟨parallel.after, quiet, quiet'⟩, said, fun silent => ?_⟩
      rcases parallel.outcome with same | ⟨max, reads⟩ | ⟨-, loud | loud⟩
      · exact same
      · exact absurd reads (silent max)
      · have keeps : w.diagnostics.logLevel.keepsDebug = true := loud.1
        rw [agree.quiet] at keeps
        cases keeps
      · have keeps : w'.diagnostics.logLevel.keepsDebug = true := loud.1
        rw [agree.quiet'] at keeps
        cases keeps

/-- Whatever happens to both, the worlds go on alike. -/
theorem Agree.history_same (agree : w.Agree w') (actions : List Action) :
    List.Forall₂ Happening.Same (w.history actions) (w'.history actions) := by
  induction actions generalizing w w' with
  | nil => exact .nil
  | cons action rest ih =>
      have first := agree.perform action
      exact .cons first (ih first.after)

end World

end RegionHeap
