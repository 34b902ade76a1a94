import RegionHeap.Proofs.Arena.Entries
import RegionHeap.Proofs.World.Faultless

/-!
# Indifference to diagnostics

The same is done to two worlds that differ in who listens, or in how much their logs keep.
Then the same comes of it in both, one step after the other. There is one exception. The
totals of a tenancy are worked out only for a log that keeps them. If they are no words, such
a log makes a fault of a release that does all that it does in the other world.
-/

namespace RegionHeap

namespace Diagnostics

/-- The totals at the end of what an arena says are a fault, if the log keeps them and they
are no words. -/
theorem noteAll_totals (d : Diagnostics) (said : List Event) (regions bytes regionBytes : Nat) :
    (d.noteAll (said.map Entry.event ++ [.summary regions bytes regionBytes])).1 =
      if d.logLevel.keepsDebug = true ∧ Word.bound ≤ regions * regionBytes then
        some .productOverflow
      else none := by
  induction said generalizing d with
  | cons e rest ih =>
      rw [← d.hear_logLevel e]
      exact ih (d.hear e)
  | nil =>
      have totals : (∃ summary, Summary.new regions bytes regionBytes = .ok summary) ↔
          regions * regionBytes < Word.bound :=
        Summary.new_eq_ok_iff
      by_cases keeps : d.logLevel.keepsDebug = true
      · by_cases large : Word.bound ≤ regions * regionBytes
        · have fault : Summary.new regions bytes regionBytes = .error .productOverflow := by
            simp [Summary.new, Word.mul, Nat.not_lt.2 large, Bind.bind, Except.bind]
          simp [noteAll, note, keeps, large, fault, Bind.bind, Except.bind]
        · obtain ⟨summary, ok⟩ := totals.2 (Nat.not_le.1 large)
          simp [noteAll, note, keeps, large, ok, Bind.bind, Except.bind, Pure.pure, Except.pure]
      · simp [noteAll, note, keeps]

end Diagnostics

/-- Whether the action is done by one thread. -/
def Action.single : Action → Bool
  | .drain .. => false
  | _ => true

/-- The totals that the action reports are no words. -/
def Action.Overflows (w : World) : Action → Prop
  | .call k .release => ∃ site, w.sites[k]? = some site ∧ site.arena.kind = .mutator ∧
      Word.bound ≤ site.registers.count * site.arena.settings.regionBytes
  | _ => False

namespace World

/-- The worlds differ at most in who listens and in what was heard. -/
structure Alike (w w' : World) : Prop where
  settings : w'.settings = w.settings
  heap : w'.heap = w.heap
  sites : w'.sites = w.sites

variable {w w' : World} {k : Nat} {c : Call} {site : Site}

theorem Alike.siteFor (alike : w.Alike w') : w'.siteFor k c = w.siteFor k c := by
  unfold World.siteFor World.site
  rw [alike.heap, alike.sites]

theorem Alike.store (alike : w.Alike w') (site : Site) : w'.store site = w.store site := by
  unfold World.store
  rw [alike.heap]

/-- What a call brings is what its program brings, unless the diagnostics find a fault in
what was said. -/
theorem call_outcome (reached : w.siteFor k c = .ok site) :
    (w.call k c).1 =
      match (w.diagnostics.noteAll
        ((site.arena.answer c).run (w.store site)).2.transcript).1 with
      | some fault => .error fault
      | none => ((site.arena.answer c).run (w.store site)).1 := by
  simp only [World.call, reached, absorb]
  generalize (site.arena.answer c).run (w.store site) = run
  cases noted : w.diagnostics.noteAll run.2.transcript with
  | mk fault diagnostics => cases fault <;> rfl

/-- What a call brings and leaves behind where the log keeps no totals. -/
theorem call_run (reached : w.siteFor k c = .ok site)
    (quiet : w.diagnostics.logLevel.keepsDebug = false) :
    w.call k c =
      (((site.arena.answer c).run (w.store site)).1,
        { w with
          heap := ((site.arena.answer c).run (w.store site)).2.heap
          sites := w.sites.set k
            { site with registers := ((site.arena.answer c).run (w.store site)).2.registers }
          diagnostics := (w.diagnostics.noteAll
            ((site.arena.answer c).run (w.store site)).2.transcript).2 }) := by
  have faultless := (Diagnostics.noteAll_quiet quiet
    ((site.arena.answer c).run (w.store site)).2.transcript).1
  simp only [World.call, reached, absorb, faultless]

theorem call_settings (w : World) (k : Nat) (c : Call) : (w.call k c).2.settings = w.settings := by
  unfold World.call
  cases w.siteFor k c with
  | error fault => rfl
  | ok site =>
      simp only [absorb]
      cases (w.diagnostics.noteAll ((site.arena.answer c).run (w.store site)).2.transcript).1 <;>
        rfl

/-- A call leaves the same behind, whoever listens. -/
theorem Alike.call (alike : w.Alike w') (k : Nat) (c : Call) :
    (w.call k c).2.Alike (w'.call k c).2 := by
  cases reached : w.siteFor k c with
  | error fault =>
      have reached' := alike.siteFor.trans reached
      simp only [World.call, reached, reached']
      exact alike
  | ok site =>
      have reached' := alike.siteFor.trans reached
      obtain ⟨heap, sites, -⟩ := call_eq reached (Prod.eta _).symm
      obtain ⟨heap', sites', -⟩ := call_eq reached' (Prod.eta _).symm
      refine ⟨?_, ?_, ?_⟩
      · rw [call_settings, call_settings, alike.settings]
      · rw [heap, heap', alike.store]
      · rw [sites, sites', alike.store, alike.sites]

/-- Telling the totals of a release overflows in the first world, which logs them, and only
there. -/
def OverflowsIfLogged (w w' : World) (action : Action) : Prop :=
  w.diagnostics.logLevel.keepsDebug = true ∧ w'.diagnostics.logLevel.keepsDebug = false ∧
    (w.perform action).1 = .error .productOverflow ∧ ∃ outcome, (w'.perform action).1 = .ok outcome

/-- Unless the totals of a release are no words, a call has the same outcome, whoever
listens. -/
theorem Alike.call_outcome (alike : w.Alike w') (k : Nat) (c : Call) :
    (w'.call k c).1 = (w.call k c).1 ∨
      (Action.call k c).Overflows w ∧
        (w.OverflowsIfLogged w' (.call k c) ∨ w'.OverflowsIfLogged w (.call k c)) := by
  cases reached : w.siteFor k c with
  | error fault =>
      have reached' := alike.siteFor.trans reached
      left
      simp only [World.call, reached, reached']
  | ok site =>
      have outcome := World.call_outcome reached
      have outcome' := World.call_outcome (alike.siteFor.trans reached)
      rw [alike.store] at outcome'
      obtain ⟨said, events | ⟨rfl, kind, ⟨answer, answered⟩, bytes, totals⟩⟩ :=
        site.arena.answer_said c (w.store site)
      · have events : ((site.arena.answer c).run (w.store site)).2.transcript =
            said.map Entry.event := events
        rw [events, Diagnostics.noteAll_events] at outcome outcome'
        exact .inl (outcome'.trans outcome.symm)
      · have totals : ((site.arena.answer .release).run (w.store site)).2.transcript =
            said.map Entry.event ++ [.summary site.registers.count bytes
              site.arena.settings.regionBytes] := totals
        rw [totals, Diagnostics.noteAll_totals, answered] at outcome outcome'
        by_cases large : Word.bound ≤ site.registers.count * site.arena.settings.regionBytes
        · have overflows : (Action.call k .release).Overflows w :=
            ⟨site, (siteFor_ok reached).1, kind, large⟩
          cases keeps : w.diagnostics.logLevel.keepsDebug <;>
            cases keeps' : w'.diagnostics.logLevel.keepsDebug <;>
            simp only [keeps, keeps', large, and_true, and_self, if_true, Bool.false_eq_true,
              if_false] at outcome outcome'
          · exact .inl (outcome'.trans outcome.symm)
          · refine .inr ⟨overflows, .inr ⟨keeps', keeps, ?_, .answer answer, ?_⟩⟩
            · exact congrArg (Except.map Outcome.answer) outcome'
            · exact congrArg (Except.map Outcome.answer) outcome
          · refine .inr ⟨overflows, .inl ⟨keeps, keeps', ?_, .answer answer, ?_⟩⟩
            · exact congrArg (Except.map Outcome.answer) outcome
            · exact congrArg (Except.map Outcome.answer) outcome'
          · exact .inl (outcome'.trans outcome.symm)
        · rw [if_neg fun h => large h.2] at outcome outcome'
          exact .inl (outcome'.trans outcome.symm)

theorem Alike.onSupply (alike : w.Alike w') (f : Supply → Except Fault Supply) :
    (w.onSupply f).2.Alike (w'.onSupply f).2 ∧ (w'.onSupply f).1 = (w.onSupply f).1 := by
  unfold World.onSupply
  rw [alike.heap]
  cases f w.heap.supply with
  | error fault => exact ⟨alike, rfl⟩
  | ok supply =>
      refine ⟨⟨alike.settings, ?_, alike.sites⟩, rfl⟩
      simp only [setSupply, alike.heap]

/-- Only calls say anything, and only who listens can be asked what was heard. -/
theorem Alike.perform_of_not_call (alike : w.Alike w') {action : Action}
    (single : action.single = true) (other : ∀ k c, action ≠ .call k c) :
    (w.perform action).2.Alike (w'.perform action).2 ∧
      ((w'.perform action).1 = (w.perform action).1 ∨ ∃ max, action = .read max) := by
  cases action with
  | call k c => exact absurd rfl (other k c)
  | drain i threads words => cases single
  | exhaust | recycle | takeBack | takeBackFrom | addRival =>
      exact (alike.onSupply _).imp_right .inl
  | request words purpose node =>
      refine ⟨⟨alike.settings, ?_, alike.sites⟩, .inl ?_⟩
      · simp only [World.perform, setSupply, alike.heap]
      · simp only [World.perform, alike.heap]
  | onRegion i command =>
      simp only [World.perform, World.onRegion, alike.heap]
      cases w.heap.supply.slot i with
      | error fault => exact ⟨alike, .inl rfl⟩
      | ok slot =>
          refine ⟨⟨alike.settings, ?_, alike.sites⟩, .inl rfl⟩
          simp only [setSupply, alike.heap]
  | onTallies command =>
      refine ⟨⟨alike.settings, ?_, alike.sites⟩, .inl ?_⟩
      · simp only [World.perform, alike.heap]
      · simp only [World.perform, alike.heap]
  | isSentinel candidate =>
      refine ⟨alike, .inl ?_⟩
      simp only [World.perform, World.isSentinel, alike.heap]
  | read max =>
      refine ⟨?_, .inr ⟨max, rfl⟩⟩
      have kept (w : World) : w.Alike (w.read max).2 := by
        unfold World.read
        cases w.diagnostics.channel? <;> exact ⟨rfl, rfl, rfl⟩
      exact ⟨(kept w').settings.trans (alike.settings.trans (kept w).settings.symm),
        (kept w').heap.trans (alike.heap.trans (kept w).heap.symm),
        (kept w').sites.trans (alike.sites.trans (kept w).sites.symm)⟩
  | hangUp | clearRecord => exact ⟨⟨alike.settings, alike.heap, alike.sites⟩, .inl rfl⟩

end World

/-- The same happens in two worlds, and comes to the same. The outcomes differ only if they
tell what was heard, or if the totals of a release are no words and one of the two logs keeps
them. -/
structure Happening.Parallel (h h' : Happening) : Prop where
  action : h'.action = h.action
  before : h.before.Alike h'.before
  after : h.after.Alike h'.after
  outcome : h'.outcome = h.outcome ∨ (∃ max, h.action = .read max) ∨
    h.action.Overflows h.before ∧
      (h.before.OverflowsIfLogged h'.before h.action ∨
        h'.before.OverflowsIfLogged h.before h.action)

namespace World

variable {w w' : World}

theorem Alike.parallel (alike : w.Alike w') {action : Action} (single : action.single = true) :
    Happening.Parallel { before := w, action } { before := w', action } := by
  by_cases isCall : ∃ k c, action = .call k c
  · obtain ⟨k, c, rfl⟩ := isCall
    refine ⟨rfl, alike, alike.call k c, ?_⟩
    exact (alike.call_outcome k c).imp (congrArg (Except.map Outcome.answer)) .inr
  · obtain ⟨after, outcome⟩ :=
      alike.perform_of_not_call single fun k c eq => isCall ⟨k, c, eq⟩
    exact ⟨rfl, alike, after, outcome.imp_right .inl⟩

theorem Alike.history (alike : w.Alike w') {actions : List Action}
    (single : ∀ action ∈ actions, action.single = true) :
    List.Forall₂ Happening.Parallel (w.history actions) (w'.history actions) := by
  induction actions generalizing w w' with
  | nil => exact .nil
  | cons action rest ih =>
      have first := alike.parallel (single action List.mem_cons_self)
      exact .cons first (ih first.after fun a ha => single a (List.mem_cons_of_mem _ ha))

/-- Whoever listens and whatever the log keeps, the same is done to the regions, the supply,
the tallies and the arenas, one action after the other, and comes to the same. Only a release
that would go well can be a fault instead: its totals are no words, and the log keeps them. -/
theorem indifference (w : World) (d d' : Diagnostics) (actions : List Action)
    (single : ∀ action ∈ actions, action.single = true) :
    List.Forall₂ Happening.Parallel ({ w with diagnostics := d }.history actions)
      ({ w with diagnostics := d' }.history actions) := by
  have alike : ({ w with diagnostics := d } : World).Alike { w with diagnostics := d' } :=
    ⟨rfl, rfl, rfl⟩
  exact alike.history single

/-- One run is recorded, the other is not heard of. -/
theorem indifference_small :
    let actions : List Action := [.call 0 .start, .call 0 (.claimLocked 5 5), .call 0 .release]
    List.Forall₂ Happening.Parallel
      ({ small with diagnostics := { listener := .recorder .trace [], logLevel := .debug } }.history
        actions)
      (small.history actions) :=
  indifference small { listener := .recorder .trace [], logLevel := .debug } {} _ (by decide)

end World

/-- Settings that tell of regions of half the address space each. -/
def Settings.vast : Settings :=
  { minRetainBytes := 64, regionBytes := 2 ^ 63 }

/-- Four small regions and one arena with such settings. -/
def World.vast (diagnostics : Diagnostics) : World :=
  .new { sentinel := .full, settings := .vast } .small [.mutator 0 .vast] diagnostics

/-- A release that goes well if nothing is logged is a fault if the log keeps lines of level
`debug`. -/
theorem World.loud_release :
    let actions : List Action :=
      [.call 0 .start, .call 0 (.claimLocked 8 8), .call 0 (.claimLocked 8 8)]
    Basis.setup (.region .full) .vast = .ok { sentinel := .full, settings := .vast } ∧
      (((World.vast {}).after actions).call 0 .release).1 = .ok (.place (some (.table 1))) ∧
      (((World.vast { logLevel := .debug }).after actions).call 0 .release).1 =
        .error .productOverflow := by
  decide +kernel

end RegionHeap
