import RegionHeap.Proofs.World.Said

/-!
# Filtering by level of detail

Two recorders listen to the same run, one at `trace` and one at `debug`. What the second one
keeps is what the first one keeps, less the sizes and less the events that tell of words handed
out.
-/

namespace RegionHeap

/-- What a recorder at `debug` keeps, compared to what one at `trace` keeps of the same run. -/
structure Filtered (loud quiet : List Event) : Prop where
  /-- It keeps what passes the filter for its level, in the same order. -/
  mapped : quiet = loud.filterMap fun e => e.atDetail .debug
  /-- It keeps all but the grants, without sizes: every transition and every refusal. -/
  kept : quiet = (loud.filter fun e => !e.moment.isGrant).map Event.withoutSizes
  /-- Nothing that it keeps has sizes or tells of a grant. -/
  bare : ∀ e ∈ quiet, e.sizes = none ∧ e.moment.isGrant = false
  /-- The moment and the sizes of an event agree on whether words were handed out. -/
  fits : ∀ e ∈ loud, e.Fits

namespace Filtered

theorem of_fits {loud : List Event} (fits : ∀ e ∈ loud, e.Fits) :
    Filtered loud (loud.filterMap fun e => e.atDetail .debug) := by
  have kept : (loud.filterMap fun e => e.atDetail .debug) =
      (loud.filter fun e => !e.moment.isGrant).map Event.withoutSizes := by
    induction loud with
    | nil => rfl
    | cons e rest ih =>
        have rest' := ih fun e mem => fits e (List.mem_cons_of_mem _ mem)
        have heard := (fits e List.mem_cons_self).atDetail_debug
        cases grant : e.moment.isGrant with
        | true => simp [heard, grant, rest']
        | false => simp [heard, grant, rest']
  refine ⟨rfl, kept, ?_, fits⟩
  rw [kept]
  intro e mem
  obtain ⟨e, told, rfl⟩ := List.mem_map.1 mem
  have noGrant : (!e.moment.isGrant) = true := (List.mem_filter.1 told).2
  rw [Bool.not_eq_true'] at noGrant
  exact ⟨rfl, noGrant⟩

variable {loud quiet said : List Event}

/-- Two recorders that go on to hear the same. -/
theorem append (h : Filtered loud quiet) (fits : ∀ e ∈ said, e.Fits) :
    Filtered (loud ++ said) (quiet ++ said.filterMap fun e => e.atDetail .debug) := by
  rw [h.mapped, ← List.filterMap_append]
  refine of_fits fun e mem => ?_
  rcases List.mem_append.1 mem with old | new
  · exact h.fits e old
  · exact fits e new

end Filtered

namespace World

variable {w w' : World}

/-- The same was done to two worlds while a recorder listened to each, at `trace` to the first
and at `debug` to the second. -/
structure Overheard (w w' : World) (loud quiet : List Event) : Prop where
  alike : w.Alike w'
  trace : w.diagnostics.listener = .recorder .trace loud
  debug : w'.diagnostics.listener = .recorder .debug quiet
  filtered : Filtered loud quiet

variable {loud quiet : List Event}

/-- Both recorders take note of the same entries. -/
theorem Overheard.note (h : w.Overheard w' loud quiet) {said : List Event}
    {entries : List Entry} (tells : Entry.Tells said entries) (fits : ∀ e ∈ said, e.Fits)
    {v v' : World} (alike : v.Alike v')
    (first : v.diagnostics = (w.diagnostics.noteAll entries).2)
    (second : v'.diagnostics = (w'.diagnostics.noteAll entries).2) :
    ∃ loud quiet, v.Overheard v' loud quiet := by
  refine ⟨_, _, alike, ?_, ?_, h.filtered.append fits⟩
  · rw [first, tells.recorder h.trace]
    simp
  · rw [second, tells.recorder h.debug]

theorem Overheard.call (h : w.Overheard w' loud quiet) (k : Nat) (c : Call) :
    ∃ loud quiet, (w.call k c).2.Overheard (w'.call k c).2 loud quiet := by
  cases reached : w.siteFor k c with
  | error fault =>
      have reached' := h.alike.siteFor.trans reached
      simp only [World.call, reached, reached']
      exact ⟨loud, quiet, h⟩
  | ok site =>
      have reached' := h.alike.siteFor.trans reached
      obtain ⟨said, tells, fits⟩ := site.arena.answer_tells c (w.store site) rfl
      refine h.note tells fits (h.alike.call k c) ?_ ?_
      · rw [call_leaves reached]
      · rw [call_leaves reached', h.alike.store]

theorem Overheard.drain (h : w.Overheard w' loud quiet) (k threads words : Nat) :
    ∃ loud quiet,
      (w.drain k threads words).2.Overheard (w'.drain k threads words).2 loud quiet := by
  have same : w'.site k = w.site k := by
    unfold World.site
    rw [h.alike.sites]
  cases reached : w.site k with
  | error fault =>
      simp only [World.drain, reached, same]
      exact ⟨loud, quiet, h⟩
  | ok site =>
      obtain ⟨said, transcript, fits⟩ :=
        Race.drain_tells site.arena (w.store site) rfl threads words
      have tells : Entry.Tells said
          ((Race.Shared.new site.arena (w.store site) threads).drain words).store.transcript :=
        transcript ▸ .events
      rw [drain_leaves reached, drain_leaves (same.trans reached), h.alike.store]
      exact h.note tells fits ⟨h.alike.settings, rfl, by simp only [absorb, h.alike.sites]⟩ rfl rfl

/-- What is neither a call nor a race is not heard; a record that is cleared is cleared for both
recorders. -/
theorem Overheard.perform_of_silent (h : w.Overheard w' loud quiet) {action : Action}
    (single : action.single = true) (other : ∀ k c, action ≠ .call k c) :
    ∃ loud quiet, (w.perform action).2.Overheard (w'.perform action).2 loud quiet := by
  have alike := (h.alike.perform_of_not_call single other).1
  by_cases clears : action = .clearRecord
  · subst clears
    refine ⟨[], [], alike, ?_, ?_, .of_fits nofun⟩
    · simp [World.perform, Diagnostics.clear, h.trace]
    · simp [World.perform, Diagnostics.clear, h.debug]
  · exact ⟨loud, quiet, alike, silent_recorder single other clears h.trace,
      silent_recorder single other clears h.debug, h.filtered⟩

theorem Overheard.perform (h : w.Overheard w' loud quiet) (action : Action) :
    ∃ loud quiet, (w.perform action).2.Overheard (w'.perform action).2 loud quiet := by
  cases action with
  | call k c => exact h.call k c
  | drain k threads words => exact h.drain k threads words
  | _ => exact h.perform_of_silent rfl nofun

theorem Overheard.after (h : w.Overheard w' loud quiet) (actions : List Action) :
    ∃ loud quiet, (w.after actions).Overheard (w'.after actions) loud quiet := by
  induction actions generalizing w w' loud quiet with
  | nil => exact ⟨loud, quiet, h⟩
  | cons action rest ih =>
      obtain ⟨loud', quiet', next⟩ := h.perform action
      exact ih next

/-- Whatever is done to a world, by one thread or by many, and whatever the logs keep: a
recorder at `debug` keeps what one at `trace` keeps of the same run, filtered for its level.
That is every transition and every refusal, in order and without sizes, and no grant. -/
theorem filtering (w : World) (d d' : Diagnostics) (actions : List Action) :
    Filtered
      ({ w with diagnostics := { d with listener := .recorder .trace [] } }.after
        actions).diagnostics.recorded
      ({ w with diagnostics := { d' with listener := .recorder .debug [] } }.after
        actions).diagnostics.recorded := by
  have start : Overheard { w with diagnostics := { d with listener := .recorder .trace [] } }
      { w with diagnostics := { d' with listener := .recorder .debug [] } } [] [] :=
    ⟨⟨rfl, rfl, rfl⟩, rfl, rfl, .of_fits nofun⟩
  obtain ⟨loud, quiet, ended⟩ := start.after actions
  simp only [Diagnostics.recorded, ended.trace, ended.debug]
  exact ended.filtered

/-- A claim that is refused, and then one that is granted from a fresh region. -/
example :
    let actions : List Action := [.call 0 .start, .call 0 (.claimLocked 5 5)]
    ({ small with diagnostics := { listener := .recorder .debug [] } }.after
      actions).diagnostics.recorded.map Event.moment =
        [.starting, .started, .claimRefused, .retiring, .retired, .requesting, .publishing,
          .published, .requestServed] := by
  decide +kernel

end World

end RegionHeap
