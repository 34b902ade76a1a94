import RegionHeap.Proofs.Arena.Success
import RegionHeap.Proofs.World.Opened

/-!
# Nothing is a fault

Clients are well-behaved if all their calls are in order and no region is recycled that is
in use. As long as they are, nothing that happens to a world is a fault. What makes this
hold from one action to the next is that the world is orderly and that no arena keeps a
region while it is idle.
-/

namespace RegionHeap

namespace Diagnostics

variable {d : Diagnostics}

theorem hear_logLevel (d : Diagnostics) (e : Event) : (d.hear e).logLevel = d.logLevel := by
  unfold hear
  cases e.atDetail d.detail with
  | none => rfl
  | some e =>
      unfold deliver
      cases d.listener <;> rfl

/-- Where the log keeps no summary, there is no fault to be found. -/
theorem noteAll_quiet (quiet : d.logLevel.keepsDebug = false) (said : List Entry) :
    (d.noteAll said).1 = none ∧ (d.noteAll said).2.logLevel = d.logLevel := by
  induction said generalizing d with
  | nil => exact ⟨rfl, rfl⟩
  | cons entry rest ih =>
      cases entry with
      | event e =>
          have same := d.hear_logLevel e
          obtain ⟨faultless, level⟩ := ih (d := d.hear e) (same ▸ quiet)
          exact ⟨faultless, level.trans same⟩
      | summary regions wastedBytes regionBytes =>
          have noted : d.note (.summary regions wastedBytes regionBytes) = .ok d := by
            simp [note, quiet]
          simp only [noteAll, noted]
          exact ih quiet

theorem clear_logLevel (d : Diagnostics) : d.clear.logLevel = d.logLevel := by
  unfold clear
  cases d.listener <;> rfl

theorem mapChannel_logLevel (d : Diagnostics) (f : Channel → Channel) :
    (d.mapChannel f).logLevel = d.logLevel := by
  unfold mapChannel
  cases d.listener <;> rfl

end Diagnostics

namespace Action

/-- What well-behaved clients do: calls that are in order, on arenas that there are, and
recycling of regions that there are. -/
def InOrder (w : World) : Action → Prop
  | .call k c => ∃ site ∈ w.sites[k]?, c.InOrder (w.store site)
  | .recycle i => i < w.heap.supply.slots.length
  | .exhaust | .read _ | .hangUp | .clearRecord => True
  | .drain .. | .request .. | .takeBack .. | .takeBackFrom .. | .onRegion .. | .addRival ..
  | .onTallies _ | .isSentinel _ => False

instance (w : World) : DecidablePred (InOrder w)
  | .call k c => inferInstanceAs (Decidable (∃ site ∈ w.sites[k]?, c.InOrder (w.store site)))
  | .recycle i => inferInstanceAs (Decidable (i < _))
  | .exhaust | .read _ | .hangUp | .clearRecord => .isTrue trivial
  | .drain .. | .request .. | .takeBack .. | .takeBackFrom .. | .onRegion .. | .addRival ..
  | .onTallies _ | .isSentinel _ => .isFalse id

/-- A call after which an idle arena still keeps a region. -/
def Abandons (w : World) : Action → Prop
  | .call k c => ∃ site ∈ w.sites[k]?, c.Abandons site.registers
  | _ => False

instance (w : World) : DecidablePred (Abandons w)
  | .call k c => inferInstanceAs (Decidable (∃ site ∈ w.sites[k]?, c.Abandons site.registers))
  | .recycle _ | .exhaust | .read _ | .hangUp | .clearRecord | .drain .. | .request ..
  | .takeBack .. | .takeBackFrom .. | .onRegion .. | .addRival .. | .onTallies _
  | .isSentinel _ => .isFalse id

theorem InOrder.quiet {w : World} {action : Action} (inOrder : action.InOrder w) :
    ¬ action.Contests := by
  intro contests
  cases action with
  | onRegion | addRival => exact inOrder
  | _ => exact contests

end Action

namespace World

variable {w : World} {k : Nat} {c : Call} {site : Site}

/-- No arena keeps a region while it is idle. -/
def AllSettled (w : World) : Prop :=
  ∀ site ∈ w.sites, site.registers.Settled

/-- Everything is in its place, and the log keeps no summary. -/
structure Faultless (w : World) : Prop where
  orderly : w.Orderly
  noRivals : w.heap.NoRivals
  settled : w.AllSettled
  quiet : w.diagnostics.logLevel.keepsDebug = false

/-- A call that is in order reaches its arena. -/
theorem siteFor_of_inOrder (here : w.sites[k]? = some site) (inOrder : c.InOrder (w.store site)) :
    w.siteFor k c = .ok site := by
  cases c with
  | adopt place =>
      cases place with
      | sentinel => exact inOrder.elim
      | table i =>
          obtain ⟨-, -, slot, found, -⟩ := inOrder
          have named : w.heap.find (.table i) = .ok slot := Heap.find_table_eq_ok_iff.2 found
          simp only [siteFor, World.site, here, Call.place?, named, Bind.bind, Except.bind]
          rfl
  | _ => exact siteFor_eq_ok here rfl

theorem call_logLevel {o : Except Fault Answer} {s : Store} {said : List Entry}
    (quiet : w.diagnostics.logLevel.keepsDebug = false) (reached : w.siteFor k c = .ok site)
    (run : (site.arena.answer c).run (w.store site) = (o, { s with transcript := said })) :
    (w.call k c).2.diagnostics.logLevel = w.diagnostics.logLevel := by
  obtain ⟨faultless, level⟩ := Diagnostics.noteAll_quiet quiet said
  simp only [World.call, reached, run, absorb]
  cases noted : w.diagnostics.noteAll said with
  | mk fault diagnostics =>
      rw [noted] at faultless level
      cases fault with
      | none => exact level
      | some fault => cases faultless

/-- A call that is in order is answered, and leaves everything in its place. -/
theorem Faultless.call (f : w.Faultless) (here : w.sites[k]? = some site)
    (inOrder : c.InOrder (w.store site)) (keeps : ¬ c.Abandons site.registers) :
    (∃ answer, (w.call k c).1 = .ok answer) ∧ (w.call k c).2.AllSettled ∧
      (w.call k c).2.diagnostics.logLevel.keepsDebug = false := by
  have reached := siteFor_of_inOrder here inOrder
  have settled := f.settled site (List.mem_of_getElem? here)
  obtain ⟨v, s, leads, settled'⟩ :=
    Arena.answer_answers (f.orderly.ready here) settled inOrder keeps
  obtain ⟨said, run⟩ := leads []
  obtain ⟨-, sites, outcome⟩ := call_eq reached run
  refine ⟨⟨v, outcome (Diagnostics.noteAll_quiet f.quiet said).1⟩, ?_, ?_⟩
  · intro other hother
    rw [sites] at hother
    rcases List.mem_or_eq_of_mem_set hother with old | rfl
    · exact f.settled other old
    · exact settled'
  · rw [call_logLevel f.quiet reached run]
    exact f.quiet

/-- What well-behaved clients do is no fault, and leaves everything in its place. -/
theorem Faultless.perform (f : w.Faultless) {action : Action} (tidy : action.Tidy w)
    (inOrder : action.InOrder w) (keeps : ¬ action.Abandons w) :
    (∃ outcome, (w.perform action).1 = .ok outcome) ∧ (w.perform action).2.Faultless := by
  have orderly := f.orderly.perform tidy (rested_of_noRivals f.noRivals action)
  have noRivals := f.orderly.noRivals_perform f.noRivals tidy inOrder.quiet
  cases action with
  | call k c =>
      obtain ⟨site, here, inOrder⟩ := inOrder
      obtain ⟨⟨answer, ok⟩, settled, quiet⟩ :=
        f.call here inOrder fun abandons => keeps ⟨site, here, abandons⟩
      refine ⟨⟨.answer answer, ?_⟩, orderly, noRivals, settled, quiet⟩
      change Outcome.answer <$> (w.call k c).1 = _
      rw [ok]
      rfl
  | recycle i =>
      have found : w.heap.supply.slots[i]? = some w.heap.supply.slots[i] :=
        List.getElem?_eq_getElem inOrder
      have performed : w.perform (.recycle i) = (.ok .nothing, (w.perform (.recycle i)).2) := by
        simp [World.perform, onSupply, Supply.recycle, Supply.slot, found, Bind.bind, Except.bind,
          Pure.pure, Except.pure]
      have sites : (w.perform (.recycle i)).2.sites = w.sites :=
        (sameBooks_of_not_call tidy fun k c eq => by cases eq).sites
      have diagnostics : (w.perform (.recycle i)).2.diagnostics = w.diagnostics := by
        simp [World.perform, onSupply, Supply.recycle, Supply.slot, found, Bind.bind, Except.bind,
          Pure.pure, Except.pure, setSupply]
      refine ⟨⟨.nothing, by rw [performed]⟩, orderly, noRivals, ?_, ?_⟩
      · unfold AllSettled
        rw [sites]
        exact f.settled
      · rw [diagnostics]
        exact f.quiet
  | exhaust => exact ⟨⟨_, rfl⟩, orderly, noRivals, f.settled, f.quiet⟩
  | read max =>
      have sites : (w.perform (.read max)).2.sites = w.sites :=
        (sameBooks_of_not_call tidy fun k c eq => by cases eq).sites
      have level : (w.perform (.read max)).2.diagnostics.logLevel = w.diagnostics.logLevel := by
        change (w.read max).2.diagnostics.logLevel = _
        unfold World.read
        cases w.diagnostics.channel? with
        | none => rfl
        | some channel => exact w.diagnostics.mapChannel_logLevel _
      refine ⟨⟨_, rfl⟩, orderly, noRivals, ?_, ?_⟩
      · unfold AllSettled
        rw [sites]
        exact f.settled
      · rw [level]
        exact f.quiet
  | hangUp =>
      refine ⟨⟨_, rfl⟩, orderly, noRivals, f.settled, ?_⟩
      exact (congrArg _ (w.diagnostics.mapChannel_logLevel _)).trans f.quiet
  | clearRecord =>
      refine ⟨⟨_, rfl⟩, orderly, noRivals, f.settled, ?_⟩
      exact (congrArg _ w.diagnostics.clear_logLevel).trans f.quiet
  | drain | request | takeBack | takeBackFrom | onRegion | addRival | onTallies | isSentinel =>
      exact inOrder.elim

theorem Opened.faultless (opened : w.Opened)
    (quiet : w.diagnostics.logLevel.keepsDebug = false) : w.Faultless := by
  refine ⟨opened.orderly, opened.noRivals, ?_, quiet⟩
  intro site hsite idle
  rw [opened.registers hsite]

/-- Over a fresh heap, nothing that well-behaved clients do is a fault, if no arena is
released in the way of a plain one while it keeps a region aside. -/
theorem faultlessness {w : World} (opened : w.Opened)
    (quiet : w.diagnostics.logLevel.keepsDebug = false) (actions : List Action)
    (behaved : ∀ h ∈ w.history actions,
      h.action.Tidy h.before ∧ h.action.InOrder h.before ∧ ¬ h.action.Abandons h.before) :
    ∀ h ∈ w.history actions, ∃ outcome, h.outcome = .ok outcome := by
  have keep (h : Happening) (hh : h ∈ w.history actions) (f : h.before.Faultless) :
      h.after.Faultless := by
    obtain ⟨tidy, inOrder, keeps⟩ := behaved h hh
    exact (f.perform tidy inOrder keeps).2
  intro h hh
  have f := history_invariant keep (opened.faultless quiet) hh
  obtain ⟨tidy, inOrder, keeps⟩ := behaved h hh
  exact (f.perform tidy inOrder keeps).1

/-- An arena that keeps a region, puts another aside in its place, and is started again after
it was released; another adopts a region that was given up, and a third claims it anew. -/
theorem faultlessness_small :
    let actions : List Action := [.call 0 .start, .call 0 (.claimLocked 5 5),
      .call 0 (.retire true), .call 0 (.install 3), .call 0 (.retire false),
      .call 0 (.claimRetained 1 2), .call 0 .release, .call 0 .start, .call 2 .start,
      .call 2 (.adopt (.table 1)), .call 2 (.claimFresh 1 8), .call 2 (.retire true),
      .call 2 .release, .recycle 1, .call 3 .start, .call 3 (.claimForced 8),
      .call 3 (.claimLocked 1 8), .call 3 .releasePlain]
    (small.history actions).map (fun h => h.outcome.toOption.isSome) = actions.map fun _ => true := by
  intro actions
  have outcomes := faultlessness small_opened rfl actions (by decide +kernel)
  have all : ∀ h ∈ small.history actions, h.outcome.toOption.isSome = true := by
    intro h hh
    obtain ⟨outcome, ok⟩ := outcomes h hh
    rw [ok]
    rfl
  rw [List.map_congr_left all]
  decide +kernel

/-- A mutator that is released in the way of a plain arena while it keeps a region cannot be
started again. -/
theorem retained_at_start :
    let actions : List Action := [.call 0 .start, .call 0 (.claimLocked 3 3),
      .call 0 (.retire true), .call 0 .releasePlain, .call 0 .start]
    small.Opened ∧ small.diagnostics.logLevel.keepsDebug = false ∧
      (∀ h ∈ small.history actions, h.action.Tidy h.before ∧ h.action.InOrder h.before) ∧
        ∃ h ∈ small.history actions,
          h.outcome = .error (.stillRetaining "Mutator Alloc Region") :=
  ⟨small_opened, rfl, by decide +kernel, by decide +kernel⟩

end World

end RegionHeap
