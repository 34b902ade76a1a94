import RegionHeap.Proofs.World.Locking

/-!
# Claims under the lock lose no region

A claim under the lock is made in two places, each of which has a test of its own: the active
region refuses what it cannot hold, and the supply refuses what no region can hold. The two
agree for every number of words but none. Then the supply grants a region, which refuses the
claim when it has left the queue already.
-/

namespace RegionHeap

namespace World

variable {w : World} {k : Nat} {site : Site}

/-- The regions that the arena at position `k` holds. -/
def heldAt (w : World) (k : Nat) : List Nat :=
  (w.sites[k]?.map fun site => site.registers.regions).getD []

theorem heldAt_eq (here : w.sites[k]? = some site) : w.heldAt k = site.registers.regions := by
  rw [heldAt, here]
  rfl

/-- A call on the arena at position `k` goes well: it answers with a span or with none, and
every region that has left the queue is held by the arena. -/
structure Serves (w : World) (k : Nat) (c : Call) : Prop where
  answers : ∃ o, (w.call k c).1 = .ok (.span o)
  keeps : ∀ i ∈ w.heap.supply.free, i ∉ (w.call k c).2.heap.supply.free →
    i ∈ (w.call k c).2.heldAt k

/-- A claim of some words goes well, and so does every claim on an empty queue. -/
theorem Orderly.serves_claimLocked (order : w.Orderly) (noRivals : w.heap.NoRivals)
    (here : w.sites[k]? = some site) (started : site.registers.active ≠ none)
    {min desired : Nat} (le : min ≤ desired)
    (possible : 0 < desired ∨ w.heap.supply.free = []) : w.Serves k (.claimLocked min desired) := by
  have r := order.ready here
  have reached : w.siteFor k (.claimLocked min desired) = .ok site := siteFor_eq_ok here rfl
  obtain ⟨place, slot, active, found, alone, -, full⟩ := order.active_slot noRivals here started
  cases taken : slot.region.takes min desired with
  | some words =>
      -- The active region serves the claim, and the queue stays.
      obtain ⟨pos, fits, least, most⟩ := Region.takes_le taken
      cases place with
      | sentinel =>
          have := full rfl
          omega
      | table i =>
          have ends := Arena.claimLocked_served r.able active (Heap.find_table_eq_ok_iff.1 found)
            alone le (by omega) (by omega)
          obtain ⟨outcome, heap, -⟩ := call_of_ends reached (ends.map Answer.span)
          refine ⟨⟨_, outcome⟩, fun i before after => absurd before ?_⟩
          rwa [heap] at after
  | none =>
      obtain ⟨o, s₁, s', ends, renews⟩ :=
        Arena.claimLocked_renews r active found alone le taken possible
      obtain ⟨outcome, heap, sites⟩ := call_of_ends reached (ends.map Answer.span)
      refine ⟨⟨o, outcome⟩, fun i before after => ?_⟩
      rw [heap] at after
      by_cases refused : w.heap.supply.geometry.regionWords < desired ∨ w.heap.supply.free = []
      · obtain ⟨-, -, -, -, free⟩ := renews.refused refused
        exact absurd before (free ▸ after)
      · obtain ⟨fits, left⟩ := not_or.1 refused
        obtain ⟨j, rest, queue⟩ := List.exists_cons_of_ne_nil left
        obtain ⟨-, -, -, -, active', -, free⟩ := renews.served j rest (Nat.not_lt.1 fits) queue
        obtain rfl : i = j := by
          rw [queue] at before
          rw [free] at after
          exact (List.mem_cons.1 before).resolve_right after
        have here' : (w.call k (.claimLocked min desired)).2.sites[k]? =
            some { site with registers := s'.registers } := by
          rw [sites]
          exact List.getElem?_set_self (List.getElem?_eq_some_iff.1 here).1
        rw [heldAt_eq here']
        exact Arena.mem_regions_of_active active'

/-- A claim of no words on a queue that is not empty is a fault. The first region of the queue
has left it then, and nobody holds that region. -/
theorem Orderly.loses_claimLocked (order : w.Orderly) (noRivals : w.heap.NoRivals)
    (here : w.sites[k]? = some site) (started : site.registers.active ≠ none) {i : Nat}
    {rest : List Nat} (free : w.heap.supply.free = i :: rest) :
    (w.call k (.claimLocked 0 0)).1 = .error (.cannotHold site.arena.name i 0) ∧
      (w.call k (.claimLocked 0 0)).2.heap.supply.free = rest ∧
        (w.call k (.claimLocked 0 0)).2.Unowned i := by
  have r := order.ready here
  have reached : w.siteFor k (.claimLocked 0 0) = .ok site := siteFor_eq_ok here rfl
  obtain ⟨place, slot, active, found, alone, -⟩ := order.active_slot noRivals here started
  obtain ⟨s₁, s', ends, ⟨waste, ds, vacates⟩, lost⟩ :=
    Arena.claimLocked_loses r active found alone free
  obtain ⟨outcome, heap, sites⟩ := call_of_ends reached (ends.map Answer.span)
  obtain ⟨-, queue, -⟩ := vacates.keeps
  have queue' : s'.heap.supply.free = rest := by
    cases lost with
    | lose _ granted _ _ =>
        simp only [Arena.prepared, Arena.noted, Store.setSlot_free, Arena.requested,
          Supply.request, granted, queue]
        exact congrArg List.tail free
  refine ⟨outcome, heap ▸ queue', ?_, ?_⟩
  · rw [heap, queue']
    have nodup := (List.nodup_append.1 order.order.nodup).1
    rw [free] at nodup
    exact (List.nodup_cons.1 nodup).1
  · -- No region comes to the arena on the way.
    obtain ⟨gained, -⟩ := vacates.retiring.gains_nothing
    have perm := (vacates.deeds.append lost.single).regions
    simp only [List.flatMap_append, gained, List.flatMap_singleton, Deed.gained,
      List.append_nil] at perm
    intro mine
    have before : i ∈ w.held := by
      rcases List.mem_append.1 ((held_perm_set here sites).mem_iff.1 mine) with own | others
      · exact mem_held here (perm.mem_iff.1 (List.mem_append_left _ own))
      · exact heldBeside_subset others
    exact order.order.not_mem_free before (free ▸ List.mem_cons_self)

/-- In every world that tidy actions without competition lead to, every claim under the lock of
an arena that was started goes well, whatever the sizes: but if no words are asked for and a
region is free, the claim is a fault and that region is lost. -/
theorem lossless {w : World} (opened : w.Opened) {actions : List Action}
    (tidy : ∀ h ∈ w.history actions, h.action.Tidy h.before ∧ ¬ h.action.Contests) {k : Nat}
    {site : Site} (here : (w.after actions).sites[k]? = some site)
    (started : site.registers.active ≠ none) {min desired : Nat} (le : min ≤ desired) :
    let now := w.after actions
    (0 < desired ∨ now.heap.supply.free = [] → now.Serves k (.claimLocked min desired)) ∧
      ∀ i rest, desired = 0 → now.heap.supply.free = i :: rest →
        (now.call k (.claimLocked min desired)).1 =
            .error (.cannotHold site.arena.name i 0) ∧
          (now.call k (.claimLocked min desired)).2.heap.supply.free = rest ∧
            (now.call k (.claimLocked min desired)).2.Unowned i := by
  obtain ⟨order, noRivals⟩ := opened.orderly_after tidy
  refine ⟨order.serves_claimLocked noRivals here started le, ?_⟩
  rintro i rest rfl free
  obtain rfl : min = 0 := Nat.le_zero.1 le
  exact order.loses_claimLocked noRivals here started free

/-- Of two words in each region, an arena asks for more than any region has, and for one. -/
theorem lossless_small :
    let w := small.after [.call 0 .start, .call 0 (.claimLocked 5 5)]
    w.Serves 0 (.claimLocked 9 (2 ^ 64 - 1)) ∧ w.Serves 0 (.claimLocked 0 1) ∧
      (w.call 0 (.claimLocked 0 0)).2.Unowned 1 := by
  intro w
  have here : w.sites[0]? = some
      { arena := .mutator 0 .small, registers := { active := some (.table 0), count := 1 } } := by
    decide +kernel
  have tidy : ∀ h ∈ small.history [.call 0 .start, .call 0 (.claimLocked 5 5)],
      h.action.Tidy h.before ∧ ¬ h.action.Contests := by decide +kernel
  obtain ⟨large, -⟩ := lossless small_opened tidy here nofun (by decide : 9 ≤ 2 ^ 64 - 1)
  obtain ⟨little, -⟩ := lossless small_opened tidy here nofun (by decide : 0 ≤ 1)
  obtain ⟨-, lost⟩ := lossless small_opened tidy here nofun (Nat.le_refl 0)
  exact ⟨large (.inl (by decide)), little (.inl (by decide)),
    (lost 1 [2, 3] rfl (by decide +kernel)).2.2⟩

/-- A claim of no words is no claim that goes well. The region that it was granted has left the
queue, and no arena holds it. -/
theorem zero_words_lost :
    let w := small.after [.call 0 .start, .call 0 (.claimLocked 5 5)]
    (w.call 0 (.claimLocked 0 0)).1 = .error (.cannotHold "Mutator Alloc Region" 1 0) ∧
      ¬ w.Serves 0 (.claimLocked 0 0) := by
  intro w
  have fault : (w.call 0 (.claimLocked 0 0)).1 =
      .error (.cannotHold "Mutator Alloc Region" 1 0) := by decide +kernel
  refine ⟨fault, fun serves => ?_⟩
  obtain ⟨o, answer⟩ := serves.answers
  cases fault.symm.trans answer

end World

end RegionHeap
