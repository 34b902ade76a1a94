import RegionHeap.Proofs.Arena.Locked
import RegionHeap.Proofs.World.Opened

/-!
# Claims under the lock

While nobody competes and regions are freed only when they are nobody's, a claim under the lock
never fails but by an empty queue. It takes what the active region has left, if that is
enough. Else the arena parts with the region, asks the supply once, and starts on the region
that is first in the queue.
-/

namespace RegionHeap

namespace World

variable {w : World} {k : Nat} {c : Call} {site : Site}

/-- A call whose program reports events only brings what the program does. -/
theorem call_of_ends {s : Store} {o : Except Fault Answer} (reached : w.siteFor k c = .ok site)
    (ends : (site.arena.answer c).Ends (w.store site) o s) :
    (w.call k c).1 = o ∧ (w.call k c).2.heap = s.heap ∧
      (w.call k c).2.sites = w.sites.set k { site with registers := s.registers } := by
  obtain ⟨said, run⟩ := ends []
  obtain ⟨heap, sites, outcome⟩ := call_eq reached run
  exact ⟨outcome (w.diagnostics.noteAll_events said), heap, sites⟩

/-- How a claim under the lock goes at an arena whose active region is the one in `slot`, and
has `words` words left. The arena leaves `s'` behind. -/
structure ClaimsLocked (w : World) (k : Nat) (site : Site) (min desired : Nat) (place : Place)
    (slot : Slot) (words : Nat) (s' : Store) : Prop where
  active : site.registers.active = some place
  found : w.heap.find place = .ok slot
  free : slot.region.freeInWords = .ok words
  none : place = .sentinel → words = 0
  heap : (w.call k (.claimLocked min desired)).2.heap = s'.heap
  sites : (w.call k (.claimLocked min desired)).2.sites =
    w.sites.set k { site with registers := s'.registers }
  /-- Where there are enough words, they are taken, and nothing else changes. -/
  served : max min 1 ≤ words →
    (w.call k (.claimLocked min desired)).1 =
      .ok (.span (some { start := slot.region.top, words := Nat.min words desired })) ∧
    s' = { w.store site with
      heap := w.heap.put place
        { slot with region := slot.region.took (Nat.min words desired) } }
  renewed : words < max min 1 → ∃ o s₁,
    (w.call k (.claimLocked min desired)).1 = .ok (.span o) ∧
      site.arena.Renews desired (w.store site) s₁ s' o

/-- An arena that was started has an active region, and the words that are left there can be
told. The sentinel has none. -/
theorem Orderly.active_slot (order : w.Orderly) (noRivals : w.heap.NoRivals)
    (here : w.sites[k]? = some site) (started : site.registers.active ≠ none) :
    ∃ place slot, site.registers.active = some place ∧ w.heap.find place = .ok slot ∧
      slot.rivals = [] ∧ slot.region.freeInWords = .ok slot.region.left ∧
        (place = .sentinel → slot.region.left = 0) := by
  have r := order.ready here
  obtain ⟨place, active⟩ := Option.ne_none_iff_exists'.1 started
  cases place with
  | sentinel =>
      have full := r.order.allPlaced.full
      have word := r.order.allPlaced.sentinelWord
      have left : (w.store site).heap.sentinel.left = 0 := by
        rw [Region.left, Region.room, full, Nat.sub_self, Nat.zero_div]
      refine ⟨.sentinel, { region := w.heap.sentinel }, active, rfl, rfl, ?_, fun _ => left⟩
      have free : (w.store site).heap.sentinel.free = .ok 0 := by
        rw [Region.free, Address.distanceFrom, full, if_pos (Nat.le_refl _), Nat.sub_self]
      change (w.store site).heap.sentinel.freeInWords = .ok (w.store site).heap.sentinel.left
      rw [left]
      simp only [Region.freeInWords, free, bind, Except.bind, Word.div_eq_ok word, Nat.zero_div]
  | table i =>
      obtain ⟨slot, found, -⟩ := r.slot_of_mem (Arena.mem_regions_of_active active)
      have p := r.order.placed found
      refine ⟨.table i, slot, active, Heap.find_table_eq_ok_iff.2 found, noRivals i slot found,
        (p.whole r.sound).freeInWords_eq, ?_⟩
      intro sentinel
      cases sentinel

/-- Every claim under the lock of an arena that was started goes like this. -/
theorem Orderly.claimsLocked (order : w.Orderly) (noRivals : w.heap.NoRivals)
    (here : w.sites[k]? = some site) (started : site.registers.active ≠ none)
    {min desired : Nat} (le : min ≤ desired) (pos : 0 < desired) :
    ∃ place slot words s', w.ClaimsLocked k site min desired place slot words s' := by
  have r := order.ready here
  have reached : w.siteFor k (.claimLocked min desired) = .ok site := siteFor_eq_ok here rfl
  obtain ⟨place, slot, active, found, alone, free, none⟩ := order.active_slot noRivals here started
  rcases Nat.lt_or_ge slot.region.left (max min 1) with few | enough
  · obtain ⟨o, s₁, s', ends, renews⟩ :=
      Arena.claimLocked_renews r active found alone le (Region.takes_eq_none_of_lt few)
        (.inl pos)
    obtain ⟨outcome, heap, sites⟩ := call_of_ends reached (ends.map Answer.span)
    refine ⟨place, slot, slot.region.left, s', active, found, free, none, heap, sites, ?_, ?_⟩
    · intro enough
      omega
    · exact fun _ => ⟨o, s₁, outcome, renews⟩
  · cases place with
    | sentinel =>
        have := none rfl
        omega
    | table i =>
        have ends := Arena.claimLocked_served r.able active (Heap.find_table_eq_ok_iff.1 found)
          alone le pos enough
        obtain ⟨outcome, heap, sites⟩ := call_of_ends reached (ends.map Answer.span)
        refine ⟨.table i, slot, slot.region.left, _, active, found, free, none, heap, sites,
          ?_, ?_⟩
        · exact fun _ => ⟨outcome, rfl⟩
        · intro few
          omega

/-- The exact behaviour of claims under the lock in every world that tidy actions without
competition lead to, at every arena that was started, for all sizes that are in order. -/
theorem locking {w : World} (opened : w.Opened) {actions : List Action}
    (tidy : ∀ h ∈ w.history actions, h.action.Tidy h.before ∧ ¬ h.action.Contests) {k : Nat}
    {site : Site} (here : (w.after actions).sites[k]? = some site)
    (started : site.registers.active ≠ none) {min desired : Nat} (le : min ≤ desired)
    (pos : 0 < desired) :
    ∃ place slot words s',
      (w.after actions).ClaimsLocked k site min desired place slot words s' := by
  obtain ⟨order, noRivals⟩ := opened.orderly_after tidy
  exact order.claimsLocked noRivals here started le pos

/-- A region of which three words are left cannot serve four. It is put aside, and the next
region serves six from its bottom on. -/
theorem locking_small :
    let w := small.after [.call 0 .start, .call 0 (.claimLocked 5 5)]
    ∃ slot s', w.ClaimsLocked 0
        { arena := .mutator 0 .small, registers := { active := some (.table 0), count := 1 } }
        4 6 (.table 0) slot 3 s' ∧
      (w.call 0 (.claimLocked 4 6)).1 = .ok (.span (some { start := 4160, words := 6 })) := by
  intro w
  have here : w.sites[0]? = some
      { arena := .mutator 0 .small, registers := { active := some (.table 0), count := 1 } } := by
    decide +kernel
  have tidy : ∀ h ∈ small.history [.call 0 .start, .call 0 (.claimLocked 5 5)],
      h.action.Tidy h.before ∧ ¬ h.action.Contests := by decide +kernel
  obtain ⟨place, slot, words, s', locks⟩ :=
    locking small_opened tidy here nofun (by decide : 4 ≤ 6) (by decide)
  obtain rfl : .table 0 = place := Option.some.inj locks.active
  have words_eq : words = 3 := by
    have known : (w.heap.find (.table 0)).bind (fun slot => slot.region.freeInWords) = .ok 3 := by
      decide +kernel
    rw [locks.found] at known
    exact Except.ok.inj (locks.free.symm.trans known)
  subst words_eq
  obtain ⟨o, s₁, outcome, renews⟩ := locks.renewed (by decide)
  obtain ⟨next, found, rfl, -⟩ := renews.served 1 [2, 3] (by decide +kernel) (by decide +kernel)
  have bottom : next.region.bottom = 4160 := by
    have known : (w.heap.supply.slots[1]?).map (fun slot => slot.region.bottom) = some 4160 := by
      decide +kernel
    change w.heap.supply.slots[1]? = some next at found
    rw [found] at known
    exact Option.some.inj known
  rw [bottom] at outcome
  exact ⟨slot, s', locks, outcome⟩

end World

end RegionHeap
