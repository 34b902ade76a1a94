import RegionHeap.Proofs.Arena.Hiding
import RegionHeap.Proofs.Race.Redraw

/-!
# Steps on a heap without rivals

Whatever step is taken on a heap where every region is in its place and nobody waits, the
regions stay in their places, and no cursor goes back.
-/

namespace RegionHeap

/-- Every region is in its place, nobody waits anywhere, and the sentinel has no room. -/
structure Heap.PlacedNoRivals (h : Heap) : Prop where
  sound : h.supply.geometry.Sound
  placed : ∀ {i : Nat} {slot : Slot}, h.supply.slots[i]? = some slot →
    slot.region.Placed h.supply.geometry i
  noRivals : h.NoRivals
  full : h.sentinel.limit = h.sentinel.top
  sentinelWord : h.sentinel.wordBytes ≠ 0

/-- The cursors of the regions have only moved up. -/
structure Heap.Onward (h h' : Heap) : Prop where
  geometry : h'.supply.geometry = h.supply.geometry
  slots : ∀ {i : Nat} {slot : Slot}, h.supply.slots[i]? = some slot →
    ∃ slot', h'.supply.slots[i]? = some slot' ∧ slot.region.Onward slot'.region

theorem Heap.Orderly.placedNoRivals {h : Heap} {held : List Nat} (order : h.Orderly held)
    (noRivals : h.NoRivals) :
    h.PlacedNoRivals :=
  ⟨order.sound, order.placed, noRivals, order.full, order.sentinelWord⟩

namespace Heap.Onward

variable {h h' h'' : Heap}

theorem refl (h : Heap) : h.Onward h :=
  ⟨rfl, fun found => ⟨_, found, .refl _⟩⟩

theorem trans (first : h.Onward h') (second : h'.Onward h'') : h.Onward h'' where
  geometry := second.geometry.trans first.geometry
  slots := by
    intro i slot found
    obtain ⟨slot', found', onward⟩ := first.slots found
    obtain ⟨slot'', found'', onward'⟩ := second.slots found'
    exact ⟨slot'', found'', onward.trans onward'⟩

/-- Records and tallies do not matter. -/
theorem congr (slots : h'.supply.slots = h.supply.slots)
    (geometry : h'.supply.geometry = h.supply.geometry) : h.Onward h' :=
  ⟨geometry, fun found => ⟨_, slots ▸ found, .refl _⟩⟩

end Heap.Onward

/-- What a step may do to a region: claim words of it, or draw it anew. -/
inductive Region.Stepped (r r' : Region) : Prop
  | took (words : Nat) (fits : words ≤ r.left) (eq : r' = r.took words)
  | redrawn (h : r.Redrawn r')

namespace Region.Stepped

variable {r r' : Region} {g : Geometry} {i : Nat}

theorem onward (h : r.Stepped r') : r.Onward r' := by
  cases h with
  | took words fits eq => exact eq ▸ .took r words
  | redrawn h => exact h.onward

theorem placed (h : r.Stepped r') (p : r.Placed g i) : r'.Placed g i := by
  cases h with
  | took words fits eq => exact eq ▸ p.took fits
  | redrawn h => exact h.placed p

/-- Nothing can be taken from a region without room. -/
theorem full (h : r.Stepped r') (full : r.limit = r.top) : r'.limit = r'.top := by
  cases h with
  | took words fits eq =>
      have none : r.left = 0 := by simp [left, room, full]
      obtain rfl : words = 0 := by omega
      rw [eq, took_zero, full]
  | redrawn h => rw [h.limit, h.top, full]

end Region.Stepped

namespace Heap.PlacedNoRivals

variable {h h' : Heap} {place : Place} {slot slot' : Slot}

theorem congr (placed : h.PlacedNoRivals) (slots : h'.supply.slots = h.supply.slots)
    (geometry : h'.supply.geometry = h.supply.geometry) (sentinel : h'.sentinel = h.sentinel) :
    h'.PlacedNoRivals where
  sound := geometry ▸ placed.sound
  placed := fun found => geometry ▸ placed.placed (slots ▸ found)
  noRivals := fun i slot found => placed.noRivals i slot (slots ▸ found)
  full := sentinel ▸ placed.full
  sentinelWord := sentinel ▸ placed.sentinelWord

/-- What a step does to one region leaves every region in its place and without rivals. -/
theorem put (placed : h.PlacedNoRivals) (found : h.find place = .ok slot)
    (stepped : slot.region.Stepped slot'.region) (noRivals : slot'.rivals = []) :
    (h.put place slot').PlacedNoRivals ∧ h.Onward (h.put place slot') := by
  cases place with
  | sentinel =>
      cases found
      have word := stepped.onward.word
      refine ⟨{ placed with full := stepped.full placed.full, sentinelWord := ?_ }, .congr rfl rfl⟩
      change slot'.region.wordBytes ≠ 0
      rw [word]
      exact placed.sentinelWord
  | table i =>
      have here := Heap.find_table_eq_ok_iff.1 found
      refine ⟨{ placed with placed := ?_, noRivals := ?_ }, ⟨rfl, ?_⟩⟩
      · intro j other hj
        obtain ⟨rfl, rfl⟩ | ⟨-, before⟩ := Supply.slots_set_cases hj
        · exact stepped.placed (placed.placed here)
        · exact placed.placed before
      · intro j other hj
        obtain ⟨rfl, rfl⟩ | ⟨-, before⟩ := Supply.slots_set_cases hj
        · exact noRivals
        · exact placed.noRivals j other before
      · intro j other hj
        obtain ⟨rfl, after⟩ | ⟨-, after⟩ := Supply.slots_set_of_slots i slot' hj
        · cases here.symm.trans hj
          exact ⟨slot', after, stepped.onward⟩
        · exact ⟨other, after, .refl _⟩

/-- A claim takes what fits, or nothing. -/
theorem claim_stepped (placed : h.PlacedNoRivals) (found : h.find place = .ok slot)
    {min desired : Nat}
    {span : Option Span} (claimed : slot.claim min desired = .ok (span, slot')) :
    slot.region.Stepped slot'.region ∧ slot'.rivals = [] := by
  have alone := placed.noRivals.find found
  rw [Slot.claim_of_rivals_eq_nil alone] at claimed
  have stays : slot.region.Stepped slot.region :=
    .took 0 (Nat.zero_le _) slot.region.took_zero.symm
  have sizes : min ≤ desired := by
    by_contra less
    rw [Region.claim_of_lt (Nat.not_le.1 less)] at claimed
    cases claimed
  cases place with
  | sentinel =>
      cases found
      rw [Region.claim_of_full placed.full placed.sentinelWord sizes] at claimed
      cases claimed
      exact ⟨stays, rfl⟩
  | table i =>
      have p := placed.placed (Heap.find_table_eq_ok_iff.1 found)
      rw [p.claim_eq placed.sound sizes] at claimed
      cases taken : slot.region.takes min desired with
      | none =>
          rw [taken] at claimed
          cases claimed
          exact ⟨stays, alone⟩
      | some words =>
          rw [taken] at claimed
          cases claimed
          exact ⟨.took words (Region.takes_le taken).2.1 rfl, alone⟩

end Heap.PlacedNoRivals

/-- Recording a filler draws a region anew. -/
theorem Region.addFiller_redrawn {r r' : Region} {filler : Span}
    (added : r.addFiller filler = .ok r') : r.Redrawn r' := by
  unfold Region.addFiller at added
  cases limit : filler.limit r.wordBytes with
  | error fault => simp [limit, Bind.bind, Except.bind] at added
  | ok stop =>
      simp only [limit, Bind.bind, Except.bind] at added
      split at added
      · cases added
        exact ⟨rfl, rfl, rfl, rfl, rfl⟩
      · cases added

namespace Step

variable {s s' : Store}

/-- A region is drawn anew where nobody waits. -/
theorem onRegion_placedNoRivals (placed : s.heap.PlacedNoRivals) {place : Place}
    {f : Region → Except Fault Region}
    (redraws : ∀ r r', f r = .ok r' → r.Redrawn r') {answer : Unit}
    (performed : onRegion s place f = .ok (answer, s')) :
    s'.heap.PlacedNoRivals ∧ s.heap.Onward s'.heap ∧ s'.registers = s.registers := by
  rw [onRegion_eq] at performed
  cases found : s.heap.find place with
  | error fault => simp [found, Except.bind] at performed
  | ok slot =>
      cases drawn : f slot.region with
      | error fault => simp [found, drawn, Except.bind, Except.map] at performed
      | ok region =>
          simp only [found, drawn, Except.bind, Except.map, Except.ok.injEq,
            Prod.mk.injEq] at performed
          obtain ⟨-, rfl⟩ := performed
          have redrawn : slot.region.Redrawn ({ slot with region } : Slot).region :=
            redraws _ _ drawn
          have alone := placed.noRivals.find found
          obtain ⟨placed', onward⟩ := placed.put found (.redrawn redrawn) alone
          exact ⟨placed', onward, rfl⟩

/-- Every step leaves the regions in their places and without rivals, and moves cursors up only.
A hiding step leaves what is active, or makes the sentinel active. -/
theorem perform_placedNoRivals {st : Step} {answer : st.Answer} (placed : s.heap.PlacedNoRivals)
    (performed : st.perform s = .ok (answer, s')) :
    s'.heap.PlacedNoRivals ∧ s.heap.Onward s'.heap ∧
      (st.Hides → s'.registers.active = s.registers.active ∨
        s'.registers.active = some .sentinel) := by
  have redrawn {place : Place} {f : Region → Except Fault Region}
      (redraws : ∀ r r', f r = .ok r' → r.Redrawn r')
      (performed : onRegion s place f = .ok ((), s')) :
      s'.heap.PlacedNoRivals ∧ s.heap.Onward s'.heap ∧
        (st.Hides → s'.registers.active = s.registers.active ∨
          s'.registers.active = some .sentinel) := by
    obtain ⟨placed', onward, same⟩ := onRegion_placedNoRivals placed redraws performed
    exact ⟨placed', onward, fun _ => .inl (congrArg _ same)⟩
  cases st with
  | look place =>
      rw [perform_look] at performed
      cases found : s.heap.find place with
      | error fault => simp [found, Except.map] at performed
      | ok slot =>
          simp only [found, Except.map, Except.ok.injEq, Prod.mk.injEq] at performed
          obtain ⟨-, rfl⟩ := performed
          exact ⟨placed, .refl _, fun _ => .inl rfl⟩
  | claim place min desired =>
      rw [perform_claim] at performed
      cases found : s.heap.find place with
      | error fault => simp [found, Except.bind] at performed
      | ok slot =>
          cases claimed : slot.claim min desired with
          | error fault => simp [found, claimed, Except.bind, Except.map] at performed
          | ok result =>
              simp only [found, claimed, Except.bind, Except.map, Except.ok.injEq,
                Prod.mk.injEq] at performed
              obtain ⟨-, rfl⟩ := performed
              obtain ⟨stepped, noRivals⟩ := placed.claim_stepped found claimed
              obtain ⟨placed', onward⟩ := placed.put found stepped noRivals
              exact ⟨placed', onward, fun _ => .inl rfl⟩
  | addFiller place filler => exact redrawn (fun _ _ => Region.addFiller_redrawn) performed
  | mark place address =>
      refine redrawn (f := fun r => .ok (r.mark address)) (fun r r' eq => ?_) performed
      cases eq
      exact ⟨rfl, rfl, rfl, rfl, rfl⟩
  | unmark place =>
      refine redrawn (f := fun r => .ok r.unmark) (fun r r' eq => ?_) performed
      cases eq
      exact ⟨rfl, rfl, rfl, rfl, rfl⟩
  | storeActive place =>
      cases performed
      exact ⟨placed, .refl _, fun hides => .inr hides⟩
  | _ =>
      cases performed
      exact ⟨placed.congr rfl rfl rfl, .congr rfl rfl, fun _ => .inl rfl⟩

end Step

end RegionHeap
