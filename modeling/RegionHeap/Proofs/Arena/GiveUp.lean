import RegionHeap.Arena.Call
import RegionHeap.Proofs.Program.Claims
import RegionHeap.Proofs.Slot.Claim

/-!
# Giving a region up, step by step

The fill of a region runs to its end against any rivals and leaves the region
settled, after one claim for each rival that it met and one for the filler. Giving up a
region that is not empty always comes to an end, answers the bytes wasted, and hands the
other bytes back.
-/

namespace RegionHeap

namespace Store

/-- The store with another slot at a position of the table. -/
def setSlot (s : Store) (i : Nat) (slot : Slot) : Store :=
  { s with heap := s.heap.put (.table i) slot }

@[simp] theorem setSlot_registers (s : Store) (i : Nat) (slot : Slot) :
    (s.setSlot i slot).registers = s.registers := rfl

@[simp] theorem setSlot_free (s : Store) (i : Nat) (slot : Slot) :
    (s.setSlot i slot).heap.supply.free = s.heap.supply.free := rfl

@[simp] theorem setSlot_geometry (s : Store) (i : Nat) (slot : Slot) :
    (s.setSlot i slot).heap.supply.geometry = s.heap.supply.geometry := rfl

@[simp] theorem setSlot_sentinel (s : Store) (i : Nat) (slot : Slot) :
    (s.setSlot i slot).heap.sentinel = s.heap.sentinel := rfl

@[simp] theorem setSlot_requests (s : Store) (i : Nat) (slot : Slot) :
    (s.setSlot i slot).heap.supply.requests = s.heap.supply.requests := rfl

@[simp] theorem setSlot_slots (s : Store) (i : Nat) (slot : Slot) :
    (s.setSlot i slot).heap.supply.slots = s.heap.supply.slots.set i slot := rfl

@[simp] theorem setSlot_setSlot (s : Store) (i : Nat) (slot slot' : Slot) :
    (s.setSlot i slot).setSlot i slot' = s.setSlot i slot' := by
  simp [setSlot, Heap.put, Supply.setSlot]

theorem find_setSlot {s : Store} {i : Nat} {slot : Slot} (slot' : Slot)
    (found : s.heap.find (.table i) = .ok slot) :
    (s.setSlot i slot').heap.find (.table i) = .ok slot' :=
  Heap.find_put_self slot' found

theorem setSlot_self {s : Store} {i : Nat} {slot : Slot}
    (found : s.heap.find (.table i) = .ok slot) : s.setSlot i slot = s := by
  have here := Heap.find_table_eq_ok_iff.1 found
  obtain ⟨hi, eq⟩ := List.getElem?_eq_some_iff.1 here
  have same : s.heap.supply.slots.set i slot = s.heap.supply.slots := by
    rw [← eq]
    exact List.set_getElem_self hi
  simp [setSlot, Heap.put, Supply.setSlot, same]

end Store

namespace Program

variable {s : Store} {i : Nat} {slot : Slot}

theorem Ends.claimAt {after : Slot} {span : Option Span} {min desired : Nat}
    (found : s.heap.find (.table i) = .ok slot)
    (claimed : slot.claim min desired = .ok (span, after)) :
    (Program.claim (.table i) min desired).Ends s (.ok span) (s.setSlot i after) :=
  Ends.claim found claimed

theorem Ends.addFillerAt {filler : Span} {region : Region}
    (found : s.heap.find (.table i) = .ok slot)
    (added : slot.region.addFiller filler = .ok region) :
    (Program.perform (.addFiller (.table i) filler)).Ends s (.ok ())
      (s.setSlot i { slot with region }) :=
  Ends.addFiller found added

theorem Ends.markAt (address : Nat) (found : s.heap.find (.table i) = .ok slot) :
    (Program.perform (.mark (.table i) address)).Ends s (.ok ())
      (s.setSlot i { slot with region := slot.region.mark address }) :=
  Ends.mark address found

theorem Ends.unmarkAt (found : s.heap.find (.table i) = .ok slot) :
    (Program.perform (.unmark (.table i))).Ends s (.ok ())
      (s.setSlot i { slot with region := slot.region.unmark }) :=
  Ends.unmark found

end Program

/-- The arena counts in the words of the geometry, and its fillers are not empty. -/
structure Arena.Suits (a : Arena) (g : Geometry) : Prop where
  word : a.settings.heapWordBytes = g.wordBytes
  least : 0 < a.settings.minFillWords

/-- The arena counts in the words of the region, which is one of whole words, and its
fillers are not empty. -/
structure Arena.Measures (a : Arena) (r : Region) : Prop where
  whole : r.WholeWords
  word : a.settings.heapWordBytes = r.wordBytes
  least : 0 < a.settings.minFillWords

/-- An arena that suits the geometry measures every region in its place. -/
theorem Arena.Suits.measures {a : Arena} {g : Geometry} {i : Nat} {r : Region}
    (suits : a.Suits g) (sound : g.Sound) (p : r.Placed g i) : a.Measures r where
  whole := p.whole sound
  word := suits.word.trans p.word.symm
  least := suits.least

namespace Arena

open Program

variable {a : Arena} {g : Geometry} {s : Store} {i : Nat} {slot : Slot}

/-- What is left can be recorded as a filler once it is taken. -/
theorem addFiller_rest (whole : slot.region.WholeWords) :
    (slot.region.took slot.region.left).addFiller
        { start := slot.region.top, words := slot.region.left } =
      .ok { slot.region.took slot.region.left with
        fillers := Region.insertFiller
          { start := slot.region.top, words := slot.region.left } slot.region.fillers } := by
  have bytes := whole.left_mul
  have below := whole.le_limit
  have above := whole.bottom_le
  have inside := whole.inside
  have product : Word.mul slot.region.left slot.region.wordBytes = .ok slot.region.room := by
    rw [Word.mul_eq_ok, bytes]
    rw [bytes, Region.room]
    omega
  have total : Word.add slot.region.top slot.region.room =
      .ok (slot.region.top + slot.region.room) := by
    apply Word.add_eq_ok
    rw [Region.room]
    omega
  have fits : (slot.region.took slot.region.left).bottom ≤ slot.region.top ∧
      slot.region.top + slot.region.room ≤ (slot.region.took slot.region.left).top := by
    simp [Region.took, above, bytes]
  have word : (slot.region.took slot.region.left).wordBytes = slot.region.wordBytes := rfl
  have limit : Span.limit { start := slot.region.top, words := slot.region.left }
      slot.region.wordBytes = .ok (slot.region.top + slot.region.room) := by
    simp only [Span.limit, Address.advance, product, Bind.bind, Except.bind, total]
  simp only [Region.addFiller, word, limit, Bind.bind, Except.bind, if_pos fits]
  rfl

namespace Measures

variable (h : a.Measures slot.region)
include h

theorem room_div : Word.div slot.region.room a.settings.heapWordBytes = .ok slot.region.left := by
  rw [h.word, Word.div_eq_ok (Nat.ne_of_gt h.whole.word), Region.left]

/-- The bytes that are left are what the arena reckons. -/
theorem left_mul : Word.mul slot.region.left a.settings.heapWordBytes =
    .ok slot.region.room := by
  have bytes := h.whole.left_mul
  have := h.whole.inside
  rw [h.word, Word.mul_eq_ok, bytes]
  rw [bytes, Region.room]
  omega

theorem outrun : a.Measures slot.outrun.region := by
  obtain ⟨n, -, taken⟩ := slot.outrun_region
  refine ⟨slot.outrun_whole h.whole, ?_, h.least⟩
  rw [h.word, taken]
  rfl

theorem settled (filling : Bool) :
    a.Measures (slot.settled a.settings.minFillWords filling).region := by
  refine ⟨Slot.settled_whole h.whole _ filling, ?_, h.least⟩
  rw [h.word, (Slot.settled_limit _ filling slot).2.2]

end Measures

variable (h : a.Measures slot.region) (found : s.heap.find (.table i) = .ok slot)
include h found

/-- Without a rival the fill turns all that is left into a filler. -/
theorem fill_ends_alone (noRivals : slot.rivals = []) (patience : Nat) :
    (a.fill (.table i) (patience + 1) slot.region.left).EndsAfter
      (slot.attempts a.settings.minFillWords true) s
      (.ok (slot.filler a.settings.minFillWords true))
      (s.setSlot i (slot.settled a.settings.minFillWords true)) := by
  rw [Slot.attempts_of_rivals_eq_nil noRivals, Slot.settled_true, Slot.filler,
    Slot.ceded_of_rivals_eq_nil noRivals]
  simp only [true_and, ← Nat.not_lt, ite_not]
  unfold fill
  by_cases few : slot.region.left < a.settings.minFillWords
  · rw [if_pos few, if_pos few, if_pos few, Region.plugged_of_lt few, Store.setSlot_self found]
    exact .of_quiet (Ends.pure 0 s) (.pure 0)
  · have pos := h.least
    have some : slot.region.takes slot.region.left slot.region.left = some slot.region.left :=
      Region.takes_self (by omega) (Nat.le_refl _)
    have claimed := Slot.claim_of_not_outruns h.whole.toInBounds
      (Slot.not_outruns_of_rivals_eq_nil noRivals slot.region.left slot.region.left)
      (Nat.le_refl slot.region.left)
    rw [some] at claimed
    rw [if_neg few, if_neg few, if_neg few, Region.plugged_of_le (Nat.not_lt.1 few)]
    have found₁ := Store.find_setSlot
      { slot with region := slot.region.took slot.region.left } found
    have added := Ends.addFillerAt found₁ (addFiller_rest h.whole)
    simp only [Store.setSlot_setSlot] at added
    have found₂ := Store.find_setSlot
      { slot with region := { slot.region.took slot.region.left with
          fillers := Region.insertFiller
            { start := slot.region.top, words := slot.region.left } slot.region.fillers } }
      found
    have marked := Ends.markAt slot.region.top found₂
    simp only [Store.setSlot_setSlot] at marked
    refine (EndsAfter.claim (Ends.claimAt found claimed)).bind
      (.of_quiet (added.bind (marked.bind (Ends.compute h.left_mul _))) ?_)
    exact .bind (.perform rfl) fun _ => .bind (.perform rfl) fun _ => .compute _

/-- The fill outlasts all rivals. The induction is on those that wait: each of them
takes one refusal of the patience. -/
theorem fill_ends {patience : Nat} (enough : slot.rivals.length < patience) :
    (a.fill (.table i) patience slot.region.left).EndsAfter
      (slot.attempts a.settings.minFillWords true) s
      (.ok (slot.filler a.settings.minFillWords true))
      (s.setSlot i (slot.settled a.settings.minFillWords true)) := by
  obtain ⟨n, rfl⟩ : ∃ n, patience = n + 1 := ⟨patience - 1, by omega⟩
  induction n generalizing s slot with
  | zero =>
      have noRivals : slot.rivals = [] := List.length_eq_zero_iff.1 (by omega)
      exact fill_ends_alone h found noRivals 0
  | succ n ih =>
      by_cases noRivals : slot.rivals = []
      · exact fill_ends_alone h found noRivals (n + 1)
      · by_cases few : slot.region.left < a.settings.minFillWords
        · have still := Slot.ceded_of_lt few
          have same : slot.settled a.settings.minFillWords true = slot := by
            rw [Slot.settled_true, still, Region.plugged_of_lt few]
          rw [same, Store.setSlot_self found, Slot.filler, still, Slot.attempts_of_lt few,
            if_neg fun h => absurd h.2 (Nat.not_le.2 few), fill, if_pos few]
          exact .of_quiet (Ends.pure 0 s) (.pure 0)
        · have le := Nat.not_lt.1 few
          have claimed := Slot.claim_of_outruns h.whole.toInBounds ⟨noRivals, rfl, rfl⟩
          have found₁ := Store.find_setSlot slot.outrun found
          have fewer : slot.outrun.rivals.length < n + 1 := by
            rcases slot with ⟨region, rivals⟩
            obtain ⟨rival, rest, rfl⟩ := List.exists_cons_of_ne_nil noRivals
            simp only [List.length_cons] at enough
            exact Nat.lt_of_succ_lt_succ enough
          have goesOn := ih h.outrun found₁ fewer
          rw [Store.setSlot_setSlot, Slot.settled_true, Slot.filler,
            Slot.ceded_outrun noRivals le] at goesOn
          unfold fill
          rw [if_neg few, Slot.attempts_outrun noRivals le]
          have free := h.outrun.whole.free_eq
          exact (EndsAfter.claim (Ends.claimAt found claimed)).bind
            (.after_quiet (Ends.freeBytes found₁ free) (quiet_freeBytes _)
              (.after_quiet (Ends.compute h.outrun.room_div _) (.compute _) goesOn))

/-- A fill wastes what the rivals leave. -/
theorem fillUp_ends : (a.fillUp (.table i)).EndsAfter
    (slot.attempts a.settings.minFillWords true) s
    (.ok (slot.waste a.settings.minFillWords true, slot.filler a.settings.minFillWords true))
    (s.setSlot i (slot.settled a.settings.minFillWords true)) := by
  have after := h.settled true
  have free := after.whole.free_eq
  have found₁ := Store.find_setSlot (slot.settled a.settings.minFillWords true) found
  have sealed : (slot.settled a.settings.minFillWords true).region.left <
      a.settings.minFillWords :=
    Region.left_plugged_lt _ h.least
  have parts := Slot.filler_add_room_settled h.whole a.settings.minFillWords true
  have total : Word.add (slot.filler a.settings.minFillWords true)
      (slot.settled a.settings.minFillWords true).region.room =
        .ok (slot.waste a.settings.minFillWords true) := by
    have whole := Slot.waste_add_live_of_whole h.whole a.settings.minFillWords true
    have := h.whole.inside
    rw [Word.add_eq_ok, parts]
    omega
  refine .after_quiet (Ends.look found) (.perform rfl)
    (.after_quiet (Ends.compute h.whole.free_eq s) (.compute _)
      (.after_quiet (Ends.compute h.room_div s) (.compute _) ?_))
  refine EndsAfter.bind (n := 0) (fill_ends h found (by omega)) ?_
  refine .of_quiet ((Ends.freeBytes found₁ free).bind ((Ends.compute after.room_div _).bind
    ((Ends.require sealed _ _).bind ((Ends.compute total _).bind (Ends.pure _ _))))) ?_
  exact .bind (quiet_freeBytes _) fun _ => .bind (.compute _) fun _ =>
    .bind (.require _ _) fun _ => .bind (.compute _) fun _ => .pure _

/-- With or without a fill, a settlement wastes what the rivals leave. -/
theorem settle_ends (filling : Bool) : (a.settle (.table i) filling).EndsAfter
    (slot.attempts a.settings.minFillWords filling) s
    (.ok (slot.waste a.settings.minFillWords filling,
      slot.filler a.settings.minFillWords filling))
    (s.setSlot i (slot.settled a.settings.minFillWords filling)) := by
  cases filling with
  | true => exact fillUp_ends h found
  | false =>
      have none : slot.attempts a.settings.minFillWords false = 0 := by
        simp [Slot.attempts, Slot.ceded]
      rw [Slot.settled_false, Store.setSlot_self found, none]
      exact .of_quiet ((Ends.freeBytes found h.whole.free_eq).bind (Ends.pure _ _))
        (.bind (quiet_freeBytes _) fun _ => .pure _)

omit h found

/-- What an application's arena has recorded when `live` bytes of region `i` go back. -/
def mutatorReturns (a : Arena) (i live : Nat) : List MutatorReturn :=
  match a.kind with
  | .plain | .mutator => [{ region := i, usedBytes := live }]
  | .collector _ => []

/-- What a collection's arena has recorded when `live` bytes of region `i` go back. -/
def collectorReturns (a : Arena) (i live before : Nat) : List CollectorReturn :=
  match a.kind with
  | .plain | .mutator => []
  | .collector purpose => [{ region := i, allocatedBytes := live - before, purpose }]

/-- The bytes noted for the next region, if the arena takes such notes. -/
def noting (a : Arena) (bytes before : Nat) : Nat :=
  match a.kind with
  | .plain | .mutator => before
  | .collector _ => bytes

/-- The store after `live` bytes of region `i` were handed back. -/
def handedBack (a : Arena) (i live : Nat) (s : Store) : Store :=
  { s with
    registers.baseline := a.noting 0 s.registers.baseline
    heap.supply.mutatorReturns := s.heap.supply.mutatorReturns ++ a.mutatorReturns i live
    heap.supply.collectorReturns :=
      s.heap.supply.collectorReturns ++ a.collectorReturns i live s.registers.baseline }

/-- The store after region `i` was given up. -/
def gaveUp (a : Arena) (i : Nat) (filling : Bool) (slot : Slot) (s : Store) : Store :=
  a.handedBack i (slot.live a.settings.minFillWords filling)
    (s.setSlot i (slot.settled a.settings.minFillWords filling))

theorem handBack_ends {live : Nat}
    (agree : ∀ purpose, a.kind = .collector purpose → s.registers.baseline ≤ live) :
    (a.handBack i live).Ends s (.ok ()) (a.handedBack i live s) := by
  unfold handBack handedBack noting mutatorReturns collectorReturns
  cases hk : a.kind with
  | plain =>
      simp only [List.append_nil]
      exact Ends.perform fun _ => rfl
  | mutator =>
      simp only [List.append_nil]
      exact Ends.perform fun _ => rfl
  | collector purpose =>
      simp only [List.append_nil]
      have loaded : (Program.perform .loadBaseline).Ends s (.ok s.registers.baseline) s :=
        Ends.perform fun _ => rfl
      refine loaded.bind ((Ends.require (agree purpose hk) _ s).bind ?_)
      have taken : (Program.perform
          (.takeBackFrom purpose i (live - s.registers.baseline))).Ends s (.ok ()) { s with
            heap.supply :=
              s.heap.supply.takeBackFrom purpose i (live - s.registers.baseline) } :=
        Ends.perform fun _ => rfl
      exact taken.bind (Ends.perform fun _ => rfl)

theorem quiet_handBack (region used : Nat) : (a.handBack region used).Quiet := by
  unfold handBack
  cases a.kind with
  | plain | mutator => exact .perform rfl
  | collector purpose =>
      refine .bind (.perform rfl) fun before => .bind (.require _ _) fun _ => ?_
      exact .bind (.perform rfl) fun _ => .perform rfl

/-- A region that is not empty is given up without a fault, if a collection has not
seen it fuller than it is. -/
theorem giveUp_endsAfter (h : a.Measures slot.region)
    (found : s.heap.find (.table i) = .ok slot) (full : slot.region.load ≠ 0)
    (agree : ∀ purpose, a.kind = .collector purpose → s.registers.baseline ≤ slot.region.load)
    (filling : Bool) :
    (a.giveUp (.table i) filling).EndsAfter (slot.attempts a.settings.minFillWords filling) s
      (.ok (slot.waste a.settings.minFillWords filling))
      (a.handedBack slot.region.index (slot.live a.settings.minFillWords filling)
        (s.setSlot i (slot.settled a.settings.minFillWords filling))) := by
  have used := (h.settled filling).whole.used_eq
  have found₁ := Store.find_setSlot (slot.settled a.settings.minFillWords filling) found
  have parts := Slot.load_settled h.whole a.settings.minFillWords filling
  have more := Slot.load_le_live a.settings.minFillWords filling slot
  have live : Word.sub (slot.settled a.settings.minFillWords filling).region.load
      (slot.filler a.settings.minFillWords filling) =
        .ok (slot.live a.settings.minFillWords filling) := by
    rw [Word.sub_eq_ok (by omega), parts, Nat.add_sub_cancel]
  have notEmpty : slot.region.isEmpty = .ok false := by
    simp [h.whole.isEmpty_eq, full]
  refine .after_quiet (Ends.look found) (.perform rfl)
    (.after_quiet (Ends.compute notEmpty s) (.compute _)
      (.after_quiet (Ends.require rfl _ s) (.require _ _) ?_))
  refine EndsAfter.bind (n := 0) (settle_ends h found filling) ?_
  have returned := handBack_ends (a := a) (i := slot.region.index)
    (s := s.setSlot i (slot.settled a.settings.minFillWords filling))
    fun purpose hk => Nat.le_trans (agree purpose hk) more
  refine .of_quiet ((Ends.usedBytes found₁ used).bind ((Ends.compute live _).bind
    (returned.bind (Ends.pure _ _)))) ?_
  exact .bind (quiet_usedBytes _) fun _ => .bind (.compute _) fun _ =>
    .bind (quiet_handBack _ _) fun _ => .pure _

theorem giveUp_ends (suits : a.Suits g) (sound : g.Sound) (p : slot.region.Placed g i)
    (found : s.heap.find (.table i) = .ok slot) (full : slot.region.load ≠ 0)
    (agree : ∀ purpose, a.kind = .collector purpose → s.registers.baseline ≤ slot.region.load)
    (filling : Bool) :
    (a.giveUp (.table i) filling).Ends s
      (.ok (slot.waste a.settings.minFillWords filling)) (a.gaveUp i filling slot s) := by
  have ends := (giveUp_endsAfter (suits.measures sound p) found full agree filling).ends
  rwa [p.index] at ends

end Arena

end RegionHeap
