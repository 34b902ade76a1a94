import RegionHeap.Proofs.Region.WholeWords
import RegionHeap.Supply

/-!
# What becomes of a region that is given up

The rivals of a fill come first to its claims, one after the other, until too
little is left for a filler. What they leave is plugged by one filler, if it is
enough for one. The bytes wasted and the bytes handed back always make up the
whole region.
-/

namespace RegionHeap

namespace Region

variable {g : Geometry} {i : Nat} {r : Region}

@[simp] theorem took_took (r : Region) (m n : Nat) : (r.took m).took n = r.took (m + n) := by
  simp [took, Nat.add_mul, Nat.add_assoc]

/-- The region after a rival has claimed `words` words of it. -/
def afterRival (r : Region) (words : Nat) : Region :=
  match r.takes words words with
  | none => r
  | some words => r.took words

/-- A rival takes words that are left, or none. -/
theorem afterRival_eq_took (r : Region) (words : Nat) :
    ∃ n, n ≤ r.left ∧ r.afterRival words = r.took n := by
  unfold afterRival
  cases h : r.takes words words with
  | none => exact ⟨0, Nat.zero_le _, r.took_zero.symm⟩
  | some n => exact ⟨n, (takes_le h).2.1, rfl⟩

/-- Rivals that come one after the other only move the cursor, and only over what is left. -/
theorem foldl_afterRival (r : Region) (rivals : List Nat) :
    ∃ n, n ≤ r.left ∧ rivals.foldl afterRival r = r.took n := by
  induction rivals generalizing r with
  | nil => exact ⟨0, Nat.zero_le _, r.took_zero.symm⟩
  | cons rival rest ih =>
      obtain ⟨m, hm, taken⟩ := r.afterRival_eq_took rival
      obtain ⟨n, hn, rests⟩ := ih (r.took m)
      have fewer := left_took hm
      refine ⟨m + n, by omega, ?_⟩
      rw [List.foldl_cons, taken, rests, took_took]

/-- The region with what is left of it turned into a filler, unless it is less than
the shortest filler. -/
def plugged (least : Nat) (r : Region) : Region :=
  if r.left < least then r
  else
    { r.took r.left with
      marker := (r.mark r.top).marker
      fillers := insertFiller { start := r.top, words := r.left } r.fillers }

theorem plugged_of_lt {least : Nat} (h : r.left < least) : r.plugged least = r :=
  if_pos h

theorem plugged_of_le {least : Nat} (h : least ≤ r.left) :
    r.plugged least =
      { r.took r.left with
        marker := (r.mark r.top).marker
        fillers := insertFiller { start := r.top, words := r.left } r.fillers } :=
  if_neg (Nat.not_lt.2 h)

theorem Placed.plugged (p : r.Placed g i) (least : Nat) : (r.plugged least).Placed g i := by
  by_cases h : r.left < least
  · rw [plugged_of_lt h]
    exact p
  · rw [plugged_of_le (Nat.not_lt.1 h)]
    have q := p.took (Nat.le_refl r.left)
    exact ⟨q.index, q.word, q.bottom, q.limit, q.inside, q.bottom_le, q.le_limit, q.aligned⟩

theorem WholeWords.plugged (h : r.WholeWords) (least : Nat) : (r.plugged least).WholeWords := by
  by_cases few : r.left < least
  · rw [plugged_of_lt few]
    exact h
  · rw [plugged_of_le (Nat.not_lt.1 few)]
    exact (h.took (Nat.le_refl r.left)).congr rfl rfl rfl rfl

/-- After a plug too little is left for another. -/
theorem left_plugged_lt (r : Region) {least : Nat} (pos : 0 < least) :
    (r.plugged least).left < least := by
  by_cases h : r.left < least
  · rw [plugged_of_lt h]
    exact h
  · have none : (r.took r.left).left = 0 := by
      have := left_took (Nat.le_refl r.left)
      omega
    rw [plugged_of_le (Nat.not_lt.1 h)]
    exact none ▸ pos

/-- A region that was worked on from the cursor has no less in use. -/
theorem load_le_took (r : Region) (words : Nat) : r.load ≤ (r.took words).load := by
  simp only [load, took]
  omega

end Region

namespace Slot

variable {g : Geometry} {i : Nat} {slot : Slot}

/-- What the rivals leave of a region to a fill. -/
def yieldTo (least : Nat) (r : Region) : List Nat → Slot
  | [] => { region := r }
  | rival :: rest =>
      if r.left < least then { region := r, rivals := rival :: rest }
      else yieldTo least (r.afterRival rival) rest

/-- What is left of a slot when its region is about to be handed back, apart from
the filler. -/
def ceded (least : Nat) (filling : Bool) (slot : Slot) : Slot :=
  if filling then yieldTo least slot.region slot.rivals else slot

/-- The slot of a region that was handed back. -/
def settled (least : Nat) (filling : Bool) (slot : Slot) : Slot :=
  if filling then
    { slot.ceded least true with region := (slot.ceded least true).region.plugged least }
  else slot

/-- The bytes that are wasted by giving a region up. -/
def waste (least : Nat) (filling : Bool) (slot : Slot) : Nat :=
  (slot.ceded least filling).region.room

/-- The bytes that are in use when a region is handed back. -/
def live (least : Nat) (filling : Bool) (slot : Slot) : Nat :=
  (slot.ceded least filling).region.load

/-- The bytes of the filler that is written when a region is given up. -/
def filler (least : Nat) (filling : Bool) (slot : Slot) : Nat :=
  if filling = true ∧ least ≤ (slot.ceded least true).region.left then
    (slot.ceded least true).region.room
  else 0

/-- A fill yields to the first rivals, one after the other, and either to all of them or
until too little is left for a filler. -/
theorem yieldTo_eq (least : Nat) (r : Region) (rivals : List Nat) :
    ∃ met, met ≤ rivals.length ∧
      yieldTo least r rivals =
        { region := (rivals.take met).foldl Region.afterRival r, rivals := rivals.drop met } ∧
      (met = rivals.length ∨ (yieldTo least r rivals).region.left < least) := by
  induction rivals generalizing r with
  | nil => exact ⟨0, Nat.le_refl _, rfl, .inl rfl⟩
  | cons rival rest ih =>
      by_cases few : r.left < least
      · refine ⟨0, Nat.zero_le _, if_pos few, .inr ?_⟩
        rw [yieldTo, if_pos few]
        exact few
      · obtain ⟨met, le, yielded, done⟩ := ih (r.afterRival rival)
        refine ⟨met + 1, Nat.succ_le_succ le, ?_⟩
        rw [yieldTo, if_neg few]
        exact ⟨yielded, done.imp_left (congrArg (· + 1))⟩

theorem yieldTo_region (least : Nat) (r : Region) (rivals : List Nat) :
    ∃ n, n ≤ r.left ∧ (yieldTo least r rivals).region = r.took n := by
  obtain ⟨met, -, yielded, -⟩ := yieldTo_eq least r rivals
  rw [yielded]
  exact r.foldl_afterRival (rivals.take met)

theorem yieldTo_rivals (least : Nat) (r : Region) (rivals : List Nat) :
    (yieldTo least r rivals).rivals <:+ rivals := by
  obtain ⟨met, -, yielded, -⟩ := yieldTo_eq least r rivals
  rw [yielded]
  exact List.drop_suffix met rivals

theorem ceded_region (least : Nat) (filling : Bool) (slot : Slot) :
    ∃ n, n ≤ slot.region.left ∧ (slot.ceded least filling).region = slot.region.took n := by
  cases filling with
  | false => exact ⟨0, Nat.zero_le _, slot.region.took_zero.symm⟩
  | true => exact yieldTo_region least slot.region slot.rivals

theorem ceded_rivals (least : Nat) (filling : Bool) (slot : Slot) :
    (slot.ceded least filling).rivals <:+ slot.rivals := by
  cases filling with
  | false => exact List.suffix_refl _
  | true => exact yieldTo_rivals least slot.region slot.rivals

theorem ceded_placed (p : slot.region.Placed g i) (least : Nat) (filling : Bool) :
    (slot.ceded least filling).region.Placed g i := by
  obtain ⟨n, hn, taken⟩ := slot.ceded_region least filling
  exact taken ▸ p.took hn

theorem ceded_whole (h : slot.region.WholeWords) (least : Nat) (filling : Bool) :
    (slot.ceded least filling).region.WholeWords := by
  obtain ⟨n, hn, taken⟩ := slot.ceded_region least filling
  exact taken ▸ h.took hn

/-- Where nobody competes, nothing happens before the filler. -/
theorem ceded_of_rivals_eq_nil (h : slot.rivals = []) (least : Nat) (filling : Bool) :
    slot.ceded least filling = slot := by
  rcases slot with ⟨region, rivals⟩
  subst h
  cases filling <;> rfl

theorem settled_true (least : Nat) (slot : Slot) :
    slot.settled least true =
      { slot.ceded least true with region := (slot.ceded least true).region.plugged least } :=
  rfl

theorem settled_false (least : Nat) (slot : Slot) : slot.settled least false = slot := rfl

theorem settled_rivals (least : Nat) (filling : Bool) (slot : Slot) :
    (slot.settled least filling).rivals <:+ slot.rivals := by
  cases filling with
  | false => exact List.suffix_refl _
  | true => exact ceded_rivals least true slot

theorem settled_placed (p : slot.region.Placed g i) (least : Nat) (filling : Bool) :
    (slot.settled least filling).region.Placed g i := by
  cases filling with
  | false => exact p
  | true => exact (ceded_placed p least true).plugged least

theorem settled_whole (h : slot.region.WholeWords) (least : Nat) (filling : Bool) :
    (slot.settled least filling).region.WholeWords := by
  cases filling with
  | false => exact h
  | true => exact (ceded_whole h least true).plugged least

/-- What a region ends with is not changed by a settlement. -/
theorem settled_limit (least : Nat) (filling : Bool) (slot : Slot) :
    (slot.settled least filling).region.limit = slot.region.limit ∧
      (slot.settled least filling).region.bottom = slot.region.bottom ∧
      (slot.settled least filling).region.wordBytes = slot.region.wordBytes := by
  cases filling with
  | false => exact ⟨rfl, rfl, rfl⟩
  | true =>
      obtain ⟨n, -, taken⟩ := slot.ceded_region least true
      rw [settled_true, taken]
      unfold Region.plugged
      split
      · exact ⟨rfl, rfl, rfl⟩
      · exact ⟨rfl, rfl, rfl⟩

/-- Nothing that is in use is lost, neither to rivals nor to the filler. -/
theorem load_le_live (least : Nat) (filling : Bool) (slot : Slot) :
    slot.region.load ≤ slot.live least filling := by
  obtain ⟨n, -, taken⟩ := slot.ceded_region least filling
  rw [live, taken]
  exact Region.load_le_took _ n

section
variable (h : slot.region.WholeWords) (least : Nat) (filling : Bool)
include h

/-- What is in use after the settlement is what is handed back and the filler. -/
theorem load_settled : (slot.settled least filling).region.load =
    slot.live least filling + slot.filler least filling := by
  cases filling with
  | false => simp [settled, live, ceded, filler]
  | true =>
      have q := ceded_whole h least true
      by_cases few : (slot.ceded least true).region.left < least
      · simp [settled, live, filler, Region.plugged_of_lt few, Nat.not_le.2 few]
      · have all : ((slot.ceded least true).region.plugged least).load =
            (slot.ceded least true).region.load + (slot.ceded least true).region.room := by
          rw [Region.plugged_of_le (Nat.not_lt.1 few), q.load_add_room, Region.load]
          exact congrArg (· - _) q.top_took_left
        simp [settled, live, filler, Nat.not_lt.1 few, all]

/-- A settlement takes back nothing. -/
theorem load_le_settled : slot.region.load ≤ (slot.settled least filling).region.load := by
  rw [load_settled h least filling]
  exact Nat.le_trans (load_le_live least filling slot) (Nat.le_add_right _ _)

/-- What is wasted and what is handed back make up the whole region. -/
theorem waste_add_live_of_whole : slot.waste least filling + slot.live least filling =
    slot.region.limit - slot.region.bottom := by
  rw [waste, live, Nat.add_comm, (ceded_whole h least filling).load_add_room]
  obtain ⟨n, -, taken⟩ := slot.ceded_region least filling
  rw [taken]
  rfl

/-- What the filler does not cover of the waste is left over. -/
theorem filler_add_room_settled : slot.filler least filling +
    (slot.settled least filling).region.room = slot.waste least filling := by
  have whole := (settled_whole h least filling).load_add_room
  obtain ⟨limit, bottom, -⟩ := slot.settled_limit least filling
  rw [limit, bottom] at whole
  have parts := load_settled h least filling
  have total := waste_add_live_of_whole h least filling
  omega

end

/-- What is wasted and what is handed back make up the whole of a region in its place. -/
theorem waste_add_live (p : slot.region.Placed g i) (sound : g.Sound) (least : Nat)
    (filling : Bool) : slot.waste least filling + slot.live least filling = g.bytes := by
  rw [waste_add_live_of_whole (p.whole sound), p.limit, Nat.add_sub_cancel_left]

theorem live_of_rivals_eq_nil (h : slot.rivals = []) (least : Nat) (filling : Bool) :
    slot.live least filling = slot.region.load := by
  rw [live, ceded_of_rivals_eq_nil h]

theorem waste_of_rivals_eq_nil (h : slot.rivals = []) (least : Nat) (filling : Bool) :
    slot.waste least filling = slot.region.room := by
  rw [waste, ceded_of_rivals_eq_nil h]

end Slot

end RegionHeap
