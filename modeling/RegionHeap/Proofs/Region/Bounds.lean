import RegionHeap.Proofs.Heap.Fresh

/-!
# The cursor between the ends

The cursor of a region stands between its two ends, which are machine words, and words have
a size. So it is when a region is built, and no claim takes it away. Of such a region a
claim is never a fault: it is answered by what the region has to offer at its cursor.
-/

namespace RegionHeap

namespace Region

/-- The cursor is between the ends, and the ends are machine words. -/
structure InBounds (r : Region) : Prop where
  word : 0 < r.wordBytes
  bottom_le : r.bottom ≤ r.top
  le_limit : r.top ≤ r.limit
  inside : r.limit < Word.bound

/-- What is found at the cursor: nothing if no word is desired or fewer than `max min 1`
are left, otherwise as many words as are left, up to `desired`. -/
def offer (r : Region) (min desired : Nat) : Option Span :=
  if desired = 0 ∨ r.left < max min 1 then none
  else some { start := r.top, words := Nat.min r.left desired }

theorem offer_eq_takes (r : Region) {min desired : Nat} (le : min ≤ desired) :
    r.offer min desired =
      (r.takes min desired).map fun words => { start := r.top, words } := by
  have same : (desired = 0 ∨ r.left < max min 1) ↔
      (Nat.min r.left desired = 0 ∨ Nat.min r.left desired < min) := by
    have found : Nat.min r.left desired = if r.left ≤ desired then r.left else desired :=
      Nat.min_def
    rw [found]
    split <;> omega
  unfold offer takes
  by_cases refused : Nat.min r.left desired = 0 ∨ Nat.min r.left desired < min
  · rw [if_pos (same.2 refused), if_pos refused]
    rfl
  · rw [if_neg (fun h => refused (same.1 h)), if_neg refused]
    rfl

namespace InBounds

variable {r r' : Region} {min desired words : Nat} {result : Option Span}

theorem of_new {index bottom wordBytes : Nat} (h : Region.new index bottom words wordBytes = .ok r)
    (word : 0 < wordBytes) : r.InBounds := by
  obtain ⟨inside, rfl⟩ := Region.new_eq_ok h
  exact ⟨word, Nat.le_refl _, Nat.le_add_right _ _, inside⟩

/-- The words that are left fit between the cursor and the limit. -/
theorem left_mul_le (h : r.InBounds) : r.top + r.left * r.wordBytes ≤ r.limit := by
  have whole : r.left * r.wordBytes ≤ r.room := Nat.div_mul_le_self _ _
  have := h.le_limit
  unfold room at whole
  omega

theorem took (h : r.InBounds) (fits : words ≤ r.left) : (r.took words).InBounds := by
  have enough := Nat.mul_le_mul_right r.wordBytes fits
  have whole := h.left_mul_le
  have below := h.bottom_le
  constructor
  · exact h.word
  · simp only [Region.took]
    omega
  · simp only [Region.took]
    omega
  · exact h.inside

/-- A claim is answered, by what the region offers. -/
theorem claim_eq (h : r.InBounds) (le : min ≤ desired) :
    r.claim min desired = .ok (r.offer min desired, r.took ((r.takes min desired).getD 0)) := by
  have word : r.wordBytes ≠ 0 := Nat.ne_of_gt h.word
  rw [Region.claim_eq h.le_limit h.inside word le, offer_eq_takes r le]
  cases r.takes min desired with
  | none => simp
  | some words => rfl

/-- A claim is refused and leaves the region as it is, or takes words from the cursor on. -/
theorem claimed (h : r.InBounds) (claimed : r.claim min desired = .ok (result, r')) :
    result = r.offer min desired ∧
      ((result = none ∧ r' = r) ∨ ∃ words, 0 < words ∧ words ≤ r.left ∧ min ≤ words ∧
        words ≤ desired ∧ result = some { start := r.top, words } ∧ r' = r.took words) := by
  have le : min ≤ desired := by
    by_contra lt
    rw [claim_of_lt (Nat.lt_of_not_le lt)] at claimed
    cases claimed
  rw [h.claim_eq le] at claimed
  obtain ⟨rfl, rfl⟩ : r.offer min desired = result ∧
      r.took ((r.takes min desired).getD 0) = r' := by simpa using claimed
  refine ⟨rfl, ?_⟩
  rw [offer_eq_takes r le]
  cases taken : r.takes min desired with
  | none => exact .inl ⟨rfl, r.took_zero⟩
  | some words =>
      obtain ⟨pos, fits, least, most⟩ := takes_le taken
      exact .inr ⟨words, pos, fits, least, most, rfl, rfl⟩

theorem claim (h : r.InBounds) (claimed : r.claim min desired = .ok (result, r')) :
    r'.InBounds := by
  obtain ⟨-, ⟨-, rfl⟩ | ⟨words, -, fits, -, -, -, rfl⟩⟩ := h.claimed claimed
  · exact h
  · exact h.took fits

end InBounds

end Region

end RegionHeap
