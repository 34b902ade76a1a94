import RegionHeap.Proofs.Region.Bounds

/-!
# Regions of whole words

The ends of a region are whole words apart, and its cursor stands on a word between them.
Then what is used and what is left are whole words, nothing asked of the region is a fault,
and whoever claims all that is left leaves nothing.
-/

namespace RegionHeap

namespace Region

variable {r : Region} {words : Nat}

namespace InBounds

theorem used_eq (h : r.InBounds) : r.used = .ok r.load :=
  if_pos h.bottom_le

theorem free_eq (h : r.InBounds) : r.free = .ok r.room :=
  if_pos h.le_limit

theorem capacity_eq (h : r.InBounds) : r.capacity = .ok (r.limit - r.bottom) :=
  if_pos (Nat.le_trans h.bottom_le h.le_limit)

theorem isEmpty_eq (h : r.InBounds) : r.isEmpty = .ok (r.load == 0) := by
  rw [isEmpty, h.used_eq]
  rfl

theorem freeInWords_eq (h : r.InBounds) : r.freeInWords = .ok r.left := by
  simp only [freeInWords, h.free_eq, bind, Except.bind]
  exact Word.div_eq_ok (Nat.ne_of_gt h.word)

theorem load_add_room (h : r.InBounds) : r.load + r.room = r.limit - r.bottom := by
  have := h.bottom_le
  have := h.le_limit
  unfold load room
  omega

end InBounds

/-- The cursor and the limit are whole words above the bottom. -/
structure WholeWords (r : Region) : Prop extends InBounds r where
  aligned : r.wordBytes ∣ r.top - r.bottom
  whole : r.wordBytes ∣ r.limit - r.bottom

/-- A region in its place is one of whole words. -/
theorem Placed.whole {g : Geometry} {i : Nat} (p : r.Placed g i) (sound : g.Sound) :
    r.WholeWords where
  word := Nat.pos_of_ne_zero (p.word_ne sound)
  bottom_le := p.bottom_le
  le_limit := p.le_limit
  inside := p.inside
  aligned := p.word ▸ p.aligned
  whole := by
    rw [p.limit, Nat.add_sub_cancel_left, p.word]
    exact Nat.dvd_mul_left _ _

namespace WholeWords

theorem of_new {index bottom wordBytes : Nat}
    (built : Region.new index bottom words wordBytes = .ok r) (word : 0 < wordBytes) :
    r.WholeWords := by
  have inBounds := InBounds.of_new built word
  obtain ⟨-, rfl⟩ := Region.new_eq_ok built
  refine ⟨inBounds, ?_, ?_⟩
  · simp
  · change wordBytes ∣ bottom + words * wordBytes - bottom
    rw [Nat.add_sub_cancel_left]
    exact Nat.dvd_mul_left _ _

/-- What is left is a whole number of words. -/
theorem left_mul (h : r.WholeWords) : r.left * r.wordBytes = r.room := by
  have total : r.wordBytes ∣ r.load + r.room := by
    rw [h.load_add_room]
    exact h.whole
  exact Nat.div_mul_cancel ((Nat.dvd_add_right h.aligned).1 total)

/-- Words that are left can be taken. -/
theorem took (h : r.WholeWords) (fits : words ≤ r.left) : (r.took words).WholeWords := by
  refine ⟨h.toInBounds.took fits, ?_, h.whole⟩
  have above := h.bottom_le
  have moved : (r.took words).top - r.bottom = r.top - r.bottom + words * r.wordBytes := by
    simp only [Region.took]
    omega
  change r.wordBytes ∣ (r.took words).top - r.bottom
  rw [moved]
  exact Nat.dvd_add h.aligned (Nat.dvd_mul_left _ _)

/-- What becomes of the marker and the fillers does not matter. -/
theorem congr {r' : Region} (h : r.WholeWords) (word : r'.wordBytes = r.wordBytes)
    (bottom : r'.bottom = r.bottom) (top : r'.top = r.top) (limit : r'.limit = r.limit) :
    r'.WholeWords := by
  constructor
  · constructor
    · rw [word]
      exact h.word
    · rw [bottom, top]
      exact h.bottom_le
    · rw [top, limit]
      exact h.le_limit
    · rw [limit]
      exact h.inside
  · rw [word, top, bottom]
    exact h.aligned
  · rw [word, limit, bottom]
    exact h.whole

theorem reset (h : r.WholeWords) : r.reset.WholeWords where
  word := h.word
  bottom_le := Nat.le_refl _
  le_limit := Nat.le_trans h.bottom_le h.le_limit
  inside := h.inside
  aligned := by simp [Region.reset]
  whole := h.whole

/-- All that is left reaches up to the limit. -/
theorem top_took_left (h : r.WholeWords) : (r.took r.left).top = r.limit := by
  have whole := h.left_mul
  have below := h.le_limit
  simp only [Region.took, whole, Region.room]
  omega

end WholeWords

end Region

end RegionHeap
