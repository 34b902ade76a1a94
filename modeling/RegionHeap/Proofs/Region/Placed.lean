import RegionHeap.Geometry
import RegionHeap.Region.Claim

/-!
# Regions in their place

A region of a table lies where the geometry puts it, and its cursor stands on a
word between the two ends. Then no distance in it is a fault, what is used and
what is left make up the whole, and a claim takes whole words from the cursor on.
-/

namespace RegionHeap

/-- Words have a size, regions are not empty, and none starts at address zero. -/
structure Geometry.Sound (g : Geometry) : Prop where
  word : 0 < g.wordBytes
  words : 0 < g.regionWords
  base : 0 < g.heapBase

/-- The bytes of one region. -/
def Geometry.bytes (g : Geometry) : Nat := g.regionWords * g.wordBytes

theorem Geometry.sound_of_validate {g : Geometry} (h : g.validate = .ok ()) : g.Sound := by
  obtain ⟨⟨k, hk⟩, hw, hb, -⟩ := Geometry.validate_eq_ok_iff.1 h
  exact ⟨hk ▸ Nat.two_pow_pos k, hw, hb⟩

namespace Region

/-- The bytes handed out. -/
def load (r : Region) : Nat := r.top - r.bottom

/-- The bytes not handed out. -/
def room (r : Region) : Nat := r.limit - r.top

/-- The whole words not handed out. -/
def left (r : Region) : Nat := r.room / r.wordBytes

/-- The region with its cursor `words` words further on. -/
def took (r : Region) (words : Nat) : Region :=
  { r with top := r.top + words * r.wordBytes }

/-- How many words a claim takes, if it is not refused. -/
def takes (r : Region) (min desired : Nat) : Option Nat :=
  if Nat.min r.left desired = 0 ∨ Nat.min r.left desired < min then none
  else some (Nat.min r.left desired)

/-- What is answered as used is what is handed out. -/
theorem load_of_used_eq_ok {r : Region} {bytes : Nat} (used : r.used = .ok bytes) :
    r.load = bytes := by
  unfold Region.used Address.distanceFrom at used
  split at used
  · exact Except.ok.inj used
  · cases used

@[simp] theorem took_zero (r : Region) : r.took 0 = r := by
  simp [took]

/-- What is taken is not left. -/
theorem left_took {r : Region} {words : Nat} (fits : words ≤ r.left) :
    (r.took words).left + words = r.left := by
  have moved : (r.took words).room = r.room - r.wordBytes * words := by
    simp only [room, Region.took, Nat.mul_comm r.wordBytes]
    omega
  calc (r.took words).left + words
      = (r.room - r.wordBytes * words) / r.wordBytes + words := by rw [left, moved]; rfl
    _ = r.room / r.wordBytes - words + words := by rw [Nat.sub_mul_div]
    _ = r.left := Nat.sub_add_cancel fits

theorem takes_eq_some_iff {r : Region} {min desired words : Nat} :
    r.takes min desired = some words ↔
      words = Nat.min r.left desired ∧ 0 < words ∧ min ≤ words := by
  unfold takes
  split
  · rename_i h
    constructor
    · intro h'
      cases h'
    · rintro ⟨rfl, hpos, hmin⟩
      omega
  · rename_i h
    constructor
    · intro h'
      cases h'
      omega
    · rintro ⟨rfl, -, -⟩
      rfl

theorem takes_eq_none_iff {r : Region} {min desired : Nat} :
    r.takes min desired = none ↔ Nat.min r.left desired = 0 ∨ Nat.min r.left desired < min := by
  unfold takes
  split <;> simp_all

theorem takes_le {r : Region} {min desired words : Nat}
    (h : r.takes min desired = some words) :
    0 < words ∧ words ≤ r.left ∧ min ≤ words ∧ words ≤ desired := by
  obtain ⟨rfl, hpos, hmin⟩ := takes_eq_some_iff.1 h
  exact ⟨hpos, Nat.min_le_left _ _, hmin, Nat.min_le_right _ _⟩

/-- A claim for an exact number of words takes them if they are there. -/
theorem takes_self {r : Region} {words : Nat} (pos : 0 < words) (fits : words ≤ r.left) :
    r.takes words words = some words :=
  takes_eq_some_iff.2 ⟨(Nat.min_eq_right fits).symm, pos, Nat.le_refl _⟩

theorem takes_self_eq_none {r : Region} {words : Nat} (h : words = 0 ∨ r.left < words) :
    r.takes words words = none := by
  refine takes_eq_none_iff.2 ?_
  rcases h with rfl | h
  · exact Or.inl (Nat.min_eq_right (Nat.zero_le _))
  · exact Or.inr (Nat.lt_of_le_of_lt (Nat.min_le_left _ _) h)

/-- A claim hands out what it takes and moves the cursor behind it. -/
theorem claim_eq {r : Region} (below : r.top ≤ r.limit) (inside : r.limit < Word.bound)
    (word : r.wordBytes ≠ 0) {min desired : Nat} (le : min ≤ desired) :
    r.claim min desired = .ok (match r.takes min desired with
      | none => (none, r)
      | some words => (some { start := r.top, words }, r.took words)) := by
  rw [claim, if_neg (by omega), propose_eq_ok below inside word]
  have found : r.wordsFrom r.top desired = Nat.min r.left desired := rfl
  simp only [bind, Except.bind, takes, found]
  by_cases refused : Nat.min r.left desired = 0 ∨ Nat.min r.left desired < min
  · rw [if_pos refused, if_pos refused]
    rfl
  · rw [if_neg refused, if_neg refused]
    rfl

/-- A claim for more than is desired is a fault. -/
theorem claim_of_lt {r : Region} {min desired : Nat} (lt : desired < min) :
    r.claim min desired = .error (.minExceedsDesired min desired) :=
  if_pos lt

/-- A region without room refuses every claim. -/
theorem claim_of_full {r : Region} (full : r.limit = r.top) (word : r.wordBytes ≠ 0)
    {min desired : Nat} (le : min ≤ desired) : r.claim min desired = .ok (none, r) := by
  rw [claim, if_neg (by omega)]
  simp [propose, full, Word.sub_eq_ok (Nat.le_refl r.top), Word.div_eq_ok word, bind, Except.bind,
    pure, Except.pure]

/-- The region at position `i` of a table. -/
structure Placed (g : Geometry) (i : Nat) (r : Region) : Prop where
  index : r.index = i
  word : r.wordBytes = g.wordBytes
  bottom : r.bottom = g.heapBase + i * g.bytes
  limit : r.limit = r.bottom + g.bytes
  inside : r.limit < Word.bound
  bottom_le : r.bottom ≤ r.top
  le_limit : r.top ≤ r.limit
  aligned : g.wordBytes ∣ r.top - r.bottom

namespace Placed

variable {g : Geometry} {i : Nat} {r : Region}

theorem used_eq (p : r.Placed g i) : r.used = .ok r.load :=
  if_pos p.bottom_le

theorem free_eq (p : r.Placed g i) : r.free = .ok r.room :=
  if_pos p.le_limit

theorem isEmpty_eq (p : r.Placed g i) : r.isEmpty = .ok (r.load == 0) := by
  rw [isEmpty, p.used_eq]
  rfl

theorem load_add_room (p : r.Placed g i) : r.load + r.room = g.bytes := by
  have := p.limit
  have := p.bottom_le
  have := p.le_limit
  unfold load room
  omega

/-- What is left is a whole number of words. -/
theorem left_mul (p : r.Placed g i) : r.left * g.wordBytes = r.room := by
  have whole : g.wordBytes ∣ r.load + r.room :=
    p.load_add_room ▸ Nat.dvd_mul_left _ _
  have rest : g.wordBytes ∣ r.room := (Nat.dvd_add_right p.aligned).1 whole
  rw [left, p.word, Nat.div_mul_cancel rest]

variable (sound : g.Sound)
include sound

/-- All words of an empty region are left. -/
theorem left_of_empty (p : r.Placed g i) (empty : r.load = 0) : r.left = g.regionWords := by
  have whole := p.load_add_room
  have all : r.left * g.wordBytes = g.regionWords * g.wordBytes := by
    rw [p.left_mul, ← Geometry.bytes]
    omega
  exact Nat.eq_of_mul_eq_mul_right sound.word all

theorem word_ne (p : r.Placed g i) : r.wordBytes ≠ 0 := by
  have := sound.word
  rw [p.word]
  omega

theorem claim_eq (p : r.Placed g i) {min desired : Nat} (le : min ≤ desired) :
    r.claim min desired = .ok (match r.takes min desired with
      | none => (none, r)
      | some words => (some { start := r.top, words }, r.took words)) :=
  Region.claim_eq p.le_limit p.inside (p.word_ne sound) le

omit sound in
/-- Words that are left can be taken. -/
theorem took (p : r.Placed g i) {words : Nat} (fits : words ≤ r.left) :
    (r.took words).Placed g i := by
  have enough : words * r.wordBytes ≤ r.room := by
    rw [← p.left_mul, p.word]
    exact Nat.mul_le_mul_right _ fits
  have below := p.le_limit
  have above := p.bottom_le
  unfold room at enough
  refine ⟨p.index, p.word, p.bottom, p.limit, p.inside, ?_, ?_, ?_⟩
  · simp only [Region.took]
    omega
  · simp only [Region.took]
    omega
  · have moved : r.top + words * r.wordBytes - r.bottom =
        (r.top - r.bottom) + words * g.wordBytes := by
      rw [p.word]
      omega
    simp only [Region.took, moved]
    exact Nat.dvd_add p.aligned (Nat.dvd_mul_left _ _)

omit sound in
/-- The mark does not matter to where a region is. -/
theorem unmark (p : r.Placed g i) : r.unmark.Placed g i :=
  ⟨p.index, p.word, p.bottom, p.limit, p.inside, p.bottom_le, p.le_limit, p.aligned⟩

omit sound in
theorem reset (p : r.Placed g i) : r.reset.Placed g i :=
  ⟨p.index, p.word, p.bottom, p.limit, p.inside, Nat.le_refl _,
    Nat.le_trans p.bottom_le p.le_limit, by simp [Region.reset]⟩

omit sound in
theorem load_took (p : r.Placed g i) (words : Nat) :
    (r.took words).load = r.load + words * g.wordBytes := by
  have := p.bottom_le
  simp only [load, Region.took, p.word]
  omega

omit sound in
/-- Two regions of one table do not overlap. -/
theorem apart {j : Nat} {q : Region} (p : r.Placed g i) (p' : q.Placed g j) (ne : i ≠ j) :
    r.limit ≤ q.bottom ∨ q.limit ≤ r.bottom := by
  rw [p.limit, p'.limit, p.bottom, p'.bottom]
  rcases Nat.lt_or_gt_of_ne ne with lt | lt
  · have := Nat.mul_le_mul_right g.bytes lt
    rw [Nat.succ_mul] at this
    omega
  · have := Nat.mul_le_mul_right g.bytes lt
    rw [Nat.succ_mul] at this
    omega

end Placed

end Region

end RegionHeap
