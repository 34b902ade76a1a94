import RegionHeap.Proofs.Region.Tiling
import RegionHeap.Proofs.Slot.Settlement

/-!
# Regions that can be parsed

A walk over a region from its bottom meets the spans that were handed out and, at the end,
the filler if there is one, and comes out at the cursor. A filler ends with the region, so
nothing more is handed out of a region that has one.
-/

namespace RegionHeap

/-- The span lies in the region at position `i`, at a word of it. -/
structure Geometry.Holds (g : Geometry) (i : Nat) (span : Span) : Prop where
  above : g.heapBase + i * g.bytes ≤ span.start
  below : span.start + span.words * g.wordBytes ≤ g.heapBase + i * g.bytes + g.bytes
  pos : 0 < span.words
  aligned : g.wordBytes ∣ span.start - (g.heapBase + i * g.bytes)

/-- Whether the span starts in the region at position `i`. -/
def Geometry.covers (g : Geometry) (i : Nat) (span : Span) : Bool :=
  g.heapBase + i * g.bytes ≤ span.start && span.start < g.heapBase + i * g.bytes + g.bytes

namespace Geometry

variable {g : Geometry} {i j : Nat} {span : Span}

/-- A span that lies in a region starts in that region and in no other. -/
theorem Holds.covers_iff (h : g.Holds j span) (sound : g.Sound) :
    g.covers i span = true ↔ i = j := by
  have bytes := Nat.mul_pos h.pos sound.word
  have above := h.above
  have below := h.below
  unfold covers
  rw [Bool.and_eq_true, decide_eq_true_iff, decide_eq_true_iff]
  constructor
  · rintro ⟨low, high⟩
    rcases Nat.lt_trichotomy i j with lt | same | lt
    · have := Nat.mul_le_mul_right g.bytes lt
      rw [Nat.succ_mul] at this
      omega
    · exact same
    · have := Nat.mul_le_mul_right g.bytes lt
      rw [Nat.succ_mul] at this
      omega
  · rintro rfl
    omega

/-- On a heap whose base is a word, a span of a region starts at a word, and not at
address zero. -/
theorem Holds.aligned_start (h : g.Holds j span) (sound : g.Sound)
    (base : g.wordBytes ∣ g.heapBase) : g.wordBytes ∣ span.start ∧ span.start ≠ 0 := by
  have bottom : g.wordBytes ∣ g.heapBase + j * g.bytes := by
    apply Nat.dvd_add base
    exact Nat.dvd_mul_left_of_dvd (Nat.dvd_mul_left _ _) j
  constructor
  · have whole := Nat.dvd_add bottom h.aligned
    rwa [Nat.add_sub_cancel' h.above] at whole
  · have := sound.base
    have := h.above
    omega

end Geometry

namespace Region

/-- A walk over the region goes over the spans given and at most one filler, which has
`least` words or more, ends with the region, and is where the marker is. -/
structure Parsed (least : Nat) (r : Region) (given : List Span) : Prop where
  tiles : Tiles r.wordBytes r.bottom (given ++ r.fillers) r.top
  filler : (r.fillers = [] ∧ r.marker = none) ∨
    ∃ filler, r.fillers = [filler] ∧ r.marker = some filler.start ∧ r.bottom < filler.start ∧
      least ≤ filler.words ∧ filler.start + filler.words * r.wordBytes = r.limit

/-- Words from the cursor on lie in the region. -/
theorem Placed.holds {g : Geometry} {i : Nat} {r : Region} (p : r.Placed g i) {words : Nat}
    (pos : 0 < words) (fits : words ≤ r.left) : g.Holds i { start := r.top, words } := by
  have bottom := p.bottom
  have limit := p.limit
  have above := p.bottom_le
  have below := (p.took fits).le_limit
  simp only [Region.took, p.word] at below
  constructor
  · change _ ≤ r.top
    omega
  · change r.top + words * g.wordBytes ≤ _
    omega
  · exact pos
  · rw [← bottom]
    exact p.aligned

namespace Parsed

variable {g : Geometry} {i least words : Nat} {r : Region} {given : List Span}

/-- Out of a region with a filler nothing more can be taken. -/
theorem clear (h : r.Parsed least given) (room : 0 < r.left) :
    r.fillers = [] ∧ r.marker = none := by
  rcases h.filler with none | ⟨filler, one, -, -, -, ends⟩
  · exact none
  · have tiles := h.tiles
    rw [one] at tiles
    have top := tiles.of_concat.2.2
    have none : r.left = 0 := by
      rw [left, Region.room, ← ends, top, Nat.sub_self, Nat.zero_div]
    omega

/-- Words taken from the cursor on go to the end of the walk. -/
theorem took (h : r.Parsed least given) (pos : 0 < words) (fits : words ≤ r.left) :
    (r.took words).Parsed least (given ++ [{ start := r.top, words }]) := by
  obtain ⟨fillers, marker⟩ := h.clear (Nat.lt_of_lt_of_le pos fits)
  have tiles := h.tiles
  rw [fillers, List.append_nil] at tiles
  constructor
  · change Tiles r.wordBytes r.bottom (_ ++ r.fillers) _
    rw [fillers, List.append_nil]
    exact tiles.concat pos
  · exact .inl ⟨fillers, marker⟩

/-- Out of an empty region nothing was handed out, and it can do without its marker. -/
theorem unmark (h : r.Parsed least given) (p : r.Placed g i) (sound : g.Sound)
    (empty : r.load = 0) : given = [] ∧ r.unmark.Parsed least [] := by
  have same : r.top = r.bottom := by
    have := p.bottom_le
    unfold load at empty
    omega
  have tiles := h.tiles
  rw [same] at tiles
  have none := tiles.eq_nil (Nat.pos_of_ne_zero (p.word_ne sound))
  obtain ⟨nothing, fillers⟩ := List.append_eq_nil_iff.1 none
  refine ⟨nothing, ?_, .inl ⟨fillers, rfl⟩⟩
  change Tiles r.wordBytes r.bottom ([] ++ r.fillers) r.top
  rw [fillers, same]
  exact Tiles.nil _ _

/-- The filler goes to the end of the walk. -/
theorem plugged (h : r.Parsed least given) (p : r.Placed g i) (pos : 0 < least)
    (full : r.load ≠ 0) : (r.plugged least).Parsed least given := by
  by_cases few : r.left < least
  · rw [plugged_of_lt few]
    exact h
  · have enough := Nat.not_lt.1 few
    have room : 0 < r.left := Nat.lt_of_lt_of_le pos enough
    obtain ⟨fillers, marker⟩ := h.clear room
    have above : r.bottom < r.top := by
      unfold load at full
      omega
    have ends : r.top + r.left * r.wordBytes = r.limit := by
      have := p.left_mul
      have := p.le_limit
      rw [p.word]
      unfold Region.room at *
      omega
    have tiles := h.tiles
    rw [fillers, List.append_nil] at tiles
    rw [plugged_of_le enough, fillers]
    constructor
    · exact tiles.concat room
    · refine .inr ⟨{ start := r.top, words := r.left }, rfl, ?_, above, enough, ends⟩
      exact if_neg (Nat.ne_of_gt (Nat.zero_lt_of_lt above))

/-- A region that was reset can be parsed. -/
theorem reset (least : Nat) (r : Region) : r.reset.Parsed least [] where
  tiles := Tiles.nil _ _
  filler := .inl ⟨rfl, rfl⟩

end Parsed

end Region

/-- Where nobody competes, a region can be parsed when it was given up. -/
theorem Slot.parsed_settled {g : Geometry} {i least : Nat} {slot : Slot} {given : List Span}
    (h : slot.region.Parsed least given) (p : slot.region.Placed g i) (pos : 0 < least)
    (full : slot.region.load ≠ 0) (noRivals : slot.rivals = []) (filling : Bool) :
    (slot.settled least filling).region.Parsed least given := by
  cases filling with
  | false => exact h
  | true =>
      rw [settled_true, ceded_of_rivals_eq_nil noRivals]
      exact h.plugged p pos full

end RegionHeap
