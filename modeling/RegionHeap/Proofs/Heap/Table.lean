import Mathlib.Algebra.Group.Nat.Defs
import RegionHeap.Proofs.Heap.Fresh

/-!
# Tables up to the last address

A table is built exactly if its last region ends at an address. Its regions follow one another
from the heap's base on, without gap or overlap, so the distance from the base tells which
region an address belongs to. The default settings for the geometry go with its sentinel.
-/

namespace RegionHeap

/-- A region is built if it ends at an address. -/
theorem Region.new_of_fits (index : Nat) {bottom words wordBytes : Nat}
    (fits : bottom + words * wordBytes < Word.bound) :
    Region.new index bottom words wordBytes =
      .ok { index, bottom, top := bottom, limit := bottom + words * wordBytes, wordBytes,
            marker := none, fillers := [] } := by
  simp only [Region.new, Address.advance_eq_ok fits, Bind.bind, Except.bind]
  rfl

namespace Geometry

variable {g : Geometry} {i n : Nat}

/-- The last of `n` regions ends at an address, computed without wrapping. -/
def Fits (g : Geometry) (n : Nat) : Prop :=
  n = 0 ∨ g.heapBase + n * g.regionWords * g.wordBytes ≤ 2 ^ 64 - 1

instance (g : Geometry) (n : Nat) : Decidable (g.Fits n) :=
  inferInstanceAs (Decidable (_ ∨ _))

theorem fits_iff : g.Fits n ↔ n = 0 ∨ g.heapBase + n * g.bytes < Word.bound := by
  have bound : Word.bound = 2 ^ 64 - 1 + 1 := rfl
  rw [Fits, Nat.mul_assoc, bytes, bound, Nat.lt_succ_iff]

/-- A region that ends at an address is built, and no step towards it is a fault. -/
theorem region_of_fits (fits : g.heapBase + (i + 1) * g.bytes < Word.bound) :
    ∃ r, g.region i = .ok r := by
  rw [Nat.succ_mul] at fits
  have size : g.regionBytes = .ok g.bytes := Word.mul_eq_ok (by unfold bytes at fits; omega)
  have offset : Word.mul i g.bytes = .ok (i * g.bytes) := Word.mul_eq_ok (by omega)
  have start : g.startOf i = .ok (g.heapBase + i * g.bytes) := by
    simp only [startOf, size, offset, Bind.bind, Except.bind]
    exact Word.add_eq_ok (by omega)
  have room : g.heapBase + i * g.bytes + g.regionWords * g.wordBytes < Word.bound := by
    change g.heapBase + i * g.bytes + g.bytes < Word.bound
    omega
  exact ⟨_, by simp only [region, start, Bind.bind, Except.bind]; exact Region.new_of_fits i room⟩

theorem regionsFrom_of_fits {first : Nat}
    (fits : g.heapBase + (first + n) * g.bytes < Word.bound) :
    ∃ rs, g.regionsFrom first n = .ok rs := by
  induction n generalizing first with
  | zero => exact ⟨[], rfl⟩
  | succ n ih =>
      have earlier : (first + 1) * g.bytes ≤ (first + (n + 1)) * g.bytes :=
        Nat.mul_le_mul_right _ (by omega)
      obtain ⟨r, built⟩ := region_of_fits (g := g) (i := first) (by omega)
      have fits' : g.heapBase + (first + 1 + n) * g.bytes < Word.bound := by
        rwa [Nat.add_assoc, Nat.add_comm 1 n]
      obtain ⟨rs, rest⟩ := ih fits'
      exact ⟨r :: rs, by simp only [regionsFrom, built, rest, Bind.bind, Except.bind]; rfl⟩

/-- A table of valid geometry is built exactly if it fits. -/
theorem new_iff_fits (valid : g.validate = .ok ()) :
    (∃ s, Supply.new g n = .ok s) ↔ g.Fits n := by
  rw [fits_iff]
  constructor
  · rintro ⟨s, built⟩
    obtain ⟨fresh, rfl, length⟩ := Supply.new_eq_ok built
    rcases Nat.eq_zero_or_pos n with zero | pos
    · exact .inl zero
    · have here : n - 1 < s.slots.length := by omega
      have last := (fresh.placed (List.getElem?_eq_getElem here)).1
      have inside := last.inside
      have whole : n * s.geometry.bytes = (n - 1) * s.geometry.bytes + s.geometry.bytes := by
        rw [← Nat.succ_mul, Nat.succ_eq_add_one, Nat.sub_add_cancel pos]
      rw [last.limit, last.bottom] at inside
      exact .inr (by omega)
  · intro fits
    have regions : ∃ rs, g.regionsFrom 0 n = .ok rs := by
      rcases fits with rfl | fits
      · exact ⟨[], rfl⟩
      · exact regionsFrom_of_fits (by rwa [Nat.zero_add])
    obtain ⟨rs, built⟩ := regions
    exact ⟨_, by simp only [Supply.new, valid, built, Bind.bind, Except.bind]; rfl⟩

/-- The default settings for a geometry and its sentinel are accepted. -/
theorem setup_of_valid (valid : g.validate = .ok ()) (size : g.bytes < Word.bound) :
    ∃ sentinel settings, g.sentinel = .ok sentinel ∧ Settings.ofGeometry g = .ok settings ∧
      Basis.setup (.region sentinel) settings = .ok { sentinel, settings } := by
  obtain ⟨power, words, -, -⟩ := validate_eq_ok_iff.1 valid
  have sound := sound_of_validate valid
  have bytes_eq : g.regionBytes = .ok g.bytes := Word.mul_eq_ok size
  have none : 0 + 0 * g.wordBytes < Word.bound := by
    rw [Nat.zero_mul]
    exact Nat.two_pow_pos 64
  have sentinel := Region.new_of_fits RegionIndex.sentinel none
  have settings : ({ heapWordBytes := g.wordBytes, regionBytes := g.bytes } : Settings).validate =
      .ok () :=
    Settings.validate_eq_ok_iff.2 ⟨power, Nat.succ_pos 1, Nat.succ_pos 2047,
      Nat.mul_pos words sound.word, Nat.dvd_mul_left _ _⟩
  refine ⟨_, _, sentinel, by simp only [Settings.ofGeometry, bytes_eq, Bind.bind, Except.bind]; rfl,
    ?_⟩
  have word : g.wordBytes ≠ 0 := Nat.ne_of_gt sound.word
  have refused := Region.claim_of_full (r := {
      index := RegionIndex.sentinel, bottom := 0, top := 0, limit := 0 + 0 * g.wordBytes,
      wordBytes := g.wordBytes, marker := Option.none, fillers := [] })
    (by simp) word (Nat.le_refl 1)
  simp only [Basis.setup, settings, SentinelOffer.accept, Region.free, Address.distanceFrom,
    Bind.bind, Except.bind, refused]
  simp [Pure.pure, Except.pure]

end Geometry

/-! ## Where the regions are -/

/-- The address lies between the ends of the region. -/
def Region.Spans (r : Region) (a : Nat) : Prop :=
  r.bottom ≤ a ∧ a < r.limit

/-- Whether a region in its place spans an address can be told from the distance to the base. -/
theorem Region.Placed.spans_iff {g : Geometry} {i a : Nat} {r : Region} (p : r.Placed g i)
    (size : 0 < g.bytes) : r.Spans a ↔ g.heapBase ≤ a ∧ i = (a - g.heapBase) / g.bytes := by
  rw [eq_comm, Nat.div_eq_iff size, Region.Spans, p.limit, p.bottom]
  omega

namespace Geometry

variable {g : Geometry} {n : Nat}

/-- The supply holds `n` empty regions, one after the other from the base on. -/
structure Lays (g : Geometry) (n : Nat) (s : Supply) : Prop where
  length : s.slots.length = n
  bytes : g.regionBytes = .ok g.bytes
  empty : ∀ slot ∈ s.slots, slot.region.isEmpty = .ok true
  aligned : ∀ slot ∈ s.slots, g.wordBytes ∣ slot.region.bottom
  notNull : ∀ slot ∈ s.slots, ¬ slot.region.Spans 0
  notSentinel : ∀ slot ∈ s.slots, slot.region.index ≠ RegionIndex.sentinel
  index : ∀ (i : Nat) (slot : Slot), s.slots[i]? = some slot → slot.region.index = i
  consecutive : ∀ (i : Nat) (slot next : Slot), s.slots[i]? = some slot →
    s.slots[i + 1]? = some next → slot.region.limit = next.region.bottom
  disjoint : ∀ (i j : Nat) (slot other : Slot), i ≠ j → s.slots[i]? = some slot →
    s.slots[j]? = some other → ∀ a, slot.region.Spans a → ¬ other.region.Spans a
  covers : ∀ a, (∃ slot ∈ s.slots, slot.region.Spans a) ↔
    g.heapBase ≤ a ∧ a < g.heapBase + n * g.bytes
  located : ∀ a, g.heapBase ≤ a → a < g.heapBase + n * g.bytes →
    ∀ i : Nat, (∃ slot : Slot, s.slots[i]? = some slot ∧ slot.region.Spans a) ↔
      i = (a - g.heapBase) / g.bytes

/-- The regions of a table that was built are laid out like that. -/
theorem lays_of_new {s : Supply} (valid : g.validate = .ok ()) (few : n < 2 ^ 32)
    (built : Supply.new g n = .ok s) (pos : 0 < n) : g.Lays n s := by
  obtain ⟨fresh, same, length⟩ := Supply.new_eq_ok built
  obtain ⟨-, -, -, aligned⟩ := validate_eq_ok_iff.1 valid
  have sound := sound_of_validate valid
  have size : 0 < g.bytes := Nat.mul_pos sound.words sound.word
  have placed {i : Nat} {slot : Slot} (here : s.slots[i]? = some slot) :
      slot.region.Placed g i := same ▸ (fresh.placed here).1
  have each {slot : Slot} (mem : slot ∈ s.slots) :
      ∃ i, i < n ∧ s.slots[i]? = some slot := by
    obtain ⟨i, here⟩ := List.getElem?_of_mem mem
    exact ⟨i, length ▸ (List.getElem?_eq_some_iff.1 here).1, here⟩
  have fits : g.bytes < Word.bound := by
    obtain zero | fits := fits_iff.1 ((new_iff_fits valid).1 ⟨s, built⟩)
    · omega
    · have one := Nat.mul_le_mul_right g.bytes pos
      omega
  -- an address of the table lies in the region at the quotient, which there is
  have there_is (a : Nat) (above : g.heapBase ≤ a) (below : a < g.heapBase + n * g.bytes) :
      ∃ slot, s.slots[(a - g.heapBase) / g.bytes]? = some slot ∧ slot.region.Spans a := by
    have position : (a - g.heapBase) / g.bytes < s.slots.length := by
      rw [length, Nat.div_lt_iff_lt_mul size]
      omega
    have here := List.getElem?_eq_getElem position
    exact ⟨_, here, ((placed here).spans_iff size).2 ⟨above, rfl⟩⟩
  exact {
    length
    bytes := Word.mul_eq_ok fits
    empty := fun slot mem => by
      obtain ⟨i, -, here⟩ := each mem
      rw [(placed here).isEmpty_eq, (fresh.placed here).2.empty]
      rfl
    aligned := fun slot mem => by
      obtain ⟨i, -, here⟩ := each mem
      rw [(placed here).bottom]
      exact Nat.dvd_add aligned (Nat.dvd_mul_left_of_dvd (Nat.dvd_mul_left _ _) i)
    notNull := fun slot mem spans => by
      obtain ⟨i, -, here⟩ := each mem
      have base := sound.base
      have start := (placed here).bottom
      have null := spans.1
      omega
    notSentinel := fun slot mem => by
      obtain ⟨i, lt, here⟩ := each mem
      rw [(placed here).index]
      have last : RegionIndex.sentinel = 2 ^ 32 - 1 := rfl
      omega
    index := fun i slot here => (placed here).index
    consecutive := fun i slot next here there => by
      rw [(placed here).limit, (placed here).bottom, (placed there).bottom, Nat.succ_mul,
        Nat.add_assoc]
    disjoint := fun i j slot other ne here there a spans spans' => by
      rcases (placed here).apart (placed there) ne with before | after
      · exact absurd (Nat.le_trans before spans'.1) (Nat.not_le.2 spans.2)
      · exact absurd (Nat.le_trans after spans.1) (Nat.not_le.2 spans'.2)
    covers := fun a => by
      constructor
      · rintro ⟨slot, mem, spans⟩
        obtain ⟨i, lt, here⟩ := each mem
        obtain ⟨above, position⟩ := ((placed here).spans_iff size).1 spans
        rw [position, Nat.div_lt_iff_lt_mul size] at lt
        omega
      · rintro ⟨above, below⟩
        obtain ⟨slot, here, spans⟩ := there_is a above below
        exact ⟨slot, List.mem_of_getElem? here, spans⟩
    located := fun a above below i => by
      constructor
      · rintro ⟨slot, here, spans⟩
        exact (((placed here).spans_iff size).1 spans).2
      · rintro rfl
        exact there_is a above below }

/-- A table of valid geometry and less than `2 ^ 32` regions is built exactly if it fits, and
otherwise there is a fault. Its regions are laid out one after the other, and its default
settings and its sentinel are accepted. -/
theorem tables (valid : g.validate = .ok ()) (few : n < 2 ^ 32) :
    ((∃ s, Supply.new g n = .ok s) ↔
      n = 0 ∨ g.heapBase + n * g.regionWords * g.wordBytes ≤ 2 ^ 64 - 1) ∧
    (¬ (n = 0 ∨ g.heapBase + n * g.regionWords * g.wordBytes ≤ 2 ^ 64 - 1) →
      ∃ fault, Supply.new g n = .error fault) ∧
    ∀ s, Supply.new g n = .ok s → 0 < n → g.Lays n s ∧
      ∃ sentinel settings, g.sentinel = .ok sentinel ∧ Settings.ofGeometry g = .ok settings ∧
        Basis.setup (.region sentinel) settings = .ok { sentinel, settings } := by
  have built := new_iff_fits (n := n) valid
  refine ⟨built, fun wide => ?_, fun s ok pos => ?_⟩
  · cases outcome : Supply.new g n with
    | error fault => exact ⟨fault, rfl⟩
    | ok s => exact absurd (built.1 ⟨s, outcome⟩) wide
  · have lays := lays_of_new valid few ok pos
    exact ⟨lays, setup_of_valid valid (Word.eq_of_mul_eq_ok lays.bytes).2⟩

/-- Three regions of five bytes end at the last address, and four do not fit. -/
theorem tables_last :
    let g : Geometry := { wordBytes := 1, regionWords := 5, heapBase := 2 ^ 64 - 16 }
    (∃ s, Supply.new g 3 = .ok s ∧ g.Lays 3 s) ∧ ∃ fault, Supply.new g 4 = .error fault := by
  intro g
  have valid : g.validate = .ok () := by decide +kernel
  obtain ⟨three, -, lays⟩ := tables (n := 3) valid (by decide)
  obtain ⟨-, four, -⟩ := tables (n := 4) valid (by decide)
  obtain ⟨s, built⟩ := three.2 (.inr (by decide))
  exact ⟨⟨s, built, (lays s built (by decide)).1⟩, four (by decide)⟩

end Geometry

end RegionHeap
