import RegionHeap.Region.Basic

/-!
# Geometry of the region table

All regions of a heap have the same size and follow one another from the heap's
base on. The sentinel has the heap's word size, no capacity, and address zero.
-/

namespace RegionHeap

/-- Where the regions of a heap are and how large they are. -/
structure Geometry where
  /-- The size of a heap word in bytes. -/
  wordBytes : Nat := 8
  /-- The size of a region in words. -/
  regionWords : Nat := 131072
  /-- The address of the first region. -/
  heapBase : Nat := 0x10000000
  deriving DecidableEq

namespace Geometry

/-- Regions of `n` words of one byte. -/
def ofBytes (n : Nat) : Geometry :=
  { wordBytes := 1, regionWords := n }

/-- Regions of `n` words of eight bytes. -/
def ofWords (n : Nat) : Geometry :=
  { regionWords := n }

/-- Words are powers of two, regions are not empty, and the base is an aligned
address other than zero. -/
def validate (g : Geometry) : Except Misconfiguration Unit :=
  if Word.isPowerOfTwo g.wordBytes = false then .error (.wordBytes g.wordBytes)
  else if g.regionWords = 0 then .error .regionWords
  else if g.heapBase = 0 ∨ g.heapBase % g.wordBytes ≠ 0 then
    .error (.heapBase g.wordBytes g.heapBase)
  else .ok ()

/-- The size of one region in bytes. -/
def regionBytes (g : Geometry) : Except Fault Nat :=
  Word.mul g.regionWords g.wordBytes

/-- The first address of region `i`. -/
def startOf (g : Geometry) (i : Nat) : Except Fault Nat := do
  let regionBytes ← g.regionBytes
  let offset ← Word.mul i regionBytes
  Word.add g.heapBase offset

/-- Region `i`, empty. -/
def region (g : Geometry) (i : Nat) : Except Fault Region := do
  let start ← g.startOf i
  Region.new i start g.regionWords g.wordBytes

/-- The region without capacity. -/
def sentinel (g : Geometry) : Except Fault Region :=
  Region.new RegionIndex.sentinel 0 0 g.wordBytes

/-- The regions `first`, `first + 1`, …, `first + count - 1`. -/
def regionsFrom (g : Geometry) (first : Nat) : Nat → Except Fault (List Region)
  | 0 => .ok []
  | count + 1 => do
      let region ← g.region first
      let rest ← g.regionsFrom (first + 1) count
      return region :: rest

theorem validate_eq_ok_iff {g : Geometry} :
    g.validate = .ok () ↔
      (∃ k, g.wordBytes = Nat.pow 2 k) ∧ 0 < g.regionWords ∧ 0 < g.heapBase ∧
        g.wordBytes ∣ g.heapBase := by
  rw [← Word.isPowerOfTwo_iff, Nat.dvd_iff_mod_eq_zero]
  unfold validate
  by_cases hb : g.heapBase = 0 ∨ g.heapBase % g.wordBytes ≠ 0
  · have : ¬(0 < g.heapBase ∧ g.heapBase % g.wordBytes = 0) := by omega
    rw [if_pos hb]
    repeat' split
    all_goals simp_all
  · rw [if_neg hb]
    repeat' split
    all_goals simp_all [Nat.pos_iff_ne_zero]

end Geometry

end RegionHeap
