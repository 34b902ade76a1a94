import RegionHeap.Geometry

/-!
# Settings

What all arenas of a heap agree on: the word size, the shortest filler, how much
room makes a region worth keeping, and the region size against which waste is
reported.
-/

namespace RegionHeap

/-- The settings shared by all arenas of one heap. -/
structure Settings where
  /-- The size of a heap word in bytes. -/
  heapWordBytes : Nat := 8
  /-- The shortest filler, in words. -/
  minFillWords : Nat := 2
  /-- The free bytes that make a retired region worth keeping. -/
  minRetainBytes : Nat := 2048
  /-- The region size that waste is compared with. -/
  regionBytes : Nat := 1048576
  deriving DecidableEq

namespace Settings

/-- The default settings for regions of this geometry. -/
def ofGeometry (g : Geometry) : Except Fault Settings := do
  let regionBytes ← g.regionBytes
  return { heapWordBytes := g.wordBytes, regionBytes }

/-- Words are powers of two, the thresholds are positive, and a region is a
positive number of words. -/
def validate (s : Settings) : Except Misconfiguration Unit :=
  if Word.isPowerOfTwo s.heapWordBytes = false then .error (.heapWordSize s.heapWordBytes)
  else if s.minFillWords = 0 then .error .minFillWords
  else if s.minRetainBytes = 0 then .error .minRetainBytes
  else if s.regionBytes = 0 ∨ s.regionBytes % s.heapWordBytes ≠ 0 then
    .error (.regionBytes s.heapWordBytes s.regionBytes)
  else .ok ()

/-- The shortest filler, in bytes. -/
def shortestFiller (s : Settings) : Except Fault Nat :=
  Word.mul s.minFillWords s.heapWordBytes

/-- The one-line text of the settings. -/
def describe (s : Settings) : String :=
  Text.record "AllocConfig"
    [("heap_word_size", toString s.heapWordBytes),
     ("min_fill_words", toString s.minFillWords),
     ("min_retain_bytes", toString s.minRetainBytes),
     ("region_bytes", toString s.regionBytes)]

theorem validate_eq_ok_iff {s : Settings} :
    s.validate = .ok () ↔
      (∃ k, s.heapWordBytes = Nat.pow 2 k) ∧ 0 < s.minFillWords ∧ 0 < s.minRetainBytes ∧
        0 < s.regionBytes ∧ s.heapWordBytes ∣ s.regionBytes := by
  rw [← Word.isPowerOfTwo_iff, Nat.dvd_iff_mod_eq_zero]
  unfold validate
  by_cases hb : s.regionBytes = 0 ∨ s.regionBytes % s.heapWordBytes ≠ 0
  · have : ¬(0 < s.regionBytes ∧ s.regionBytes % s.heapWordBytes = 0) := by omega
    rw [if_pos hb]
    repeat' split
    all_goals simp_all
  · rw [if_neg hb]
    repeat' split
    all_goals simp_all [Nat.pos_iff_ne_zero]

end Settings

end RegionHeap
