import RegionHeap.Numeric.Binary64
import RegionHeap.Word

/-!
# Waste of an arena

Bytes that retirement makes unusable are counted in a wrapping 64-bit counter.
At the end of a tenancy the counter is reported together with the number of
regions that the arena went through, and as a percentage of their bytes.
-/

namespace RegionHeap

namespace Waste

/-- The counter after `bytes` more. -/
def add (counter bytes : Nat) : Nat :=
  Word.wrapAdd counter bytes

@[simp] theorem add_zero_of_lt {counter : Nat} (h : counter < Word.bound) :
    add counter 0 = counter :=
  Word.wrapAdd_zero h

theorem add_lt (counter bytes : Nat) : add counter bytes < Word.bound :=
  Word.wrapAdd_lt counter bytes

end Waste

/-- What an arena reports about one tenancy. -/
structure Summary where
  regions : Nat
  wastedBytes : Nat
  wastedPercent : Numeric.Binary64
  deriving DecidableEq

namespace Summary

/-- The report on `regions` regions of `regionBytes` bytes each. Their total has
to be a word. Nothing is wasted of no bytes. -/
def new (regions wastedBytes regionBytes : Nat) : Except Fault Summary := do
  let cycled ← Word.mul regions regionBytes
  let wastedPercent :=
    if cycled = 0 then Numeric.Binary64.zero
    else
      ((Numeric.Binary64.ofNat wastedBytes).mul (.ofNat 100)).div (.ofNat cycled)
  return { regions, wastedBytes, wastedPercent }

/-- A number of bytes in the largest unit that leaves three digits. -/
def scaled (bytes : Nat) : String :=
  if 100 * Nat.pow 2 30 ≤ bytes then toString (bytes / Nat.pow 2 30) ++ "G"
  else if 100 * Nat.pow 2 20 ≤ bytes then toString (bytes / Nat.pow 2 20) ++ "M"
  else if 100 * Nat.pow 2 10 ≤ bytes then toString (bytes / Nat.pow 2 10) ++ "K"
  else toString bytes ++ "B"

/-- The report in words. -/
def text (s : Summary) : String :=
  "regions: " ++ toString s.regions ++ ", wasted size: " ++ scaled s.wastedBytes ++
    " (" ++ s.wastedPercent.tenths ++ "%)"

theorem new_eq_ok_iff {regions wastedBytes regionBytes : Nat} :
    (∃ s, new regions wastedBytes regionBytes = .ok s) ↔
      regions * regionBytes < Word.bound := by
  by_cases h : regions * regionBytes < Word.bound
  · simp [new, Word.mul, h, bind, Except.bind, pure, Except.pure]
  · simp [new, Word.mul, h, bind, Except.bind]

end Summary

end RegionHeap
