/-!
# Hexadecimal numerals

A number in base sixteen, with a leading `0x`, lower-case digits and no
leading zeros. Zero is `0x0`.
-/

namespace RegionHeap.Text

/-- The digits of `n` in base sixteen, after the mark `0x`. -/
def hexadecimal (n : Nat) : String :=
  "0x" ++ String.ofList (Nat.toDigits 16 n)

/-- The sixteen low-order digits of `n`, with leading zeros and no mark. -/
def hexadecimalWord (n : Nat) : String :=
  let digits := Nat.toDigits 16 (n % Nat.pow 2 64)
  String.ofList (List.replicate (16 - digits.length) '0' ++ digits)

end RegionHeap.Text
