/-!
# Nonnegative double-precision numbers

A value is a significand of 53 bits times a power of two, or zero. Quotients
and products are computed exactly and then rounded to the nearest value, a
midpoint to the even neighbour. The exponents that occur here are far from the
limits of the format, so neither overflow nor gradual underflow is described.
-/

namespace RegionHeap.Numeric

/-- The quotient rounded to the nearest integer, a half to the even neighbour. -/
def roundHalfEven (num den : Nat) : Nat :=
  let q := num / den
  let twice := 2 * (num % den)
  if twice < den ∨ (twice = den ∧ q % 2 = 0) then q else q + 1

/-- The value `significand * 2 ^ exponent`. Other than zero, significands lie
between `2 ^ 52` and `2 ^ 53`. -/
structure Binary64 where
  significand : Nat
  exponent : Int
  deriving DecidableEq

namespace Binary64

/-- Zero. -/
def zero : Binary64 := ⟨0, 0⟩

/-- The value as a fraction: the numerator. -/
def numerator (x : Binary64) : Nat :=
  x.significand * Nat.pow 2 x.exponent.toNat

/-- The value as a fraction: the denominator. -/
def denominator (x : Binary64) : Nat :=
  Nat.pow 2 (-x.exponent).toNat

/-- The exponent for which `num / den` has a significand of 53 bits. -/
def scaleOf (num den : Nat) : Int :=
  let e : Int := (num.log2 : Int) - den.log2 - 52
  if num * Nat.pow 2 (-e).toNat < Nat.pow 2 52 * (den * Nat.pow 2 e.toNat) then e - 1 else e

/-- The value nearest to `num / den`. -/
def ofRatio (num den : Nat) : Binary64 :=
  if num = 0 then zero
  else
    let e := scaleOf num den
    let m := roundHalfEven (num * Nat.pow 2 (-e).toNat) (den * Nat.pow 2 e.toNat)
    if m = Nat.pow 2 53 then ⟨Nat.pow 2 52, e + 1⟩ else ⟨m, e⟩

/-- The value nearest to a natural number. -/
def ofNat (n : Nat) : Binary64 :=
  ofRatio n 1

/-- The rounded product. -/
def mul (x y : Binary64) : Binary64 :=
  ofRatio (x.numerator * y.numerator) (x.denominator * y.denominator)

/-- The rounded quotient by a divisor other than zero. -/
def div (x y : Binary64) : Binary64 :=
  ofRatio (x.numerator * y.denominator) (x.denominator * y.numerator)

/-- The interchange encoding: eleven bits of biased exponent above 52 bits of
significand without its leading one. -/
def bits (x : Binary64) : Nat :=
  if x.significand = 0 then 0
  else (x.exponent + 1075).toNat * Nat.pow 2 52 + (x.significand - Nat.pow 2 52)

/-- The value with one decimal place, a tie between two decimals going to the
even one, padded with blanks to four characters. -/
def tenths (x : Binary64) : String :=
  let n := roundHalfEven (x.numerator * 10) x.denominator
  let text := toString (n / 10) ++ "." ++ toString (n % 10)
  String.ofList (List.replicate (4 - text.length) ' ') ++ text

end Binary64

theorem roundHalfEven_one (n : Nat) : roundHalfEven n 1 = n := by
  simp [roundHalfEven, Nat.mod_one]

/-- The rounded quotient is within half a unit of the exact one. -/
theorem roundHalfEven_near {num den : Nat} (h : 0 < den) :
    2 * num ≤ (2 * roundHalfEven num den + 1) * den ∧
      2 * roundHalfEven num den * den ≤ 2 * num + den := by
  have hdiv := Nat.div_add_mod num den
  have hmod := Nat.mod_lt num h
  have hcomm : den * (num / den) = num / den * den := Nat.mul_comm _ _
  unfold roundHalfEven
  dsimp only
  split <;> grind

end RegionHeap.Numeric
