import RegionHeap.Fault

/-!
# Machine words

Sizes and addresses are words of 64 bits, held as natural numbers below
`2 ^ 64`. Arithmetic on them is checked: a result that is no word is a fault.
Counters that many threads bump wrap instead.
-/

namespace RegionHeap.Word

/-- One more than the largest word. -/
def bound : Nat := Nat.pow 2 64

/-- The sum, if it is a word. -/
def add (a b : Nat) : Except Fault Nat :=
  if a + b < bound then .ok (a + b) else .error .sumOverflow

/-- The product, if it is a word. -/
def mul (a b : Nat) : Except Fault Nat :=
  if a * b < bound then .ok (a * b) else .error .productOverflow

/-- The difference, if it is not negative. -/
def sub (a b : Nat) : Except Fault Nat :=
  if b ≤ a then .ok (a - b) else .error .differenceOverflow

/-- The quotient, if there is one. -/
def div (a b : Nat) : Except Fault Nat :=
  if b = 0 then .error .divisionByZero else .ok (a / b)

/-- The sum of a list of words, added from the front. -/
def sum (words : List Nat) : Except Fault Nat :=
  words.foldlM add 0

/-- A counter of 64 bits after `n` more. -/
def wrapAdd (counter n : Nat) : Nat :=
  (counter + n) % bound

/-- A counter of 32 bits after one more. -/
def wrapSucc32 (counter : Nat) : Nat :=
  (counter + 1) % Nat.pow 2 32

/-- Whether `n` is a power of two; zero is none. -/
def isPowerOfTwo (n : Nat) : Bool :=
  n != 0 && Nat.pow 2 n.log2 == n

theorem add_eq_ok {a b : Nat} (h : a + b < bound) : add a b = .ok (a + b) := by
  simp [add, h]

theorem mul_eq_ok {a b : Nat} (h : a * b < bound) : mul a b = .ok (a * b) := by
  simp [mul, h]

theorem sub_eq_ok {a b : Nat} (h : b ≤ a) : sub a b = .ok (a - b) := by
  simp [sub, h]

theorem div_eq_ok {a b : Nat} (h : b ≠ 0) : div a b = .ok (a / b) := by
  simp [div, h]

theorem wrapAdd_lt (counter n : Nat) : wrapAdd counter n < bound :=
  Nat.mod_lt _ (by decide)

theorem wrapAdd_zero {counter : Nat} (h : counter < bound) : wrapAdd counter 0 = counter :=
  Nat.mod_eq_of_lt h

theorem wrapAdd_wrapAdd (counter m n : Nat) :
    wrapAdd (wrapAdd counter m) n = wrapAdd counter (m + n) := by
  simp [wrapAdd, Nat.add_assoc]

theorem isPowerOfTwo_iff {n : Nat} : isPowerOfTwo n = true ↔ ∃ k, n = Nat.pow 2 k := by
  constructor
  · intro h
    simp only [isPowerOfTwo, Bool.and_eq_true, beq_iff_eq] at h
    exact ⟨n.log2, h.2.symm⟩
  · rintro ⟨k, rfl⟩
    simp [isPowerOfTwo, Nat.log2_two_pow]

end RegionHeap.Word
