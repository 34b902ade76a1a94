/-!
# Sets of code points

A set of code points is a list of stretches, both ends included, ascending and
apart from one another.
-/

namespace RegionHeap.Text

/-- The stretches of a set, each with its first and its last code point. -/
abbrev CodePoints : Type := List (Nat × Nat)

namespace CodePoints

/-- Whether a code point is in the set. -/
def has (s : CodePoints) (n : Nat) : Bool :=
  s.any fun stretch => stretch.1 ≤ n && n ≤ stretch.2

/-- Whether every stretch is in order, and a gap lies before the next one. -/
def isAscending : CodePoints → Bool
  | [] => true
  | [stretch] => stretch.1 ≤ stretch.2
  | stretch :: next :: rest =>
      stretch.1 ≤ stretch.2 && stretch.2 + 1 < next.1 && isAscending (next :: rest)

theorem has_iff {s : CodePoints} {n : Nat} :
    s.has n = true ↔ ∃ stretch ∈ s, stretch.1 ≤ n ∧ n ≤ stretch.2 := by
  simp [has]

end CodePoints

end RegionHeap.Text
