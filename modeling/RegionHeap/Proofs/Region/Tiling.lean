import Mathlib
import RegionHeap.Region.Basic

/-!
# Tilings

Spans tile a stretch of addresses if each begins where the one before it ends, from the
first address of the stretch to its last, and none is empty. A tiling grows at its end, as
a region does that hands out words from its cursor.
-/

namespace RegionHeap

/-- Spans without gap or overlap from `a` up to `b`. -/
def Tiles (wordBytes : Nat) : Nat → List Span → Nat → Prop
  | a, [], b => a = b
  | a, s :: rest, b =>
      s.start = a ∧ 0 < s.words ∧ Tiles wordBytes (a + s.words * wordBytes) rest b

namespace Tiles

variable {wordBytes a b c : Nat} {s : Span} {l l' : List Span}

theorem nil (wordBytes a : Nat) : Tiles wordBytes a [] a := rfl

theorem append (h : Tiles wordBytes a l b) (h' : Tiles wordBytes b l' c) :
    Tiles wordBytes a (l ++ l') c := by
  induction l generalizing a with
  | nil =>
      cases h
      exact h'
  | cons s rest ih =>
      obtain ⟨start, words, tail⟩ := h
      exact ⟨start, words, ih tail⟩

/-- One more span at the end. -/
theorem concat {words : Nat} (h : Tiles wordBytes a l b) (pos : 0 < words) :
    Tiles wordBytes a (l ++ [{ start := b, words }]) (b + words * wordBytes) := by
  apply h.append
  exact ⟨rfl, pos, rfl⟩

/-- The last span ends where the tiling ends. -/
theorem of_concat (h : Tiles wordBytes a (l ++ [s]) b) :
    Tiles wordBytes a l s.start ∧ 0 < s.words ∧ s.start + s.words * wordBytes = b := by
  induction l generalizing a with
  | nil =>
      obtain ⟨rfl, pos, rest⟩ := h
      exact ⟨rfl, pos, rest⟩
  | cons t rest ih =>
      obtain ⟨start, words, tail⟩ := h
      obtain ⟨before, pos, ends⟩ := ih tail
      exact ⟨⟨start, words, before⟩, pos, ends⟩

/-- The words of a tiling make up the stretch. -/
theorem words (h : Tiles wordBytes a l b) : a + (l.map Span.words).sum * wordBytes = b := by
  induction l generalizing a with
  | nil =>
      cases h
      simp
  | cons s rest ih =>
      obtain ⟨-, -, tail⟩ := h
      have total := ih tail
      simp only [List.map_cons, List.sum_cons, Nat.add_mul]
      omega

theorem le (h : Tiles wordBytes a l b) : a ≤ b := by
  have := h.words
  omega

/-- A stretch of no bytes holds no span. -/
theorem eq_nil (h : Tiles wordBytes a l a) (word : 0 < wordBytes) : l = [] := by
  cases l with
  | nil => rfl
  | cons s rest =>
      obtain ⟨-, pos, tail⟩ := h
      have := tail.le
      have := Nat.mul_pos pos word
      omega

/-- Every span lies in the stretch. -/
theorem inside (h : Tiles wordBytes a l b) (mem : s ∈ l) :
    a ≤ s.start ∧ s.start + s.words * wordBytes ≤ b := by
  induction l generalizing a with
  | nil => cases mem
  | cons t rest ih =>
      obtain ⟨start, -, tail⟩ := h
      rcases List.mem_cons.1 mem with rfl | later
      · have := tail.le
        omega
      · have := ih tail later
        omega

/-- Every span ends before the later ones begin. -/
theorem ordered (h : Tiles wordBytes a l b) :
    l.Pairwise fun s t => s.start + s.words * wordBytes ≤ t.start := by
  induction l generalizing a with
  | nil => exact List.Pairwise.nil
  | cons s rest ih =>
      obtain ⟨rfl, -, tail⟩ := h
      apply List.Pairwise.cons
      · intro t later
        exact (tail.inside later).1
      · exact ih tail

end Tiles

end RegionHeap
