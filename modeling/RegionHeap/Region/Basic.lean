import RegionHeap.Text.Record
import RegionHeap.Word

/-!
# Regions

A region owns the addresses from `bottom` up to `limit` and hands them out from
below: everything under the cursor `top` has been handed out. Retirement may
turn a tail of the region into a *filler*, so that a walk over the heap finds no
gap, and then marks where live data ended.

Distances between addresses and sizes in words are computed with checked
arithmetic, so they are answers or faults. For a region built by `Region.new`
they are never faults.
-/

namespace RegionHeap

namespace Address

/-- The address `words` heap words further on. -/
def advance (a : Nat) (words wordBytes : Nat) : Except Fault Nat := do
  let bytes ← Word.mul words wordBytes
  Word.add a bytes

/-- The number of bytes from `origin` up to `a`. -/
def distanceFrom (a origin : Nat) : Except Fault Nat :=
  if origin ≤ a then .ok (a - origin) else .error (.originAbove origin a)

end Address

/-- A run of heap words. -/
structure Span where
  start : Nat
  words : Nat
  deriving DecidableEq

/-- The first address after the span. -/
def Span.limit (s : Span) (wordBytes : Nat) : Except Fault Nat :=
  Address.advance s.start s.words wordBytes

/-- A stretch of the heap that is handed out from below. -/
structure Region where
  index : Nat
  bottom : Nat
  top : Nat
  limit : Nat
  wordBytes : Nat
  /-- Where live data ended before the filler was written. -/
  marker : Option Nat
  /-- The fillers, by ascending start. -/
  fillers : List Span
  deriving DecidableEq

namespace Region

/-- An empty region of `words` words. -/
def new (index : Nat) (bottom : Nat) (words wordBytes : Nat) :
    Except Fault Region := do
  let limit ← Address.advance bottom words wordBytes
  return { index, bottom, top := bottom, limit, wordBytes, marker := none, fillers := [] }

/-- Bytes that are not handed out yet. -/
def free (r : Region) : Except Fault Nat :=
  Address.distanceFrom r.limit r.top

/-- Bytes that are handed out. -/
def used (r : Region) : Except Fault Nat :=
  Address.distanceFrom r.top r.bottom

/-- All bytes of the region. -/
def capacity (r : Region) : Except Fault Nat :=
  Address.distanceFrom r.limit r.bottom

/-- Whether nothing is handed out. -/
def isEmpty (r : Region) : Except Fault Bool := do
  let used ← r.used
  return used == 0

/-- Whole words that are not handed out yet. -/
def freeInWords (r : Region) : Except Fault Nat := do
  let free ← r.free
  Word.div free r.wordBytes

/-- Whole words of the region. -/
def capacityInWords (r : Region) : Except Fault Nat := do
  let capacity ← r.capacity
  Word.div capacity r.wordBytes

/-- Whether `a` is handed out. -/
def contains (r : Region) (a : Nat) : Bool :=
  r.bottom ≤ a && a < r.top

/-- Whether one of `fillers` covers `a`. -/
def coveredBy (wordBytes : Nat) (a : Nat) : List Span → Except Fault Bool
  | [] => .ok false
  | filler :: rest =>
      if filler.start ≤ a then do
        let limit ← filler.limit wordBytes
        if a < limit then .ok true else coveredBy wordBytes a rest
      else coveredBy wordBytes a rest

/-- Whether `a` lies inside a filler. -/
def inFiller (r : Region) (a : Nat) : Except Fault Bool :=
  coveredBy r.wordBytes a r.fillers

/-- Put a filler before the first that does not start below it. -/
def insertFiller (filler : Span) : List Span → List Span
  | [] => [filler]
  | next :: rest =>
      if next.start < filler.start then next :: insertFiller filler rest
      else filler :: next :: rest

/-- Record a filler. It has to lie in the part that is handed out. -/
def addFiller (r : Region) (filler : Span) : Except Fault Region := do
  let limit ← filler.limit r.wordBytes
  if r.bottom ≤ filler.start ∧ limit ≤ r.top then
    return { r with fillers := insertFiller filler r.fillers }
  else
    throw (.fillerOutside filler.start limit r.index)

/-- Mark the end of live data. Address zero marks nothing. -/
def mark (r : Region) (a : Nat) : Region :=
  { r with marker := if a = 0 then none else some a }

/-- Forget the mark. -/
def unmark (r : Region) : Region :=
  { r with marker := none }

/-- The region as it was when it was built. -/
def reset (r : Region) : Region :=
  { r with top := r.bottom, marker := none, fillers := [] }

/-- The one-line text of a region, with decimal addresses. -/
def describe (r : Region) : String :=
  Text.record "HeapRegion"
    [("index", Text.wrapped "RegionIndex" r.index),
     ("bottom", Text.wrapped "HeapAddr" r.bottom),
     ("top", Text.wrapped "HeapAddr" r.top),
     ("end", Text.wrapped "HeapAddr" r.limit)]

@[simp] theorem mark_top (r : Region) (a : Nat) : (r.mark a).top = r.top := rfl

@[simp] theorem unmark_top (r : Region) : r.unmark.top = r.top := rfl

@[simp] theorem reset_top (r : Region) : r.reset.top = r.bottom := rfl

@[simp] theorem reset_reset (r : Region) : r.reset.reset = r.reset := rfl

theorem mem_insertFiller {s filler : Span} {l : List Span} :
    s ∈ insertFiller filler l ↔ s = filler ∨ s ∈ l := by
  induction l with
  | nil => simp [insertFiller]
  | cons next rest ih =>
    by_cases h : next.start < filler.start
    · simp [insertFiller, h, ih, or_left_comm]
    · simp [insertFiller, h]

end Region

end RegionHeap
