import RegionHeap.Program.Basic
import RegionHeap.Settings

/-!
# Arenas

An arena allocates out of one region at a time. It is started holding the
sentinel, of which every claim is refused, installs a fresh region when it needs
one, and gives it up when it is used up. What differs between arenas is how they
give regions up; that is their `Kind`.

This module holds what needs no lock: claims on the active region, and the
questions that an arena answers about itself.
-/

namespace RegionHeap

/-- How an arena gives regions up. -/
inductive Kind
  /-- It hands every region back at once. -/
  | plain
  /-- It puts the region with the most room aside for later claims. -/
  | mutator
  /-- It accounts for the bytes it copied and the words it wasted. -/
  | collector (purpose : Purpose)
  deriving DecidableEq

/-- An arena, apart from what it holds. -/
structure Arena where
  name : String
  node : Nat := NodeIndex.anywhere
  kind : Kind
  settings : Settings
  deriving DecidableEq

namespace Arena

open Program

/-- The arena of application threads. -/
def mutator (node : Nat) (settings : Settings) : Arena :=
  { name := "Mutator Alloc Region", node, kind := .mutator, settings }

/-- The arena of objects that survive a young collection. -/
def survivor (node : Nat) (settings : Settings) : Arena :=
  { name := "Survivor GC Alloc Region", node, kind := .collector .survivor, settings }

/-- The arena of objects promoted into the old generation. -/
def old (node : Nat) (settings : Settings) : Arena :=
  { name := "Old GC Alloc Region", node, kind := .collector .old, settings }

/-- The purpose for which the arena requests regions. -/
def purpose (a : Arena) : Option Purpose :=
  match a.kind with
  | .collector purpose => some purpose
  | .plain | .mutator => none

/-- Report a transition. -/
def tell (a : Arena) (moment : Moment) : Program Unit :=
  perform (.report a.name moment none)

/-- Report a request for words and what came of it. -/
def tellSizes (a : Arena) (moment : Moment) (min desired : Nat) (result : Option Span) :
    Program Unit :=
  perform (.report a.name moment (some {
    min
    desired
    actual := (result.map Span.words).getD 0
    result := result.map Span.start }))

/-- The place that a started arena allocates from. -/
def current (a : Arena) : Program Place := do
  match ← active with
  | some place => return place
  | none => fail (.notStarted a.name)

/-- Claim exactly `words` words of the active region. -/
def allocate (a : Arena) (words : Nat) : Program (Option Nat) := do
  let place ← a.current
  let span ← claim place words words
  return span.map Span.start

/-- Claim between `min` and `desired` words of the active region. -/
def claim (a : Arena) (min desired : Nat) : Program (Option Span) := do
  let place ← a.current
  match ← Program.claim place min desired with
  | some span => do
      a.tellSizes .claimed min desired (some span)
      return some span
  | none => do
      a.tellSizes .claimRefused min desired none
      return none

/-- The place of the active region; none for the sentinel. -/
def held : Program (Option Place) := do
  match ← active with
  | some (.table i) => return some (.table i)
  | some .sentinel | none => return none

/-- Hold the sentinel, with nothing installed so far. -/
def startPlain (a : Arena) : Program Unit := do
  a.tell .starting
  match ← active with
  | some _ => fail (.alreadyStarted a.name)
  | none => do
      activate (some .sentinel)
      perform .clearCount
      a.tell .started

end Arena

end RegionHeap
