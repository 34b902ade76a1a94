import RegionHeap.Arena.Retire
import RegionHeap.Waste

/-!
# Retention

The arena of application threads does not hand back a region that has enough room
left, but puts it aside, where threads can still claim from it. It puts one region
aside, the one with the most room: a better candidate displaces it. Release hands
back both regions.
-/

namespace RegionHeap

namespace Arena

open Program

/-- Start counting waste anew. Nothing may be put aside from earlier. -/
def startRetaining (a : Arena) : Program Unit := do
  let kept ← retained
  require (kept = none) (.stillRetaining a.name)
  a.startPlain
  perform .clearWasted

/-- Whether the region at `place` has enough room to be put aside, and more than
the one that is. -/
def worthRetaining (a : Arena) (place : Place) : Program Bool := do
  let free ← freeBytes place
  if free < a.settings.minRetainBytes then return false
  else do
    match ← retained with
    | none => return true
    | some kept => do
        let keptFree ← freeBytes kept
        return keptFree < free

/-- Put a region aside and give up the one that it displaces, filled; answer the
wasted bytes. -/
def retainInstead (a : Arena) (place : Place) : Program Nat := do
  a.tell .retaining
  match ← retained with
  | none => do
      retain (some place)
      return 0
  | some displaced => do
      let wasted ← a.giveUp displaced true
      retain (some place)
      return wasted

/-- Put the active region aside or give it up, and hold the sentinel; answer the
wasted bytes. -/
def retireRetaining (a : Arena) (filling : Bool) : Program Nat := do
  let place ← a.current
  a.tell .retiring
  if place = .sentinel then do
    waste 0
    a.tell .retired
    return 0
  else do
    let keep ← a.worthRetaining place
    let wasted ← (if keep then a.retainInstead place else a.giveUp place filling)
    activate (some .sentinel)
    waste wasted
    a.tell .retired
    return wasted

/-- Claim between `min` and `desired` words of the region put aside. -/
def claimRetained (a : Arena) (min desired : Nat) : Program (Option Span) := do
  match ← retained with
  | none => return none
  | some place => do
      match ← Program.claim place min desired with
      | none => return none
      | some span => do
          a.tellSizes .retainedClaimed min desired (some span)
          return some span

/-- The bytes in use at a place, if there is one. -/
def usedAt : Option Place → Program Nat
  | none => return 0
  | some place => usedBytes place

/-- The bytes in use in the active region and in the one put aside. -/
def usedInRegions : Program Nat := do
  let place ← held
  let activeUsed ← usedAt place
  let kept ← retained
  let keptUsed ← usedAt kept
  compute (Word.add activeUsed keptUsed)

/-- The report on the tenancy so far. -/
def summary (a : Arena) : Program Summary := do
  let regions ← count
  let bytes ← wasted
  compute (Summary.new regions bytes a.settings.regionBytes)

/-- Give up the region put aside, if there is one, without filling it. -/
def releaseRetained (a : Arena) : Program Unit := do
  match ← retained with
  | none => return ()
  | some place => do
      let bytes ← a.giveUp place false
      waste bytes
      retain none

/-- Release both regions and report on the tenancy. -/
def releaseRetaining (a : Arena) : Program (Option Place) := do
  let released ← a.releaseBy a.retireRetaining
  a.releaseRetained
  let regions ← count
  let bytes ← wasted
  perform (.summarise regions bytes a.settings.regionBytes)
  return released

end Arena

end RegionHeap
