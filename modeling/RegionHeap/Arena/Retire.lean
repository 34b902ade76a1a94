import RegionHeap.Arena.Basic

/-!
# Giving regions up

A region is given up by filling what is left of it, if that is asked for, and
handing it back with the bytes that were used; what is left is waste. While the
fill is under way other threads may still claim words. Then the fill starts again
with what they left, until it succeeds or too little is left for a filler.

After retirement an arena holds the sentinel, and after release nothing.
-/

namespace RegionHeap

namespace Arena

open Program

/-- Claim `words` words and turn them into a filler; answer the filler's bytes.
If the claim is refused, try again with the words that are left then. A refusal
takes a rival away or leaves fewer words to fill, so `patience` outlasts every
sequence of refusals, unless the claim asks for more words than there are. -/
def fill (a : Arena) (place : Place) : (patience words : Nat) → Program Nat
  | 0, words =>
      if words < a.settings.minFillWords then return 0 else fail .endlessFill
  | patience + 1, words =>
      if words < a.settings.minFillWords then return 0
      else do
        match ← Program.claim place words words with
        | some span => do
            perform (.addFiller place { start := span.start, words })
            perform (.mark place span.start)
            compute (Word.mul words a.settings.heapWordBytes)
        | none => do
            let free ← freeBytes place
            let words ← compute (Word.div free a.settings.heapWordBytes)
            a.fill place patience words

/-- Fill what is left of a region. Answers the wasted bytes, and those of them
that are covered by the filler. -/
def fillUp (a : Arena) (place : Place) : Program (Nat × Nat) := do
  let slot ← look place
  let free ← compute slot.region.free
  let words ← compute (Word.div free a.settings.heapWordBytes)
  let filler ← a.fill place (words + slot.rivals.length + 1) words
  let residual ← freeBytes place
  let residualWords ← compute (Word.div residual a.settings.heapWordBytes)
  require (residualWords < a.settings.minFillWords) (.stillFillable a.name residual)
  let wasted ← compute (Word.add filler residual)
  return (wasted, filler)

/-- Hand back a region of which `used` bytes are in use. A collection returns the
bytes that came to those it found. -/
def handBack (a : Arena) (region : Nat) (used : Nat) : Program Unit :=
  match a.kind with
  | .plain | .mutator => perform (.takeBack region used)
  | .collector purpose => do
      let before ← perform .loadBaseline
      require (before ≤ used) (.shrank region before used)
      perform (.takeBackFrom purpose region (used - before))
      perform (.storeBaseline 0)

/-- What a retirement wastes, and what of it its filler covers. -/
def settle (a : Arena) (place : Place) (filling : Bool) : Program (Nat × Nat) :=
  if filling then a.fillUp place
  else do
    let free ← freeBytes place
    return (free, 0)

/-- Give a region up; answer the wasted bytes. -/
def giveUp (a : Arena) (place : Place) (filling : Bool) : Program Nat := do
  let slot ← look place
  let empty ← compute slot.region.isEmpty
  require (empty = false) (.retiredEmpty a.name slot.region.index)
  let (wasted, filler) ← a.settle place filling
  let used ← usedBytes place
  let live ← compute (Word.sub used filler)
  a.handBack slot.region.index live
  return wasted

/-- Give the active region up and hold the sentinel; answer the wasted bytes. -/
def retirePlain (a : Arena) (filling : Bool) : Program Nat := do
  let place ← a.current
  a.tell .retiring
  if place = .sentinel then do
    a.tell .retired
    return 0
  else do
    let wasted ← a.giveUp place filling
    activate (some .sentinel)
    a.tell .retired
    return wasted

/-- Retire without filling, in the way of `retire`, and hold nothing any more.
Answers the place of the region that was active. -/
def releaseBy (a : Arena) (retire : Bool → Program Nat) : Program (Option Place) := do
  a.tell .releasing
  let place ← a.current
  let _ ← retire false
  let left ← active
  require (left = some .sentinel) (.sentinelLost a.name)
  activate none
  a.tell .released
  return if place = .sentinel then none else some place

/-- Release in the way of an arena that hands every region back at once. -/
def releasePlain (a : Arena) : Program (Option Place) :=
  a.releaseBy a.retirePlain

end Arena

end RegionHeap
