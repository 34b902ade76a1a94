import RegionHeap.Arena.Basic

/-!
# Installing regions

A fresh region is installed over the sentinel. The first words are claimed before
anybody else can see the region, so that an active region is never empty. A
region that is in use already can be adopted by an arena that has installed
nothing yet.
-/

namespace RegionHeap

namespace Arena

open Program

/-- Take note of a region that is about to become active. -/
def onInstall (a : Arena) (place : Place) : Program Unit :=
  match a.kind with
  | .plain | .mutator => return ()
  | .collector _ => do
      let used ← usedBytes place
      perform (.storeBaseline used)

/-- Let everybody allocate from a region, which must not be empty. -/
def publish (a : Arena) (place : Place) : Program Unit := do
  a.tell .publishing
  let slot ← look place
  let empty ← compute slot.region.isEmpty
  require (place ≠ .sentinel ∧ empty = false) (.emptyPublication a.name)
  activate (some place)
  perform .bumpCount
  a.tell .published

/-- Install the granted region at `place` and claim its first words. -/
def installGranted (a : Arena) (place : Place) (words : Nat) : Program Nat := do
  perform (.unmark place)
  let slot ← look place
  let empty ← compute slot.region.isEmpty
  require (empty = true) .grantNotEmpty
  a.onInstall place
  match ← Program.claim place words words with
  | none => fail (.cannotHold a.name slot.region.index words)
  | some span => do
      a.publish place
      a.tell .requestServed
      return span.start

/-- Request a fresh region and claim `words` words of it. The arena has to hold
the sentinel, and keeps it if the request is refused. -/
def install (a : Arena) (words : Nat) : Program (Option Nat) := do
  let place ← a.current
  require (place = .sentinel) (.notOverSentinel a.name)
  a.tell .requesting
  match ← perform (.request words a.purpose a.node) with
  | none => do
      a.tell .requestRefused
      return none
  | some i => do
      let start ← a.installGranted (.table i) words
      return some start

/-- Go on allocating from a region that is in use already. -/
def adopt (a : Arena) (place : Place) : Program Unit := do
  a.tell .adopting
  let current ← a.current
  let count ← Program.count
  require (current = .sentinel ∧ count = 0) (.notFresh a.name)
  a.onInstall place
  a.publish place
  a.tell .adopted

end Arena

end RegionHeap
