import RegionHeap.Arena.Install
import RegionHeap.Arena.Retention

/-!
# Calls on an arena

Every kind of arena starts, retires and releases in its own way. On top of that
stand the paths that all kinds share: a claim that falls back on a fresh region,
for the one thread that holds the arena's lock, and a claim that insists on one.

`Call` lists what can be asked of an arena, and `Arena.answer` is the program
that answers.
-/

namespace RegionHeap

namespace Arena

open Program

/-- Retire, and tally the words wasted for this purpose if there was a region. -/
def retireTallying (a : Arena) (purpose : Purpose) (filling : Bool) : Program Nat := do
  match ← held with
  | none => a.retirePlain filling
  | some _ => do
      let wasted ← a.retirePlain filling
      let words ← compute (Word.div wasted a.settings.heapWordBytes)
      perform (.tally purpose words)
      return wasted

/-- Start in the way of the arena's kind. -/
def start (a : Arena) : Program Unit :=
  match a.kind with
  | .plain | .collector _ => a.startPlain
  | .mutator => a.startRetaining

/-- Retire in the way of the arena's kind. -/
def retire (a : Arena) (filling : Bool) : Program Nat :=
  match a.kind with
  | .plain => a.retirePlain filling
  | .mutator => a.retireRetaining filling
  | .collector purpose => a.retireTallying purpose filling

/-- Release in the way of the arena's kind. -/
def release (a : Arena) : Program (Option Place) :=
  match a.kind with
  | .plain => a.releasePlain
  | .mutator => a.releaseRetaining
  | .collector purpose => a.releaseBy (a.retireTallying purpose)

/-- Retire the active region, filled, and claim the desired words of a fresh one. -/
def claimFresh (a : Arena) (min desired : Nat) : Program (Option Span) := do
  let _ ← a.retire true
  match ← a.install desired with
  | some start => do
      let span : Span := { start, words := desired }
      a.tellSizes .lockedClaimed min desired (some span)
      return some span
  | none => do
      a.tellSizes .lockedRefused min desired none
      return none

/-- Claim once more, since another thread may have installed a region meanwhile,
and turn to a fresh region if the claim is refused. -/
def claimLocked (a : Arena) (min desired : Nat) : Program (Option Span) := do
  match ← a.claim min desired with
  | some span => return some span
  | none => a.claimFresh min desired

/-- Claim exactly `words` words of a fresh region. -/
def claimForced (a : Arena) (words : Nat) : Program (Option Nat) := do
  a.tellSizes .forcing words words none
  match ← a.install words with
  | some start => do
      a.tellSizes .forced words words (some { start, words })
      return some start
  | none => do
      a.tellSizes .forceRefused words words none
      return none

end Arena

/-- What can be asked of an arena. -/
inductive Call
  | start
  | retire (filling : Bool)
  | release
  | allocate (words : Nat)
  | claim (min desired : Nat)
  | claimRetained (min desired : Nat)
  | claimLocked (min desired : Nat)
  | claimFresh (min desired : Nat)
  | claimForced (words : Nat)
  | install (words : Nat)
  | adopt (place : Place)
  | held
  | summary
  /-- Start as a plain arena would. -/
  | startPlain
  /-- Retire as a plain arena would. -/
  | retirePlain (filling : Bool)
  /-- Release as a plain arena would. -/
  | releasePlain
  deriving DecidableEq

/-- The region that a call names, if it names one. -/
def Call.place? : Call → Option Place
  | .adopt place => some place
  | _ => none

/-- What an arena answers. -/
inductive Answer
  | nothing
  | bytes (n : Nat)
  | address (a : Option Nat)
  | span (s : Option Span)
  | place (p : Option Place)
  | summary (s : Summary)
  deriving DecidableEq

/-- The program that answers a call. -/
def Arena.answer (a : Arena) : Call → Program Answer
  | .start => do
      a.start
      return .nothing
  | .retire filling => Answer.bytes <$> a.retire filling
  | .release => Answer.place <$> a.release
  | .allocate words => Answer.address <$> a.allocate words
  | .claim min desired => Answer.span <$> a.claim min desired
  | .claimRetained min desired => Answer.span <$> a.claimRetained min desired
  | .claimLocked min desired => Answer.span <$> a.claimLocked min desired
  | .claimFresh min desired => Answer.span <$> a.claimFresh min desired
  | .claimForced words => Answer.address <$> a.claimForced words
  | .install words => Answer.address <$> a.install words
  | .adopt place => do
      a.adopt place
      return .nothing
  | .held => Answer.place <$> Arena.held
  | .summary => Answer.summary <$> a.summary
  | .startPlain => do
      a.startPlain
      return .nothing
  | .retirePlain filling => Answer.bytes <$> a.retirePlain filling
  | .releasePlain => Answer.place <$> a.releasePlain

end RegionHeap
