import RegionHeap.Region.Claim

/-!
# Threads at one cursor

Any number of threads claim words of one region at the same time. Each claim is
taken apart into its accesses to the cursor; a move of the race is one access of
one thread, so a list of moves is an interleaving. An exchange may fail for no
reason.

`drain` lets all threads take turns until each of them has been refused.
-/

namespace RegionHeap.Race

/-- A thread that claims words of a region. -/
inductive Claimant
  /-- Between two claims; the flag says whether the latest was refused. -/
  | idle (refused : Bool)
  | claiming (min desired : Nat) (phase : ClaimPhase)
  | stopped (fault : Fault)
  deriving DecidableEq

/-- A claim that came to an end. -/
structure ClaimAnswer where
  thread : Nat
  min : Nat
  desired : Nat
  result : Option Span
  deriving DecidableEq

/-- A region, the threads at its cursor, and what they were answered, the latest
answer first. -/
structure AtCursor where
  region : Region
  claimants : List Claimant
  answers : List ClaimAnswer := []
  deriving DecidableEq

/-- What can happen next. -/
inductive CursorMove
  /-- An idle thread starts a claim. -/
  | ask (thread min desired : Nat)
  /-- A claiming thread accesses the cursor. -/
  | access (thread : Nat) (spurious : Bool)
  deriving DecidableEq

namespace AtCursor

/-- A region that `threads` threads are about to claim from. -/
def new (region : Region) (threads : Nat) : AtCursor :=
  { region, claimants := List.replicate threads (.idle false) }

/-- The race with a thread in another state. -/
def setClaimant (r : AtCursor) (thread : Nat) (c : Claimant) : AtCursor :=
  { r with claimants := r.claimants.set thread c }

/-- What comes of one access of a thread. -/
def access (r : AtCursor) (thread min desired : Nat) (phase : ClaimPhase) (spurious : Bool) :
    AtCursor :=
  match phase.step r.region min desired spurious with
  | .error fault => r.setClaimant thread (.stopped fault)
  | .ok (.pending phase, region) =>
      { r with region }.setClaimant thread (.claiming min desired phase)
  | .ok (.answered result, region) =>
      { r with region, answers := { thread, min, desired, result } :: r.answers }.setClaimant
        thread (.idle result.isNone)

/-- Make a move. A move that its thread cannot make changes nothing. -/
def move (r : AtCursor) : CursorMove → AtCursor
  | .ask thread min desired =>
      match r.claimants[thread]? with
      | some (.idle _) => r.setClaimant thread (.claiming min desired .unread)
      | _ => r
  | .access thread spurious =>
      match r.claimants[thread]? with
      | some (.claiming min desired phase) => r.access thread min desired phase spurious
      | _ => r

/-- Make moves in order. -/
def moves (r : AtCursor) (ms : List CursorMove) : AtCursor :=
  ms.foldl move r

/-- The next move of a thread that claims `words` words until it is refused. -/
def turn (r : AtCursor) (words thread : Nat) (spurious : Bool) : AtCursor :=
  match r.claimants[thread]? with
  | some (.idle false) => r.move (.ask thread words words)
  | some (.claiming ..) => r.move (.access thread spurious)
  | _ => r

/-- Whether no thread has anything left to do. -/
def isOver (r : AtCursor) : Bool :=
  r.claimants.all fun
    | .idle refused => refused
    | .claiming .. => false
    | .stopped _ => true

/-- Let the threads take turns for at most so many rounds, until all are refused. -/
def rounds (words : Nat) : Nat → AtCursor → AtCursor
  | 0, r => r
  | n + 1, r =>
      if r.isOver then r
      else
        rounds words n
          ((List.range r.claimants.length).foldl (fun r thread => r.turn words thread false) r)

/-- Let all threads claim `words` words until they are refused. Every round brings
some thread forward, and an exchange fails only because another has succeeded, so
the number of rounds is enough. -/
def drain (r : AtCursor) (words : Nat) : AtCursor :=
  let threads := r.claimants.length
  rounds words (2 * (r.region.limit - r.region.top + threads + 1) * (threads + 2)) r

/-- The spans handed out, by ascending start. -/
def spans (r : AtCursor) : List Span :=
  (r.answers.filterMap ClaimAnswer.result).mergeSort fun a b => a.start ≤ b.start

/-- The fault that stopped a thread, if there is one. -/
def fault? (r : AtCursor) : Option Fault :=
  r.claimants.findSome? fun
    | .stopped fault => some fault
    | _ => none

@[simp] theorem moves_nil (r : AtCursor) : r.moves [] = r := rfl

@[simp] theorem moves_cons (r : AtCursor) (m : CursorMove) (ms : List CursorMove) :
    r.moves (m :: ms) = (r.move m).moves ms := rfl

theorem moves_append (r : AtCursor) (ms ns : List CursorMove) :
    r.moves (ms ++ ns) = (r.moves ms).moves ns := by
  simp [moves]

end AtCursor

end RegionHeap.Race
