import RegionHeap.Arena.Call

/-!
# Threads sharing one arena

Any number of threads claim words from one arena. A thread first claims without a
lock. If that is refused, it waits for the arena's lock and claims again while it
holds the lock, this time with the option of a fresh region.

The programs are those of the arena. A move of the race is one step of one
thread, and a claim is taken apart into its accesses to the cursor, so a list of
moves is an interleaving of everything the threads do to the heap.
-/

namespace RegionHeap.Race

/-- What a thread wants: between `min` and `desired` words, if need be from the
region put aside. -/
structure Wish where
  min : Nat
  desired : Nat
  fromRetained : Bool := false
  deriving DecidableEq

namespace Wish

/-- The attempt without the lock. -/
def unlocked (w : Wish) (a : Arena) : Program (Option Span) := do
  match ← a.claim w.min w.desired with
  | some span => return some span
  | none =>
      if w.fromRetained then a.claimRetained w.min w.desired
      else return none

/-- The attempt with the lock. -/
def locked (w : Wish) (a : Arena) : Program (Option Span) :=
  a.claimLocked w.min w.desired

end Wish

/-- A program on its way, with the state of the claim that it is at. -/
structure Flight where
  program : Program (Option Span)
  phase : ClaimPhase := .unread

namespace Flight

/-- One access of a claim to the cursor of the region at a place. -/
def access (phase : ClaimPhase) (place : Place) (min desired : Nat) (s : Store)
    (spurious : Bool) : Except Fault (ClaimProgress × Store) := do
  let slot ← s.heap.find place
  let (progress, slot) ← slot.step min desired spurious phase
  return (progress, { s with heap := s.heap.put place slot })

/-- Take one step of a program that has not come to its end. -/
def step (f : Flight) (s : Store) (spurious : Bool) : Except Fault (Flight × Store) :=
  match f.program with
  | .done _ => .ok (f, s)
  | .fail fault => .error fault
  | .step (.claim place min desired) next => do
      let (progress, s) ← access f.phase place min desired s spurious
      match progress with
      | .pending phase => return ({ f with phase }, s)
      | .answered result => return ({ program := next result }, s)
  | .step st next => do
      let (answer, s) ← st.perform s
      return ({ program := next answer }, s)

theorem access_eq (phase : ClaimPhase) (place : Place) (min desired : Nat) (s : Store)
    (spurious : Bool) :
    access phase place min desired s spurious =
      (s.heap.find place).bind fun slot =>
        (slot.step min desired spurious phase).map fun r =>
          (r.1, { s with heap := s.heap.put place r.2 }) := by
  unfold access
  cases s.heap.find place with
  | error fault => rfl
  | ok slot =>
    simp only [bind, Except.bind]
    cases slot.step min desired spurious phase <;> rfl

/-- A claim stays where it is until it is answered. -/
theorem step_claim (place : Place) (min desired : Nat) (phase : ClaimPhase)
    (next : Option Span → Program (Option Span)) (s : Store) (spurious : Bool) :
    ({ program := .step (.claim place min desired) next, phase } : Flight).step s spurious =
      (access phase place min desired s spurious).map fun r =>
        match r.1 with
        | .pending phase => ({ program := .step (.claim place min desired) next, phase }, r.2)
        | .answered result => ({ program := next result }, r.2) := by
  change (access phase place min desired s spurious).bind _ = _
  cases access phase place min desired s spurious with
  | error fault => rfl
  | ok r =>
    rcases r with ⟨progress, s'⟩
    cases progress <;> rfl

/-- Any other step is taken at once. -/
theorem step_of_ne_claim {st : Step} (h : ∀ place min desired, st ≠ .claim place min desired)
    (phase : ClaimPhase) (next : st.Answer → Program (Option Span)) (s : Store)
    (spurious : Bool) :
    ({ program := .step st next, phase } : Flight).step s spurious =
      (st.perform s).map fun r => ({ program := next r.1 }, r.2) := by
  cases st
  case claim place min desired => exact absurd rfl (h place min desired)
  all_goals
    unfold step
    dsimp only
    generalize Step.perform s _ = outcome
    cases outcome <;> rfl

end Flight

/-- A thread that claims words from an arena. -/
inductive Thread
  /-- Between two wishes; the flag says whether the latest was refused. -/
  | idle (refused : Bool)
  | unlocked (wish : Wish) (flight : Flight)
  | waiting (wish : Wish)
  | locked (wish : Wish) (flight : Flight)
  | stopped (fault : Fault)

/-- A wish that was answered. -/
structure WishAnswer where
  thread : Nat
  wish : Wish
  /-- Whether the answer was given under the lock. -/
  underLock : Bool
  result : Option Span
  deriving DecidableEq

/-- An arena, the threads that share it, and what they were answered, the latest
answer first. -/
structure Shared where
  arena : Arena
  store : Store
  threads : List Thread
  /-- The thread that has the lock. -/
  holder : Option Nat := none
  answers : List WishAnswer := []

/-- What can happen next. -/
inductive SharedMove
  /-- An idle thread makes a wish. -/
  | ask (thread : Nat) (wish : Wish)
  /-- A thread takes a step; a waiting thread takes the lock if it is free. -/
  | step (thread : Nat) (spurious : Bool)
  deriving DecidableEq

namespace Shared

/-- An arena that so many threads are about to claim from. -/
def new (arena : Arena) (store : Store) (threads : Nat) : Shared :=
  { arena, store, threads := List.replicate threads (.idle false) }

/-- The race with a thread in another state. -/
def setThread (r : Shared) (thread : Nat) (t : Thread) : Shared :=
  { r with threads := r.threads.set thread t }

/-- A thread is answered and has nothing more to do. -/
def answer (r : Shared) (thread : Nat) (wish : Wish) (underLock : Bool)
    (result : Option Span) : Shared :=
  { r with answers := { thread, wish, underLock, result } :: r.answers }.setThread thread
    (.idle result.isNone)

/-- A step of a thread that does not have the lock. -/
def stepUnlocked (r : Shared) (thread : Nat) (wish : Wish) (flight : Flight)
    (spurious : Bool) : Shared :=
  match flight.program with
  | .done none => r.setThread thread (.waiting wish)
  | .done (some span) => r.answer thread wish false (some span)
  | _ =>
      match flight.step r.store spurious with
      | .error fault => r.setThread thread (.stopped fault)
      | .ok (flight, store) => { r with store }.setThread thread (.unlocked wish flight)

/-- A step of the thread that has the lock. -/
def stepLocked (r : Shared) (thread : Nat) (wish : Wish) (flight : Flight)
    (spurious : Bool) : Shared :=
  match flight.program with
  | .done result => { r with holder := none }.answer thread wish true result
  | _ =>
      match flight.step r.store spurious with
      | .error fault => r.setThread thread (.stopped fault)
      | .ok (flight, store) => { r with store }.setThread thread (.locked wish flight)

/-- Make a move. A move that its thread cannot make changes nothing. -/
def move (r : Shared) : SharedMove → Shared
  | .ask thread wish =>
      match r.threads[thread]? with
      | some (.idle _) =>
          r.setThread thread (.unlocked wish { program := wish.unlocked r.arena })
      | _ => r
  | .step thread spurious =>
      match r.threads[thread]? with
      | some (.unlocked wish flight) => r.stepUnlocked thread wish flight spurious
      | some (.locked wish flight) => r.stepLocked thread wish flight spurious
      | some (.waiting wish) =>
          if r.holder = none then
            { r with holder := some thread }.setThread thread
              (.locked wish { program := wish.locked r.arena })
          else r
      | _ => r

/-- Make moves in order. -/
def moves (r : Shared) (ms : List SharedMove) : Shared :=
  ms.foldl move r

/-- The next move of a thread that wishes for `words` words until it is refused. -/
def turn (r : Shared) (words thread : Nat) (spurious : Bool) : Shared :=
  match r.threads[thread]? with
  | some (.idle false) => r.move (.ask thread { min := words, desired := words })
  | some (.idle true) | some (.stopped _) | none => r
  | some _ => r.move (.step thread spurious)

/-- Whether no thread has anything left to do. -/
def isOver (r : Shared) : Bool :=
  r.threads.all fun
    | .idle refused => refused
    | .stopped _ => true
    | _ => false

/-- The fault that stopped a thread, if there is one. -/
def fault? (r : Shared) : Option Fault :=
  r.threads.findSome? fun
    | .stopped fault => some fault
    | _ => none

/-- Let the threads take turns for at most so many rounds, until all are refused
or one is stopped. -/
def rounds (words : Nat) : Nat → Shared → Shared
  | 0, r => r
  | n + 1, r =>
      if r.isOver || r.fault?.isSome then r
      else
        rounds words n
          ((List.range r.threads.length).foldl (fun r thread => r.turn words thread false) r)

/-- The bytes of all regions that are not handed out. -/
def room (r : Shared) : Nat :=
  r.store.heap.supply.slots.foldl (fun n s => n + (s.region.limit - s.region.top)) 0

/-- The rivals that wait at all regions. -/
def rivals (r : Shared) : Nat :=
  r.store.heap.supply.slots.foldl (fun n s => n + s.rivals.length) 0

/-- Let all threads wish for `words` words until they are refused. A wish takes
fewer steps than the factor below, apart from exchanges that fail because another
thread has succeeded, and claims that a rival forestalls. Successes are no more than
there are bytes, and no rival comes in twice. -/
def drain (r : Shared) (words : Nat) : Shared :=
  let threads := r.threads.length
  rounds words (64 * (r.room + r.rivals + threads + 1) * (threads + 1)) r

/-- The spans handed out, by ascending start. -/
def spans (r : Shared) : List Span :=
  (r.answers.filterMap WishAnswer.result).mergeSort fun a b => a.start ≤ b.start

@[simp] theorem moves_nil (r : Shared) : r.moves [] = r := rfl

@[simp] theorem moves_cons (r : Shared) (m : SharedMove) (ms : List SharedMove) :
    r.moves (m :: ms) = (r.move m).moves ms := rfl

theorem moves_append (r : Shared) (ms ns : List SharedMove) :
    r.moves (ms ++ ns) = (r.moves ms).moves ns := by
  simp [moves]

end Shared

end RegionHeap.Race
