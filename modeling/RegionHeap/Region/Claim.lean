import RegionHeap.Region.Basic

/-!
# Claims

A claim asks for between `min` and `desired` words. It takes as many as are
free, up to `desired`, from the cursor on, and is refused if that would be none
or fewer than `min`.

A claim has two halves. `propose` is what a claimant computes from the cursor
it has read. `claim` reads the cursor and moves it in one step; `ClaimPhase.step`
takes the same claim apart into its accesses to the cursor, so that other
claimants can come between them.
-/

namespace RegionHeap

/-- What a claim would take, and where it would leave the cursor. -/
structure Proposal where
  span : Span
  next : Nat
  deriving DecidableEq

namespace Region

/-- What a claim that has read the cursor at `top` would take. -/
def propose (r : Region) (top : Nat) (min desired : Nat) :
    Except Fault (Option Proposal) := do
  let room ← Word.sub r.limit top
  let available ← Word.div room r.wordBytes
  let words := Nat.min available desired
  if words = 0 ∨ words < min then
    return none
  else
    let bytes ← Word.mul words r.wordBytes
    let next ← Word.add top bytes
    return some { span := { start := top, words }, next }

/-- Take between `min` and `desired` words in one step. -/
def claim (r : Region) (min desired : Nat) : Except Fault (Option Span × Region) :=
  if desired < min then .error (.minExceedsDesired min desired)
  else do
    match ← r.propose r.top min desired with
    | none => return (none, r)
    | some p => return (some p.span, { r with top := p.next })

/-- The words that a claim of at most `desired` words finds beyond `top`. -/
def wordsFrom (r : Region) (top desired : Nat) : Nat :=
  Nat.min ((r.limit - top) / r.wordBytes) desired

/-- What is found fits between the cursor and the limit. -/
theorem wordsFrom_fits {r : Region} {top : Nat} (below : top ≤ r.limit) (desired : Nat) :
    top + r.wordsFrom top desired * r.wordBytes ≤ r.limit := by
  have found : r.wordsFrom top desired ≤ (r.limit - top) / r.wordBytes := Nat.min_le_left _ _
  have fits := Nat.le_trans (Nat.mul_le_mul_right r.wordBytes found)
    (Nat.div_mul_le_self (r.limit - top) r.wordBytes)
  omega

/-- With the cursor at or below the limit a proposal is never a fault. -/
theorem propose_eq_ok {r : Region} {top : Nat} (below : top ≤ r.limit)
    (word : r.limit < Word.bound) (positive : r.wordBytes ≠ 0) (min desired : Nat) :
    r.propose top min desired = .ok (
      if r.wordsFrom top desired = 0 ∨ r.wordsFrom top desired < min then none
      else some {
        span := { start := top, words := r.wordsFrom top desired }
        next := top + r.wordsFrom top desired * r.wordBytes }) := by
  have fits := wordsFrom_fits below desired
  have product : r.wordsFrom top desired * r.wordBytes < Word.bound := by omega
  have total : top + r.wordsFrom top desired * r.wordBytes < Word.bound := by omega
  unfold wordsFrom at product total
  unfold propose wordsFrom
  simp only [Word.sub_eq_ok below, Word.div_eq_ok positive, bind, Except.bind]
  split
  · rfl
  · simp only [Word.mul_eq_ok product, Word.add_eq_ok total]
    rfl

end Region

/-- How far a claim has come. -/
inductive ClaimPhase
  /-- The cursor has not been read. -/
  | unread
  /-- The cursor was read at this address and there was something to take. -/
  | read (top : Nat)
  deriving DecidableEq

/-- What one access to the cursor brings. -/
inductive ClaimProgress
  | pending (phase : ClaimPhase)
  | answered (result : Option Span)
  deriving DecidableEq

namespace ClaimPhase

/-- Go on from a cursor just read at `top`: give up if there is nothing to take. -/
def resume (r : Region) (top : Nat) (min desired : Nat) : Except Fault ClaimProgress := do
  match ← r.propose top min desired with
  | none => return .answered none
  | some _ => return .pending (.read top)

/-- One access of a claim to the cursor of `r`. The first access reads. Each
later one exchanges: if the cursor still is where it was read, and the exchange
does not fail for no reason, the proposal is taken; otherwise the exchange has
read the cursor anew. -/
def step (r : Region) (min desired : Nat) (spurious : Bool) :
    ClaimPhase → Except Fault (ClaimProgress × Region)
  | .unread =>
      if desired < min then .error (.minExceedsDesired min desired)
      else do
        let progress ← resume r r.top min desired
        return (progress, r)
  | .read top =>
      if r.top = top ∧ spurious = false then do
        match ← r.propose top min desired with
        | none => return (.answered none, r)
        | some p => return (.answered (some p.span), { r with top := p.next })
      else do
        let progress ← resume r r.top min desired
        return (progress, r)

end ClaimPhase

end RegionHeap
