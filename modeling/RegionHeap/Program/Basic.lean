import RegionHeap.Heap

/-!
# Programs of atomic steps

An arena works in steps, each of which touches the shared heap or the arena's
registers once. A program is a tree of such steps: it ends with a value or a
fault, or it takes a step and goes on as the answer tells.

Run by itself, a program takes its steps one after the other. What it did before
a fault stays done. Among threads, the steps of several programs interleave; then
a claim is not one step either, but several accesses to a cursor.
-/

namespace RegionHeap

/-- What a program can do in one step. -/
inductive Step
  | loadActive
  | storeActive (place : Option Place)
  | loadCount
  | clearCount
  | bumpCount
  | loadRetained
  | storeRetained (place : Option Place)
  | loadWasted
  | clearWasted
  | addWasted (bytes : Nat)
  | loadBaseline
  | storeBaseline (bytes : Nat)
  /-- Read a region, cursor included. -/
  | look (place : Place)
  | claim (place : Place) (min desired : Nat)
  | addFiller (place : Place) (filler : Span)
  | mark (place : Place) (address : Nat)
  | unmark (place : Place)
  | request (words : Nat) (purpose : Option Purpose) (node : Nat)
  | takeBack (region : Nat) (usedBytes : Nat)
  | takeBackFrom (purpose : Purpose) (region : Nat) (allocatedBytes : Nat)
  | tally (purpose : Purpose) (words : Nat)
  /-- Report an event about the arena of this name. -/
  | report (name : String) (moment : Moment) (sizes : Option Sizes)
  /-- Report the totals of a tenancy. -/
  | summarise (regions wastedBytes regionBytes : Nat)
  deriving DecidableEq

namespace Step

/-- What a step is answered with. -/
@[reducible]
def Answer : Step → Type
  | loadActive | loadRetained => Option Place
  | loadCount | loadWasted | loadBaseline => Nat
  | look _ => Slot
  | claim .. => Option Span
  | request .. => Option Nat
  | _ => Unit

/-- Do something to the region at a place. -/
def onRegion (s : Store) (place : Place) (f : Region → Except Fault Region) :
    Except Fault (Unit × Store) := do
  let slot ← s.heap.find place
  let region ← f slot.region
  return ((), { s with heap := s.heap.put place { slot with region } })

/-- Take a step. A step that is a fault changes nothing. -/
def perform (s : Store) : (step : Step) → Except Fault (step.Answer × Store)
  | loadActive => .ok (s.registers.active, s)
  | storeActive place => .ok ((), { s with registers.active := place })
  | loadCount => .ok (s.registers.count, s)
  | clearCount => .ok ((), { s with registers.count := 0 })
  | bumpCount =>
      .ok ((), { s with registers.count := Word.wrapSucc32 s.registers.count })
  | loadRetained => .ok (s.registers.retained, s)
  | storeRetained place => .ok ((), { s with registers.retained := place })
  | loadWasted => .ok (s.registers.wasted, s)
  | clearWasted => .ok ((), { s with registers.wasted := 0 })
  | addWasted bytes =>
      .ok ((), { s with registers.wasted := Waste.add s.registers.wasted bytes })
  | loadBaseline => .ok (s.registers.baseline, s)
  | storeBaseline bytes => .ok ((), { s with registers.baseline := bytes })
  | look place => do
      let slot ← s.heap.find place
      return (slot, s)
  | claim place min desired => do
      let slot ← s.heap.find place
      let (span, slot) ← slot.claim min desired
      return (span, { s with heap := s.heap.put place slot })
  | addFiller place filler => onRegion s place fun r => r.addFiller filler
  | mark place address => onRegion s place fun r => .ok (r.mark address)
  | unmark place => onRegion s place fun r => .ok r.unmark
  | request words purpose node =>
      let (granted, supply) := s.heap.supply.request words purpose node
      .ok (granted, { s with heap.supply := supply })
  | takeBack region usedBytes =>
      .ok ((), { s with heap.supply := s.heap.supply.takeBack region usedBytes })
  | takeBackFrom purpose region allocatedBytes =>
      .ok ((), { s with
        heap.supply := s.heap.supply.takeBackFrom purpose region allocatedBytes })
  | tally purpose words =>
      .ok ((), { s with heap.evacuation := s.heap.evacuation.add purpose words })
  | report name moment sizes => .ok ((), s.say (.event (s.event name moment sizes)))
  | summarise regions wastedBytes regionBytes =>
      .ok ((), s.say (.summary regions wastedBytes regionBytes))

theorem perform_look (s : Store) (place : Place) :
    (look place).perform s = (s.heap.find place).map fun slot => (slot, s) := by
  rw [perform]
  cases s.heap.find place <;> rfl

theorem perform_claim (s : Store) (place : Place) (min desired : Nat) :
    (claim place min desired).perform s =
      (s.heap.find place).bind fun slot =>
        (slot.claim min desired).map fun r =>
          (r.1, { s with heap := s.heap.put place r.2 }) := by
  rw [perform]
  cases s.heap.find place with
  | error fault => rfl
  | ok slot =>
    simp only [bind, Except.bind]
    cases slot.claim min desired <;> rfl

/-- What is done to a region is done to its slot's region and to nothing else. -/
theorem onRegion_eq (s : Store) (place : Place) (f : Region → Except Fault Region) :
    onRegion s place f =
      (s.heap.find place).bind fun slot =>
        (f slot.region).map fun region =>
          ((), { s with heap := s.heap.put place { slot with region } }) := by
  unfold onRegion
  cases s.heap.find place with
  | error fault => rfl
  | ok slot =>
    simp only [bind, Except.bind]
    cases f slot.region <;> rfl

end Step

/-- A tree of steps that ends with a value or a fault. -/
inductive Program (α : Type) : Type
  | done (value : α)
  | fail (fault : Fault)
  | step (step : Step) (next : step.Answer → Program α)

namespace Program

variable {α β : Type}

/-- Go on with the value of a program. -/
def bind : Program α → (α → Program β) → Program β
  | done value, f => f value
  | fail fault, _ => fail fault
  | step s next, f => step s fun answer => (next answer).bind f

instance : Monad Program where
  pure := done
  bind := bind

@[simp] theorem pure_eq (a : α) : (pure a : Program α) = done a := rfl

@[simp] theorem done_bind (a : α) (f : α → Program β) : (done a >>= f) = f a := rfl

@[simp] theorem fail_bind (e : Fault) (f : α → Program β) :
    (fail e >>= f) = (fail e : Program β) := rfl

@[simp] theorem step_bind (s : Step) (next : s.Answer → Program α) (f : α → Program β) :
    (step s next >>= f) = step s fun answer => next answer >>= f := rfl

theorem bind_done (x : Program α) : (x >>= done) = x := by
  induction x with
  | done a => rfl
  | fail e => rfl
  | step s next ih => exact congrArg (step s) (funext ih)

theorem bind_assoc {γ : Type} (x : Program α) (f : α → Program β) (g : β → Program γ) :
    (x >>= f >>= g) = x >>= fun a => f a >>= g := by
  induction x with
  | done a => rfl
  | fail e => rfl
  | step s next ih => exact congrArg (step s) (funext ih)

instance : LawfulMonad Program :=
  LawfulMonad.mk' Program bind_done (fun _ _ => rfl) bind_assoc

/-- Take all steps of a program without interruption. -/
def run : Program α → Store → Except Fault α × Store
  | done value, s => (.ok value, s)
  | fail fault, s => (.error fault, s)
  | step st next, s =>
      match st.perform s with
      | .ok (answer, s) => (next answer).run s
      | .error fault => (.error fault, s)

@[simp] theorem run_done (a : α) (s : Store) : (done a).run s = (.ok a, s) := rfl

@[simp] theorem run_fail (e : Fault) (s : Store) :
    (fail e : Program α).run s = (.error e, s) := rfl

theorem run_step (st : Step) (next : st.Answer → Program α) (s : Store) :
    (step st next).run s =
      match st.perform s with
      | .ok (answer, s) => (next answer).run s
      | .error fault => (.error fault, s) := by
  rw [run]

/-- A sequence runs its first part, and its second part only if there was no
fault. -/
theorem run_bind (x : Program α) (f : α → Program β) (s : Store) :
    (x >>= f).run s =
      match x.run s with
      | (.ok a, s) => (f a).run s
      | (.error fault, s) => (.error fault, s) := by
  induction x generalizing s with
  | done a => rfl
  | fail e => rfl
  | step st next ih =>
    simp only [step_bind, run_step]
    cases st.perform s with
    | error e => rfl
    | ok r => exact ih r.1 r.2

/-- A property that every step keeps is kept by every run, also by one that ends
in a fault. -/
theorem run_invariant (inv : Store → Prop)
    (keep : ∀ (st : Step) (s s' : Store) (answer : st.Answer),
      inv s → st.perform s = .ok (answer, s') → inv s')
    (x : Program α) {s : Store} (h : inv s) : inv (x.run s).2 := by
  induction x generalizing s with
  | done a => exact h
  | fail e => exact h
  | step st next ih =>
    rw [run_step]
    cases hp : st.perform s with
    | error e => exact h
    | ok r => exact ih r.1 (keep st s r.2 r.1 h hp)

/-! ## Steps as programs -/

/-- Take one step and answer as it does. -/
def perform (s : Step) : Program s.Answer :=
  step s done

theorem run_perform (st : Step) (s : Store) :
    (perform st).run s =
      match st.perform s with
      | .ok (answer, s) => (.ok answer, s)
      | .error fault => (.error fault, s) := by
  rw [perform, run_step]
  cases st.perform s <;> rfl

/-- A computed value, or the fault of computing it. -/
def compute : Except Fault α → Program α
  | .ok a => done a
  | .error e => fail e

@[simp] theorem compute_ok (a : α) : compute (.ok a) = done a := rfl

@[simp] theorem compute_error (e : Fault) : compute (.error e : Except Fault α) = fail e := rfl

/-- Stop unless `p` holds. -/
def require (p : Prop) [Decidable p] (otherwise : Fault) : Program Unit :=
  if p then done () else fail otherwise

/-- The place that the arena allocates from. -/
def active : Program (Option Place) :=
  perform .loadActive

/-- Allocate from this place from now on. -/
def activate (place : Option Place) : Program Unit :=
  perform (.storeActive place)

/-- The place of the region put aside. -/
def retained : Program (Option Place) :=
  perform .loadRetained

/-- Put this region aside. -/
def retain (place : Option Place) : Program Unit :=
  perform (.storeRetained place)

/-- The number of regions installed. -/
def count : Program Nat :=
  perform .loadCount

/-- The bytes wasted. -/
def wasted : Program Nat :=
  perform .loadWasted

/-- Count this many more bytes as wasted. -/
def waste (bytes : Nat) : Program Unit :=
  perform (.addWasted bytes)

/-- The slot at a place, as it is now. -/
def look (place : Place) : Program Slot :=
  perform (.look place)

/-- The free bytes of the region at a place. -/
def freeBytes (place : Place) : Program Nat := do
  let slot ← look place
  compute slot.region.free

/-- The used bytes of the region at a place. -/
def usedBytes (place : Place) : Program Nat := do
  let slot ← look place
  compute slot.region.used

/-- Claim words of the region at a place. -/
def claim (place : Place) (min desired : Nat) : Program (Option Span) :=
  perform (.claim place min desired)

/-! ## How the steps run -/

@[simp] theorem run_compute (x : Except Fault α) (s : Store) :
    (compute x).run s = (x, s) := by
  cases x <;> rfl

@[simp] theorem run_require (p : Prop) [Decidable p] (fault : Fault) (s : Store) :
    (require p fault).run s = (if p then .ok () else .error fault, s) := by
  unfold require
  split <;> rfl

@[simp] theorem run_active (s : Store) : active.run s = (.ok s.registers.active, s) := rfl

@[simp] theorem run_activate (place : Option Place) (s : Store) :
    (activate place).run s = (.ok (), { s with registers.active := place }) := rfl

@[simp] theorem run_retained (s : Store) : retained.run s = (.ok s.registers.retained, s) := rfl

@[simp] theorem run_retain (place : Option Place) (s : Store) :
    (retain place).run s = (.ok (), { s with registers.retained := place }) := rfl

@[simp] theorem run_count (s : Store) : count.run s = (.ok s.registers.count, s) := rfl

@[simp] theorem run_wasted (s : Store) : wasted.run s = (.ok s.registers.wasted, s) := rfl

@[simp] theorem run_waste (bytes : Nat) (s : Store) :
    (waste bytes).run s =
      (.ok (), { s with registers.wasted := Waste.add s.registers.wasted bytes }) := rfl

@[simp] theorem run_look (place : Place) (s : Store) :
    (look place).run s = (s.heap.find place, s) := by
  rw [look, run_perform, Step.perform_look]
  cases s.heap.find place <;> rfl

@[simp] theorem run_freeBytes (place : Place) (s : Store) :
    (freeBytes place).run s =
      ((do let slot ← s.heap.find place; slot.region.free), s) := by
  rw [freeBytes, run_bind, run_look]
  cases s.heap.find place with
  | error fault => rfl
  | ok slot => exact run_compute slot.region.free s

@[simp] theorem run_usedBytes (place : Place) (s : Store) :
    (usedBytes place).run s =
      ((do let slot ← s.heap.find place; slot.region.used), s) := by
  rw [usedBytes, run_bind, run_look]
  cases s.heap.find place with
  | error fault => rfl
  | ok slot => exact run_compute slot.region.used s

/-- A claim changes the region at its place and nothing else. -/
theorem run_claim {place : Place} {slot after : Slot} {span : Option Span} {s : Store}
    {min desired : Nat} (found : s.heap.find place = .ok slot)
    (claimed : slot.claim min desired = .ok (span, after)) :
    (claim place min desired).run s =
      (.ok span, { s with heap := s.heap.put place after }) := by
  rw [claim, run_perform, Step.perform_claim, found]
  simp only [Except.bind, claimed, Except.map]

end Program

end RegionHeap
