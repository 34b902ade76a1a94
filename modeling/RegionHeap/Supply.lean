import RegionHeap.Geometry
import RegionHeap.Region.Claim

/-!
# The supply of regions

A fixed table of regions and a queue of those that are free. Arenas request
regions from the front of the queue and hand retired regions back. A region that
is handed back is recorded, and is not free again until it is recycled. Every
request and every return stays on record.

A table slot can hold *rivals*: claims of other threads that come in just when
somebody claims all that the region has left.
-/

namespace RegionHeap

/-- A region of the table, with the words that each awaited rival will claim. -/
structure Slot where
  region : Region
  rivals : List Nat := []
  deriving DecidableEq

namespace Slot

/-- The slot after the next rival has come first to a claim, if one does. Rivals
come in only when the claim is for exactly the words that are left. -/
def forestall (s : Slot) (min desired : Nat) : Except Fault (Option Slot) :=
  match s.rivals with
  | [] => .ok none
  | rival :: rest => do
      let left ← s.region.freeInWords
      if min = desired ∧ min = left then
        let (_, region) ← s.region.claim rival rival
        return some { region, rivals := rest }
      else return none

/-- Claim from the region. A claim that a rival forestalls is refused. -/
def claim (s : Slot) (min desired : Nat) : Except Fault (Option Span × Slot) := do
  match ← s.forestall min desired with
  | some slot => return (none, slot)
  | none =>
      let (span, region) ← s.region.claim min desired
      return (span, { s with region })

/-- One access of a claim to the cursor. A rival comes in before the first. -/
def step (s : Slot) (min desired : Nat) (spurious : Bool) (phase : ClaimPhase) :
    Except Fault (ClaimProgress × Slot) := do
  match ← if phase = .unread then s.forestall min desired else .ok none with
  | some slot => return (.answered none, slot)
  | none =>
      let (progress, region) ← phase.step s.region min desired spurious
      return (progress, { s with region })

/-- Nobody forestalls a claim where no rival waits. -/
@[simp] theorem forestall_of_rivals_eq_nil {s : Slot} (h : s.rivals = [])
    (min desired : Nat) : s.forestall min desired = .ok none := by
  unfold forestall
  rw [h]

/-- Where no rival waits, a claim is one on the region. -/
theorem claim_of_rivals_eq_nil {s : Slot} (h : s.rivals = []) (min desired : Nat) :
    s.claim min desired =
      (s.region.claim min desired).map fun r => (r.1, { s with region := r.2 }) := by
  unfold claim
  rw [forestall_of_rivals_eq_nil h]
  simp only [bind, Except.bind]
  cases s.region.claim min desired <;> rfl

/-- Where no rival waits, an access is one to the region's cursor. -/
theorem step_of_rivals_eq_nil {s : Slot} (h : s.rivals = []) (min desired : Nat)
    (spurious : Bool) (phase : ClaimPhase) :
    s.step min desired spurious phase =
      (phase.step s.region min desired spurious).map fun r =>
        (r.1, { s with region := r.2 }) := by
  unfold step
  rw [forestall_of_rivals_eq_nil h, ite_self]
  simp only [bind, Except.bind]
  cases phase.step s.region min desired spurious <;> rfl

end Slot

/-- A request for a region, with the region granted, if any. -/
structure Request where
  words : Nat
  purpose : Option Purpose
  node : Nat
  granted : Option Nat
  deriving DecidableEq

/-- An application's region on its way back. -/
structure MutatorReturn where
  region : Nat
  usedBytes : Nat
  deriving DecidableEq

/-- A collection's region on its way back, with the bytes that were copied into
it since it was acquired. -/
structure CollectorReturn where
  region : Nat
  allocatedBytes : Nat
  purpose : Purpose
  deriving DecidableEq

/-- The region table with its queue and its records. -/
structure Supply where
  geometry : Geometry
  slots : List Slot
  free : List Nat
  requests : List Request := []
  mutatorReturns : List MutatorReturn := []
  collectorReturns : List CollectorReturn := []
  deriving DecidableEq

namespace Supply

/-- A table of `count` empty regions, all of them free. -/
def new (geometry : Geometry) (count : Nat) : Except Fault Supply :=
  match geometry.validate with
  | .error why => .error (.unusableGeometry why)
  | .ok () => do
      let regions ← geometry.regionsFrom 0 count
      return {
        geometry
        slots := regions.map fun region => { region }
        free := List.range count }

/-- The slot at `i`. -/
def slot (s : Supply) (i : Nat) : Except Fault Slot :=
  match s.slots[i]? with
  | some slot => .ok slot
  | none => .error (.indexOutOfBounds s.slots.length i)

/-- The table with another slot at `i`. -/
def setSlot (s : Supply) (i : Nat) (slot : Slot) : Supply :=
  { s with slots := s.slots.set i slot }

/-- Which region the next request for `words` words gets. -/
def grant (s : Supply) (words : Nat) : Option Nat :=
  if s.geometry.regionWords < words then none else s.free.head?

/-- Ask for a region of at least `words` words. -/
def request (s : Supply) (words : Nat) (purpose : Option Purpose) (node : Nat) :
    Option Nat × Supply :=
  let granted := s.grant words
  (granted,
    { s with
      free := if granted.isSome then s.free.tail else s.free
      requests := s.requests ++ [{ words, purpose, node, granted }] })

/-- Take an application's region back. -/
def takeBack (s : Supply) (region : Nat) (usedBytes : Nat) : Supply :=
  { s with mutatorReturns := s.mutatorReturns ++ [{ region, usedBytes }] }

/-- Take a collection's region back. -/
def takeBackFrom (s : Supply) (purpose : Purpose) (region : Nat)
    (allocatedBytes : Nat) : Supply :=
  { s with
    collectorReturns := s.collectorReturns ++ [{ region, allocatedBytes, purpose }] }

/-- Have no free regions any more. -/
def exhaust (s : Supply) : Supply :=
  { s with free := [] }

/-- Reset region `i` and put it at the end of the queue. -/
def recycle (s : Supply) (i : Nat) : Except Fault Supply := do
  let slot ← s.slot i
  let s := s.setSlot i { slot with region := slot.region.reset }
  return { s with free := s.free ++ [i] }

/-- Let a rival for `words` words wait at region `i`. -/
def addRival (s : Supply) (i : Nat) (words : Nat) : Except Fault Supply := do
  let slot ← s.slot i
  return s.setSlot i { slot with rivals := slot.rivals ++ [words] }

theorem slot_setSlot_self {s : Supply} {i : Nat} (slot : Slot)
    (h : i < s.slots.length) : (s.setSlot i slot).slot i = .ok slot := by
  simp [Supply.slot, setSlot, h]

theorem slot_setSlot_of_ne {s : Supply} {i j : Nat} (slot : Slot) (h : j ≠ i) :
    (s.setSlot j slot).slot i = s.slot i := by
  simp [Supply.slot, setSlot, List.getElem?_set_ne h]

/-- What is found after one slot was set is that slot, or it was there before. -/
theorem slots_set_cases {slots : List Slot} {i j : Nat} {slot other : Slot}
    (after : (slots.set i slot)[j]? = some other) :
    (j = i ∧ other = slot) ∨ (j ≠ i ∧ slots[j]? = some other) := by
  by_cases eq : j = i
  · subst eq
    have inside := (List.getElem?_eq_some_iff.1 after).1
    rw [List.length_set] at inside
    rw [List.getElem?_set_self inside] at after
    exact .inl ⟨rfl, (Option.some.inj after).symm⟩
  · exact .inr ⟨eq, (List.getElem?_set_ne (Ne.symm eq)).symm.trans after⟩

/-- Where there was a slot, the one that was set is found or the same as before. -/
theorem slots_set_of_slots {slots : List Slot} (i : Nat) (slot : Slot) {j : Nat} {old : Slot}
    (before : slots[j]? = some old) :
    (j = i ∧ (slots.set i slot)[j]? = some slot) ∨
      (j ≠ i ∧ (slots.set i slot)[j]? = some old) := by
  by_cases eq : j = i
  · subst eq
    exact .inl ⟨rfl, List.getElem?_set_self (List.getElem?_eq_some_iff.1 before).1⟩
  · exact .inr ⟨eq, (List.getElem?_set_ne (Ne.symm eq)).trans before⟩

theorem slot_eq_ok_iff {s : Supply} {i : Nat} {slot : Slot} :
    s.slot i = .ok slot ↔ s.slots[i]? = some slot := by
  unfold Supply.slot
  split <;> simp_all

end Supply

end RegionHeap
