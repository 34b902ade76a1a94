import RegionHeap.Supply
import RegionHeap.Evacuation
import RegionHeap.Diagnostics.Basic

/-!
# The shared heap and the registers of an arena

All arenas work on one heap: the supply of regions, the sentinel and the
evacuation tallies. Each arena has registers of its own, which say what it holds.
A store is the heap together with the registers of the one arena that is at work
and the transcript of what it has said so far.

A region is told by its place. Two regions at different places are different,
even if nothing else tells them apart.
-/

namespace RegionHeap

/-- Where a region is. -/
inductive Place
  /-- The region without capacity that stands in for "no region". -/
  | sentinel
  /-- The region at this position of the table. -/
  | table (i : Nat)
  deriving DecidableEq

/-- Whether the region at this place is the sentinel. Places tell, contents do
not. -/
def Place.isSentinel : Place → Bool
  | .sentinel => true
  | .table _ => false

/-- What all arenas share. -/
structure Heap where
  supply : Supply
  sentinel : Region
  evacuation : Evacuation := {}
  deriving DecidableEq

namespace Heap

/-- The region at a place. Nobody competes for the sentinel. -/
def find (h : Heap) : Place → Except Fault Slot
  | .sentinel => .ok { region := h.sentinel }
  | .table i => h.supply.slot i

/-- The heap with another region at a place. -/
def put (h : Heap) (place : Place) (slot : Slot) : Heap :=
  match place with
  | .sentinel => { h with sentinel := slot.region }
  | .table i => { h with supply := h.supply.setSlot i slot }

/-- How events speak of what an arena holds. -/
def label (h : Heap) : Option Place → HoldingLabel
  | none => .null
  | some .sentinel => .sentinel
  | some (.table i) =>
      match h.supply.slots[i]? with
      | some { region := r, .. } => .region r.index r.bottom r.top r.limit
      | none => .null

@[simp] theorem find_sentinel (h : Heap) :
    h.find .sentinel = .ok { region := h.sentinel } := rfl

theorem find_table_eq_ok_iff {h : Heap} {i : Nat} {slot : Slot} :
    h.find (.table i) = .ok slot ↔ h.supply.slots[i]? = some slot :=
  Supply.slot_eq_ok_iff

/-- What is put where there was a slot is found there. Nobody competes for the
sentinel, so rivals put there are gone. -/
theorem find_put_self {h : Heap} {place : Place} {old : Slot} (slot : Slot)
    (found : h.find place = .ok old) :
    (h.put place slot).find place =
      .ok (if place.isSentinel then { region := slot.region } else slot) := by
  cases place with
  | sentinel => rfl
  | table i =>
    have hi : i < h.supply.slots.length :=
      (List.getElem?_eq_some_iff.1 (find_table_eq_ok_iff.1 found)).1
    exact Supply.slot_setSlot_self slot hi

/-- The other places keep what they have. -/
theorem find_put_of_ne {h : Heap} {place other : Place} (slot : Slot)
    (ne : other ≠ place) : (h.put place slot).find other = h.find other := by
  cases place with
  | sentinel =>
    cases other with
    | sentinel => exact absurd rfl ne
    | table j => rfl
  | table i =>
    cases other with
    | sentinel => rfl
    | table j => exact Supply.slot_setSlot_of_ne slot fun e => ne (e ▸ rfl)

@[simp] theorem put_evacuation (h : Heap) (place : Place) (slot : Slot) :
    (h.put place slot).evacuation = h.evacuation := by
  cases place <;> rfl

@[simp] theorem put_free (h : Heap) (place : Place) (slot : Slot) :
    (h.put place slot).supply.free = h.supply.free := by
  cases place <;> rfl

@[simp] theorem put_geometry (h : Heap) (place : Place) (slot : Slot) :
    (h.put place slot).supply.geometry = h.supply.geometry := by
  cases place <;> rfl

@[simp] theorem put_slots_length (h : Heap) (place : Place) (slot : Slot) :
    (h.put place slot).supply.slots.length = h.supply.slots.length := by
  cases place <;> simp [put, Supply.setSlot]

end Heap

/-- What an arena holds and what it has counted. -/
structure Registers where
  /-- The place it allocates from; none before it is started. -/
  active : Option Place := none
  /-- The regions installed since it was started. -/
  count : Nat := 0
  /-- The region put aside for later requests. -/
  retained : Option Place := none
  /-- The bytes wasted since it was started. -/
  wasted : Nat := 0
  /-- The bytes that the active region held when it was installed. -/
  baseline : Nat := 0
  deriving DecidableEq

namespace Registers

/-- The place of the active region; none for the sentinel. -/
def held (r : Registers) : Option Place :=
  match r.active with
  | some (.table i) => some (.table i)
  | some .sentinel | none => none

end Registers

/-- The heap as one arena sees it while it works. -/
structure Store where
  registers : Registers
  heap : Heap
  transcript : List Entry := []
  deriving DecidableEq

namespace Store

/-- The store with an entry added to the transcript. -/
def say (s : Store) (entry : Entry) : Store :=
  { s with transcript := s.transcript ++ [entry] }

/-- An event about the arena called `name`, as it stands now. -/
def event (s : Store) (name : String) (moment : Moment) (sizes : Option Sizes) : Event :=
  { arena := name
    count := s.registers.count
    holding := s.heap.label s.registers.active
    moment
    sizes }

end Store

end RegionHeap
