import Mathlib.Data.List.Nodup
import RegionHeap.Heap
import RegionHeap.Proofs.Region.Placed

/-!
# Orderly heaps

Every region of an orderly heap is in its place. It is free and empty, or held once
and not empty, or neither free nor held. Nobody waits at a free region, and the
sentinel has no room.
-/

namespace RegionHeap

/-- The positions of the table that a register names. -/
def Place.position? : Option Place → List Nat
  | some (.table i) => [i]
  | some .sentinel | none => []

@[simp] theorem Place.position?_none : Place.position? none = [] := rfl

@[simp] theorem Place.position?_sentinel : Place.position? (some .sentinel) = [] := rfl

@[simp] theorem Place.position?_table (i : Nat) : Place.position? (some (.table i)) = [i] := rfl

theorem Place.mem_position? {place : Option Place} {i : Nat} :
    i ∈ Place.position? place ↔ place = some (.table i) := by
  rcases place with _ | _ | j
  · simp
  · simp
  · simp [eq_comm]

/-- The regions that an arena holds, the active one first. -/
def Registers.regions (r : Registers) : List Nat :=
  Place.position? r.active ++ Place.position? r.retained

/-- A granted region is large enough and was first in the queue. -/
theorem Supply.free_of_grant {s : Supply} {words i : Nat} (hg : s.grant words = some i) :
    words ≤ s.geometry.regionWords ∧ s.free = i :: s.free.tail := by
  unfold Supply.grant at hg
  split at hg
  · cases hg
  · rename_i enough
    refine ⟨Nat.not_lt.1 enough, ?_⟩
    cases hf : s.free with
    | nil => simp [hf] at hg
    | cons j rest =>
        simp only [hf, List.head?_cons, Option.some.injEq] at hg
        simp [hg]

/-- Nothing is handed out of the region, and nobody waits for it. -/
structure Slot.Vacant (slot : Slot) : Prop where
  empty : slot.region.load = 0
  noRivals : slot.rivals = []
  clear : slot.region.fillers = []

namespace Heap

/-- Every region is in its place, and the sentinel has no room. -/
structure AllPlaced (h : Heap) : Prop where
  sound : h.supply.geometry.Sound
  placed : ∀ {i : Nat} {slot : Slot}, h.supply.slots[i]? = some slot →
    slot.region.Placed h.supply.geometry i
  full : h.sentinel.limit = h.sentinel.top
  sentinelWord : h.sentinel.wordBytes ≠ 0

/-- The heap is in order while the regions listed are held. -/
structure Orderly (h : Heap) (held : List Nat) : Prop where
  sound : h.supply.geometry.Sound
  placed : ∀ {i : Nat} {slot : Slot}, h.supply.slots[i]? = some slot → slot.region.Placed h.supply.geometry i
  full : h.sentinel.limit = h.sentinel.top
  sentinelWord : h.sentinel.wordBytes ≠ 0
  vacant : ∀ i ∈ h.supply.free, ∃ slot, h.supply.slots[i]? = some slot ∧ slot.Vacant
  occupied : ∀ i ∈ held, ∃ slot, h.supply.slots[i]? = some slot ∧ slot.region.load ≠ 0
  nodup : (h.supply.free ++ held).Nodup

namespace Orderly

variable {h h' : Heap} {held held' : List Nat} {i : Nat} {slot slot' : Slot}

theorem allPlaced (o : h.Orderly held) : h.AllPlaced :=
  ⟨o.sound, o.placed, o.full, o.sentinelWord⟩

/-- Records and tallies do not matter to the order of a heap. -/
theorem congr (o : h.Orderly held) (geometry : h'.supply.geometry = h.supply.geometry)
    (slots : h'.supply.slots = h.supply.slots) (free : h'.supply.free = h.supply.free)
    (sentinel : h'.sentinel = h.sentinel) : h'.Orderly held where
  sound := geometry ▸ o.sound
  placed := fun hs => by
    rw [geometry]
    exact o.placed (slots ▸ hs)
  full := sentinel ▸ o.full
  sentinelWord := sentinel ▸ o.sentinelWord
  vacant := by
    rw [free, slots]
    exact o.vacant
  occupied := by
    rw [slots]
    exact o.occupied
  nodup := free ▸ o.nodup

/-- Who holds a region is not written on the heap. -/
theorem perm (o : h.Orderly held) (hp : held.Perm held') : h.Orderly held' :=
  { o with
    occupied := fun i hi => o.occupied i (hp.mem_iff.2 hi)
    nodup := (List.Perm.append_left _ hp).nodup_iff.1 o.nodup }

/-- Holding fewer regions keeps the order. -/
theorem sublist (o : h.Orderly held) (hs : held'.Sublist held) : h.Orderly held' :=
  { o with
    occupied := fun i hi => o.occupied i (hs.subset hi)
    nodup := o.nodup.sublist ((List.Sublist.refl _).append hs) }

/-- A region that is neither free nor held and not empty can be held. -/
theorem cons (o : h.Orderly held) (hs : h.supply.slots[i]? = some slot)
    (full : slot.region.load ≠ 0) (notFree : i ∉ h.supply.free) (notHeld : i ∉ held) :
    h.Orderly (i :: held) :=
  { o with
    occupied := fun j hj => by
      rcases List.mem_cons.1 hj with rfl | hj
      · exact ⟨slot, hs, full⟩
      · exact o.occupied j hj
    nodup := by
      have fresh : i ∉ h.supply.free ++ held := fun hi =>
        (List.mem_append.1 hi).elim notFree notHeld
      exact List.perm_middle.nodup_iff.2 (List.nodup_cons.2 ⟨fresh, o.nodup⟩) }

theorem not_mem_free (o : h.Orderly held) (hi : i ∈ held) : i ∉ h.supply.free :=
  fun hf => (List.nodup_append.1 o.nodup).2.2 i hf i hi rfl

theorem nodup_free (o : h.Orderly held) : h.supply.free.Nodup :=
  (List.nodup_append.1 o.nodup).1

theorem nodup_held (o : h.Orderly held) : held.Nodup :=
  (List.nodup_append.1 o.nodup).2.1

/-- The first free region leaves the queue. -/
theorem pop (o : h.Orderly held) :
    ({ h with supply.free := h.supply.free.tail } : Heap).Orderly held :=
  { o with
    vacant := fun j hj => o.vacant j (List.mem_of_mem_tail hj)
    nodup := o.nodup.sublist ((List.tail_sublist _).append (List.Sublist.refl _)) }

theorem not_mem_tail (o : h.Orderly held) (first : h.supply.free = i :: h.supply.free.tail) :
    i ∉ h.supply.free.tail :=
  (List.nodup_cons.1 (first ▸ o.nodup_free)).1

theorem not_mem_held (o : h.Orderly held) (free : i ∈ h.supply.free) : i ∉ held :=
  fun hi => o.not_mem_free hi free

/-- A free region with no rival stays so, and any other may be used up further. -/
theorem put (o : h.Orderly held) (hs : h.supply.slots[i]? = some slot)
    (p : slot'.region.Placed h.supply.geometry i) (more : slot.region.load ≤ slot'.region.load)
    (noRivals : i ∈ h.supply.free → slot'.Vacant) :
    (h.put (.table i) slot').Orderly held where
  sound := o.sound
  placed := fun {j other} hj => by
    obtain ⟨rfl, rfl⟩ | ⟨-, before⟩ := Supply.slots_set_cases hj
    · exact p
    · exact o.placed before
  full := o.full
  sentinelWord := o.sentinelWord
  vacant := fun j hj => by
    obtain ⟨other, ho, empty⟩ := o.vacant j hj
    obtain ⟨rfl, after⟩ | ⟨-, after⟩ := Supply.slots_set_of_slots i slot' ho
    · exact ⟨slot', after, noRivals hj⟩
    · exact ⟨other, after, empty⟩
  occupied := fun j hj => by
    obtain ⟨other, ho, full⟩ := o.occupied j hj
    obtain ⟨rfl, after⟩ | ⟨-, after⟩ := Supply.slots_set_of_slots i slot' ho
    · cases hs.symm.trans ho
      exact ⟨slot', after, by omega⟩
    · exact ⟨other, after, full⟩
  nodup := o.nodup

end Orderly

end Heap

end RegionHeap
