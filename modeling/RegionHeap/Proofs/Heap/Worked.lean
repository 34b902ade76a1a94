import RegionHeap.Proofs.Heap.Orderly

/-!
# Work on a heap

Whoever works on a heap without resetting a region leaves every region in its place and takes
nothing back of what was handed out. So a region that is in use stays in use, and holds at
least the bytes that it held.
-/

namespace RegionHeap.Heap

variable {h h' h'' : Heap} {i bytes : Nat}

/-- The regions of the heap have been worked on, and the sentinel is as it was. -/
structure Worked (h h' : Heap) : Prop where
  geometry : h'.supply.geometry = h.supply.geometry
  sentinel : h'.sentinel = h.sentinel
  length : h'.supply.slots.length = h.supply.slots.length
  slots : ∀ {i : Nat} {slot : Slot}, h.supply.slots[i]? = some slot →
    ∃ slot', h'.supply.slots[i]? = some slot' ∧ slot.region.load ≤ slot'.region.load ∧
      slot'.region.Placed h.supply.geometry i

/-- The region is in use, and at least so many of its bytes are. -/
def Loaded (h : Heap) (i bytes : Nat) : Prop :=
  ∃ slot, h.supply.slots[i]? = some slot ∧ slot.region.load ≠ 0 ∧ bytes ≤ slot.region.load

/-- The regions listed are in use as far as they were, and the heap is as good as it was for
those who hold them. -/
structure Spares (held : List Nat) (h h' : Heap) : Prop where
  geometry : h'.supply.geometry = h.supply.geometry
  sentinel : h'.sentinel = h.sentinel
  allPlaced : h'.AllPlaced
  loaded : ∀ {i bytes : Nat}, i ∈ held → h.Loaded i bytes → h'.Loaded i bytes

namespace Spares

variable {held held' : List Nat}

theorem fewer (spares : Spares held h h') (fewer : ∀ i ∈ held', i ∈ held) : Spares held' h h' :=
  { spares with loaded := fun mem loaded => spares.loaded (fewer _ mem) loaded }

/-- Records and tallies do not matter. -/
theorem congr (allPlaced : h.AllPlaced) (slots : h'.supply.slots = h.supply.slots)
    (geometry : h'.supply.geometry = h.supply.geometry) (sentinel : h'.sentinel = h.sentinel) :
    Spares held h h' where
  geometry := geometry
  sentinel := sentinel
  allPlaced := by
    refine ⟨geometry ▸ allPlaced.sound, ?_, sentinel ▸ allPlaced.full,
      sentinel ▸ allPlaced.sentinelWord⟩
    intro i slot found
    rw [geometry]
    exact allPlaced.placed (slots ▸ found)
  loaded := fun _ ⟨slot, found, loaded⟩ => ⟨slot, slots ▸ found, loaded⟩

/-- Only one region is changed, and if it is held, nothing is taken back of it. -/
theorem set {slot slot' : Slot} (allPlaced : h.AllPlaced) (found : h.supply.slots[i]? = some slot)
    (slots : h'.supply.slots = h.supply.slots.set i slot')
    (geometry : h'.supply.geometry = h.supply.geometry) (sentinel : h'.sentinel = h.sentinel)
    (placed : slot'.region.Placed h.supply.geometry i)
    (le : i ∈ held → slot.region.load ≤ slot'.region.load) : Spares held h h' where
  geometry := geometry
  sentinel := sentinel
  allPlaced := by
    refine ⟨geometry ▸ allPlaced.sound, ?_, sentinel ▸ allPlaced.full,
      sentinel ▸ allPlaced.sentinelWord⟩
    intro j other there
    rw [geometry]
    rw [slots] at there
    obtain ⟨rfl, rfl⟩ | ⟨-, before⟩ := Supply.slots_set_cases there
    · exact placed
    · exact allPlaced.placed before
  loaded := by
    rintro j bytes mine ⟨other, there, used, enough⟩
    rw [Loaded, slots]
    obtain ⟨rfl, after⟩ | ⟨-, after⟩ := Supply.slots_set_of_slots i slot' there
    · cases found.symm.trans there
      have more := le mine
      exact ⟨slot', after, by omega, Nat.le_trans enough more⟩
    · exact ⟨other, after, used, enough⟩

end Spares

namespace Worked

theorem refl (allPlaced : h.AllPlaced) : h.Worked h :=
  ⟨rfl, rfl, rfl, fun found => ⟨_, found, Nat.le_refl _, allPlaced.placed found⟩⟩

theorem trans (first : h.Worked h') (second : h'.Worked h'') : h.Worked h'' where
  geometry := second.geometry.trans first.geometry
  sentinel := second.sentinel.trans first.sentinel
  length := second.length.trans first.length
  slots := by
    intro i slot found
    obtain ⟨slot', found', le, -⟩ := first.slots found
    obtain ⟨slot'', found'', le', placed⟩ := second.slots found'
    exact ⟨slot'', found'', Nat.le_trans le le', first.geometry ▸ placed⟩

/-- Only one region is worked on. -/
theorem set {slot slot' : Slot} (allPlaced : h.AllPlaced) (found : h.supply.slots[i]? = some slot)
    (slots : h'.supply.slots = h.supply.slots.set i slot')
    (geometry : h'.supply.geometry = h.supply.geometry) (sentinel : h'.sentinel = h.sentinel)
    (placed : slot'.region.Placed h.supply.geometry i)
    (le : slot.region.load ≤ slot'.region.load) : h.Worked h' where
  geometry := geometry
  sentinel := sentinel
  length := by rw [slots, List.length_set]
  slots := by
    intro j other here
    rw [slots]
    obtain ⟨rfl, after⟩ | ⟨-, after⟩ := Supply.slots_set_of_slots i slot' here
    · cases found.symm.trans here
      exact ⟨slot', after, le, placed⟩
    · exact ⟨other, after, Nat.le_refl _, allPlaced.placed here⟩

/-- Records and tallies do not matter. -/
theorem congr (allPlaced : h.AllPlaced) (slots : h'.supply.slots = h.supply.slots)
    (geometry : h'.supply.geometry = h.supply.geometry) (sentinel : h'.sentinel = h.sentinel) :
    h.Worked h' where
  geometry := geometry
  sentinel := sentinel
  length := by rw [slots]
  slots := fun found => ⟨_, slots ▸ found, Nat.le_refl _, allPlaced.placed found⟩

theorem allPlaced (worked : h.Worked h') (allPlaced : h.AllPlaced) : h'.AllPlaced where
  sound := worked.geometry ▸ allPlaced.sound
  placed := by
    intro i slot found
    have here : i < h.supply.slots.length :=
      worked.length ▸ (List.getElem?_eq_some_iff.1 found).1
    obtain ⟨slot', found', -, placed⟩ := worked.slots (List.getElem?_eq_getElem here)
    cases found.symm.trans found'
    exact worked.geometry ▸ placed
  full := worked.sentinel ▸ allPlaced.full
  sentinelWord := worked.sentinel ▸ allPlaced.sentinelWord

theorem loaded (worked : h.Worked h') (loaded : h.Loaded i bytes) : h'.Loaded i bytes := by
  obtain ⟨slot, found, used, enough⟩ := loaded
  obtain ⟨slot', found', le, -⟩ := worked.slots found
  exact ⟨slot', found', by omega, Nat.le_trans enough le⟩

/-- Work on a heap spares whatever is held. -/
theorem spares (worked : h.Worked h') (allPlaced : h.AllPlaced) (held : List Nat) :
    h.Spares held h' where
  geometry := worked.geometry
  sentinel := worked.sentinel
  allPlaced := worked.allPlaced allPlaced
  loaded := fun _ loaded => worked.loaded loaded

end Worked

end RegionHeap.Heap
