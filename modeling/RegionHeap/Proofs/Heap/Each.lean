import RegionHeap.Proofs.Region.Work

/-!
# Steps are work on the regions

What no work on a region takes away, no step of a program and no access to a cursor takes away
from a region of the table, whatever contract it breaks and whoever waits at the region. Above
all no step takes a cursor out of its region or an end away from its place.
-/

namespace RegionHeap

namespace Slot

variable {slot slot' : Slot} {P : Region → Prop} {least min desired : Nat}

theorem forestall_keptByWork (keptByWork : Region.KeptByWork P) (holds : P slot.region)
    (h : slot.forestall min desired = .ok (some slot')) : P slot'.region := by
  unfold forestall at h
  split at h
  · cases h
  · obtain ⟨left, -, h⟩ := Except.bind_eq_ok h
    split at h
    · obtain ⟨⟨span, region⟩, claimed, h⟩ := Except.bind_eq_ok h
      cases h
      exact keptByWork.stepped holds ((keptByWork.inBounds holds).stepped_of_claim claimed)
    · cases h

/-- A claim is work on the region, also if a rival comes first. -/
theorem claim_keptByWork (keptByWork : Region.KeptByWork P) (holds : P slot.region)
    {span : Option Span}
    (h : slot.claim min desired = .ok (span, slot')) : P slot'.region := by
  obtain ⟨first, forestalled, h⟩ := Except.bind_eq_ok h
  cases first with
  | some slot =>
      cases h
      exact forestall_keptByWork keptByWork holds forestalled
  | none =>
      obtain ⟨⟨span, region⟩, claimed, h⟩ := Except.bind_eq_ok h
      cases h
      exact keptByWork.stepped holds ((keptByWork.inBounds holds).stepped_of_claim claimed)

/-- So is an access to the cursor. -/
theorem step_keptByWork (keptByWork : Region.KeptByWork P) (holds : P slot.region)
    {phase : ClaimPhase}
    {spurious : Bool} {progress : ClaimProgress}
    (h : slot.step min desired spurious phase = .ok (progress, slot')) : P slot'.region := by
  have own (h : ((phase.step slot.region min desired spurious).bind fun r =>
      .ok (r.1, { slot with region := r.2 })) = .ok (progress, slot')) : P slot'.region := by
    obtain ⟨⟨progress, region⟩, accessed, h⟩ := Except.bind_eq_ok h
    cases h
    exact keptByWork.stepped holds ((keptByWork.inBounds holds).access accessed)
  simp only [step] at h
  split at h
  · obtain ⟨first, forestalled, h⟩ := Except.bind_eq_ok h
    cases first with
    | some slot =>
        cases h
        exact forestall_keptByWork keptByWork holds forestalled
    | none => exact own h
  · exact own h

end Slot

/-- There are `n` regions in the table, and every one has the property of its position. -/
structure Heap.Each (n : Nat) (P : Nat → Region → Prop) (h : Heap) : Prop where
  length : h.supply.slots.length = n
  holds : ∀ {i slot}, h.supply.slots[i]? = some slot → P i slot.region

/-- The ends of every region of the table are less than `least` bytes apart. -/
def Heap.NarrowerThan (least : Nat) (h : Heap) : Prop :=
  ∀ slot ∈ h.supply.slots, slot.region.NarrowerThan least

variable {n : Nat} {P : Nat → Region → Prop}

namespace Heap

variable {h h' : Heap} {least : Nat} {place : Place} {slot slot' : Slot}

theorem NarrowerThan.each (narrow : h.NarrowerThan least) :
    h.Each h.supply.slots.length fun _ => Region.NarrowerThan least :=
  ⟨rfl, fun found => narrow _ (List.mem_of_getElem? found)⟩

theorem NarrowerThan.find (narrow : h.NarrowerThan least) {i : Nat}
    (found : h.find (.table i) = .ok slot) :
    slot.region.NarrowerThan least :=
  narrow slot (List.mem_of_getElem? (Heap.find_table_eq_ok_iff.1 found))

namespace Each

theorem narrow (each : h.Each n fun _ => Region.NarrowerThan least) : h.NarrowerThan least := by
  intro slot mem
  obtain ⟨i, found⟩ := List.getElem?_of_mem mem
  exact each.holds found

theorem congr (each : h.Each n P) (slots : h'.supply.slots = h.supply.slots) : h'.Each n P :=
  ⟨slots ▸ each.length, fun found => each.holds (slots ▸ found)⟩

theorem set (each : h.Each n P) {i : Nat} (slot : Slot) (holds : P i slot.region)
    (slots : h'.supply.slots = h.supply.slots.set i slot) : h'.Each n P := by
  constructor
  · rw [slots, List.length_set]
    exact each.length
  · intro j other found
    rw [slots] at found
    obtain ⟨rfl, rfl⟩ | ⟨-, before⟩ := Supply.slots_set_cases found
    · exact holds
    · exact each.holds before

/-- The sentinel is not of the table, so what is put there does not matter. -/
theorem put (each : h.Each n P) (found : h.find place = .ok slot)
    (keeps : ∀ i, P i slot.region → P i slot'.region) : (h.put place slot').Each n P := by
  cases place with
  | sentinel => exact each.congr rfl
  | table i => exact each.set slot' (keeps i (each.holds (find_table_eq_ok_iff.1 found))) rfl

end Each

end Heap

namespace Step

variable {s s' : Store} {least : Nat}

theorem onRegion_each (keptByWork : ∀ i, Region.KeptByWork (P i)) (each : s.heap.Each n P)
    {place : Place} {f : Region → Except Fault Region}
    (redraws : ∀ r r', f r = .ok r' → r.Redrawn r') {answer : Unit}
    (performed : onRegion s place f = .ok (answer, s')) : s'.heap.Each n P := by
  obtain ⟨slot, found, performed⟩ := Except.bind_eq_ok performed
  obtain ⟨region, drawn, performed⟩ := Except.bind_eq_ok performed
  cases performed
  exact each.put found fun i holds => (keptByWork i).stepped holds (.redrawn (redraws _ _ drawn))

/-- Whatever a step does to the regions of the table is work on them. -/
theorem perform_each (keptByWork : ∀ i, Region.KeptByWork (P i)) {st : Step} {answer : st.Answer}
    (each : s.heap.Each n P) (performed : st.perform s = .ok (answer, s')) : s'.heap.Each n P := by
  cases st with
  | look place =>
      obtain ⟨slot, -, performed⟩ := Except.bind_eq_ok performed
      cases performed
      exact each
  | claim place min desired =>
      obtain ⟨slot, found, performed⟩ := Except.bind_eq_ok performed
      obtain ⟨⟨span, slot'⟩, claimed, performed⟩ := Except.bind_eq_ok performed
      cases performed
      exact each.put found fun i holds => Slot.claim_keptByWork (keptByWork i) holds claimed
  | addFiller place filler =>
      exact onRegion_each keptByWork each (fun _ _ => Region.addFiller_redrawn) performed
  | mark place address =>
      refine onRegion_each (f := fun r => .ok (r.mark address)) keptByWork each (fun r r' eq => ?_)
        performed
      cases eq
      exact ⟨rfl, rfl, rfl, rfl, rfl⟩
  | unmark place =>
      refine onRegion_each (f := fun r => .ok r.unmark) keptByWork each
        (fun r r' eq => ?_) performed
      cases eq
      exact ⟨rfl, rfl, rfl, rfl, rfl⟩
  | _ =>
      cases performed
      exact each.congr rfl

/-- Every step leaves the regions of the table as narrow as they were. -/
theorem perform_narrow {st : Step} {answer : st.Answer} (narrow : s.heap.NarrowerThan least)
    (performed : st.perform s = .ok (answer, s')) : s'.heap.NarrowerThan least :=
  (perform_each (fun _ => Region.NarrowerThan.keptByWork least) narrow.each performed).narrow

end Step

end RegionHeap
