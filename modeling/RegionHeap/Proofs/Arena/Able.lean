import RegionHeap.Proofs.Arena.Books
import RegionHeap.Proofs.Heap.Worked

/-!
# Arenas that are able

An arena is able if the regions that it holds are in their places and not empty, and its
registers agree with the heap. That is enough for claims and retirements to come to an end,
whatever is free and whoever else holds the same regions. Every deed leaves the arena able, and
leaves the regions of the heap with at least the words that they had handed out.
-/

namespace RegionHeap

namespace Arena

/-- The arena can claim of what it holds, and can give it up. -/
structure Able (a : Arena) (s : Store) : Prop where
  suits : a.Suits s.heap.supply.geometry
  allPlaced : s.heap.AllPlaced
  occupied : ∀ i ∈ s.registers.regions, s.heap.Loaded i 0
  agree : a.RegistersAgree s.heap s.registers

variable {a : Arena} {others : List Nat} {s s' : Store} {d : Deed} {ds : List Deed} {i : Nat}

theorem Ready.able (r : a.Ready others s) : a.Able s where
  suits := r.suits
  allPlaced := r.order.allPlaced
  occupied := by
    intro i mine
    obtain ⟨slot, here, full⟩ := r.slot_of_mem mine
    exact ⟨slot, here, full, Nat.zero_le _⟩
  agree := r.agree

namespace Able

theorem sound (r : a.Able s) : s.heap.supply.geometry.Sound :=
  r.allPlaced.sound

theorem slot_of_mem (r : a.Able s) (mine : i ∈ s.registers.regions) :
    ∃ slot, s.heap.supply.slots[i]? = some slot ∧ slot.region.load ≠ 0 := by
  obtain ⟨slot, here, full, -⟩ := r.occupied i mine
  exact ⟨slot, here, full⟩

end Able

/-- A deed is work on the heap. -/
theorem Does.worked (h : a.Does d s s') (allPlaced : s.heap.AllPlaced) : s.heap.Worked s'.heap := by
  have same (slots : s'.heap.supply.slots = s.heap.supply.slots)
      (sentinel : s'.heap.sentinel = s.heap.sentinel) : s.heap.Worked s'.heap :=
    .congr allPlaced slots h.geometry sentinel
  -- A region that is given up is settled, and nothing else about the regions changes.
  have settled {j : Nat} {slot : Slot} {filling : Bool}
      (found : s.heap.supply.slots[j]? = some slot)
      (slots : s'.heap.supply.slots =
        s.heap.supply.slots.set j (slot.settled a.settings.minFillWords filling))
      (sentinel : s'.heap.sentinel = s.heap.sentinel) : s.heap.Worked s'.heap :=
    have p := allPlaced.placed found
    .set allPlaced found slots h.geometry sentinel
      (Slot.settled_placed p a.settings.minFillWords filling)
      (Slot.load_le_settled (p.whole allPlaced.sound) a.settings.minFillWords filling)
  cases h with
  | @claim _ i words slot mine found pos fits =>
      have p := allPlaced.placed found
      exact .set allPlaced found rfl rfl rfl (p.took fits)
        (Nat.le_trans (Nat.le_add_right _ _) (Nat.le_of_eq (p.load_took words).symm))
  | @outrun _ i slot mine found rivals =>
      have p := allPlaced.placed found
      obtain ⟨n, hn, taken⟩ := slot.outrun_region
      refine .set allPlaced found rfl rfl rfl (slot.outrun_placed p) ?_
      rw [taken, p.load_took]
      exact Nat.le_add_right _ _
  | giveUp active found wasted => exact settled found rfl rfl
  | displace kind active retained found foundKept worth better wasted =>
      exact settled foundKept rfl rfl
  | drop kind idle retained foundKept wasted => exact settled foundKept rfl rfl
  | @install _ i words slot active granted found pos fits =>
      have p := allPlaced.placed found
      refine .set allPlaced found (List.set_set _) rfl rfl (p.unmark.took fits) ?_
      exact Nat.le_trans (Nat.le_add_right _ _)
        (Nat.le_of_eq (p.unmark.load_took words).symm)
  | lose active granted found zero =>
      exact .set allPlaced found rfl rfl rfl (allPlaced.placed found).unmark (Nat.le_refl _)
  | start | keep | refuse | adopt | note | stop => exact same rfl rfl

/-- What a deed brings to the arena is not empty. -/
theorem Does.gained_loaded (h : a.Does d s s') (allPlaced : s.heap.AllPlaced) :
    ∀ i ∈ d.gained, s'.heap.Loaded i 0 := by
  cases h with
  | @install _ i words slot active granted found pos fits =>
      intro j mem
      cases List.mem_singleton.1 mem
      have load := (allPlaced.placed found).unmark.load_took words
      have bytes := Nat.mul_pos pos allPlaced.sound.word
      refine ⟨_, List.getElem?_set_self ?_, ?_, Nat.zero_le _⟩
      · change i < (s.heap.supply.slots.set i { slot with region := slot.region.unmark }).length
        rw [List.length_set]
        exact (List.getElem?_eq_some_iff.1 found).1
      · intro empty
        rw [load] at empty
        omega
  | @adopt _ i slot active fresh found full =>
      intro j mem
      cases List.mem_singleton.1 mem
      exact ⟨slot, found, full, Nat.zero_le _⟩
  | _ => exact nofun

/-- Every deed leaves the arena able. -/
theorem Does.able (h : a.Does d s s') (r : a.Able s) : a.Able s' where
  suits := h.geometry.symm ▸ r.suits
  allPlaced := (h.worked r.allPlaced).allPlaced r.allPlaced
  occupied := by
    intro i mine
    have known := h.regions.mem_iff.1 (List.mem_append_left _ mine)
    rcases List.mem_append.1 known with old | new
    · exact (h.worked r.allPlaced).loaded (r.occupied i old)
    · exact h.gained_loaded r.allPlaced i new
  agree := h.agree r.allPlaced r.agree

theorem Deeds.able (h : a.Deeds ds s s') (r : a.Able s) : a.Able s' := by
  induction h with
  | nil s => exact r
  | cons first rest ih => exact ih (first.able r)

end Arena

end RegionHeap
