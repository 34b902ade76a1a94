import RegionHeap.Proofs.Arena.Ready

/-!
# What deeds leave alone

A deed changes no region but those that the arena holds and the one it is granted.
It sends no rival anywhere and takes nothing off the records of the supply.
-/

namespace RegionHeap

/-- Nobody waits at any region. -/
def Heap.NoRivals (h : Heap) : Prop :=
  ∀ (i : Nat) (slot : Slot), h.supply.slots[i]? = some slot → slot.rivals = []

namespace Arena

variable {a : Arena} {others : List Nat} {s s' : Store} {d : Deed} {ds : List Deed}

/-- The one region that a deed changes, with the slot that it leaves there. -/
inductive Touches (a : Arena) (s s' : Store) : Prop
  | none (same : s'.heap.supply.slots = s.heap.supply.slots)
  | slot (i : Nat) (slot slot' : Slot) (found : s.heap.supply.slots[i]? = some slot)
      (own : i ∈ s.registers.regions ∨ i ∈ s.heap.supply.free)
      (set : s'.heap.supply.slots = s.heap.supply.slots.set i slot')
      (rivals : slot'.rivals <:+ slot.rivals)

theorem Does.touches (h : a.Does d s s') : a.Touches s s' := by
  cases h with
  | start anew idle none => exact .none rfl
  | @claim _ i words slot mine found pos fits =>
      exact .slot i slot _ found (.inl mine) rfl (List.suffix_refl _)
  | @outrun _ i slot mine found rivals =>
      exact .slot i slot _ found (.inl mine) rfl slot.outrun_rivals
  | @giveUp _ i waste slot filling counted active found wasted =>
      exact .slot i slot _ found (.inl (mem_regions_of_active active)) rfl
        (slot.settled_rivals _ filling)
  | keep kind active none found worth => exact .none rfl
  | @displace _ i j waste slot kept kind active retained found foundKept worth better wasted =>
      exact .slot j kept _ foundKept (.inl (mem_regions_of_retained retained)) rfl
        (kept.settled_rivals _ true)
  | @drop _ j waste kept kind idle retained foundKept wasted =>
      exact .slot j kept _ foundKept (.inl (mem_regions_of_retained retained)) rfl
        (kept.settled_rivals _ false)
  | refuse active refused => exact .none rfl
  | @install _ i words slot active granted found pos fits =>
      have free : i ∈ s.heap.supply.free := (Supply.free_of_grant granted).2 ▸ List.mem_cons_self
      exact .slot i slot _ found (.inr free) (List.set_set _) (List.suffix_refl _)
  | @lose _ i words slot active granted found zero =>
      have free : i ∈ s.heap.supply.free := (Supply.free_of_grant granted).2 ▸ List.mem_cons_self
      exact .slot i slot _ found (.inr free) rfl (List.suffix_refl _)
  | adopt active fresh found full => exact .none rfl
  | note active => exact .none rfl
  | stop active => exact .none rfl

/-- The regions of others stay as they are. -/
theorem Does.frame (h : a.Does d s s') (r : a.Ready others s) {j : Nat} (hj : j ∈ others) :
    s'.heap.supply.slots[j]? = s.heap.supply.slots[j]? := by
  cases h.touches with
  | none same => rw [same]
  | slot i slot slot' found own set rivals =>
      have ne : i ≠ j := by
        rintro rfl
        rcases own with mine | free
        · exact r.not_mem_others mine hj
        · exact r.order.not_mem_held free (List.mem_append_right _ hj)
      rw [set, List.getElem?_set_ne ne]

theorem Does.noRivals (h : a.Does d s s') (noRivals : s.heap.NoRivals) : s'.heap.NoRivals := by
  intro j other hj
  cases h.touches with
  | none same => exact noRivals j other (same ▸ hj)
  | slot i slot slot' found own set rivals =>
      rw [set] at hj
      obtain ⟨rfl, rfl⟩ | ⟨-, before⟩ := Supply.slots_set_cases hj
      · exact List.suffix_nil.1 (noRivals _ slot found ▸ rivals)
      · exact noRivals j other before

theorem Does.geometry (h : a.Does d s s') :
    s'.heap.supply.geometry = s.heap.supply.geometry := by
  cases h <;> rfl

/-- Requests stay on record. -/
theorem Does.requests (h : a.Does d s s') :
    s.heap.supply.requests <+: s'.heap.supply.requests := by
  cases h with
  | refuse active refused => exact List.prefix_append _ _
  | install active granted found pos fits => exact List.prefix_append _ _
  | lose active granted found zero => exact List.prefix_append _ _
  | start | claim | outrun | giveUp | keep | displace | drop | adopt | note | stop =>
      exact List.prefix_refl _

theorem Deeds.frame (h : a.Deeds ds s s') (r : a.Ready others s)
    (unowned : AdoptsUnowned others s ds)
    {j : Nat} (hj : j ∈ others) : s'.heap.supply.slots[j]? = s.heap.supply.slots[j]? :=
  (h.invariant (P := fun t => t.heap.supply.slots[j]? = s.heap.supply.slots[j]?) r unowned
    (fun _ does r eq => (does.frame r hj).trans eq) rfl).2

theorem Deeds.geometry (h : a.Deeds ds s s') :
    s'.heap.supply.geometry = s.heap.supply.geometry := by
  induction h with
  | nil s => rfl
  | cons first rest ih => exact ih.trans first.geometry

theorem Deeds.noRivals (h : a.Deeds ds s s') (noRivals : s.heap.NoRivals) : s'.heap.NoRivals := by
  induction h with
  | nil s => exact noRivals
  | cons first rest ih => exact ih (first.noRivals noRivals)

theorem Deeds.requests (h : a.Deeds ds s s') :
    s.heap.supply.requests <+: s'.heap.supply.requests := by
  induction h with
  | nil s => exact List.prefix_refl _
  | cons first rest ih => exact first.requests.trans ih

end Arena

end RegionHeap
