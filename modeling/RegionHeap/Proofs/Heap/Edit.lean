import RegionHeap.Heap

/-!
# Edits of a heap

Whatever an arena writes on the heap without a request is a slot of the table, a return or a
tally. Two arenas that work on different regions write on different slots, so it does not
matter who comes first, but for the order of the returns.
-/

namespace RegionHeap.Heap

/-- One thing that is written on a heap. -/
inductive Edit
  | put (i : Nat) (slot : Slot)
  | takeBack (region usedBytes : Nat)
  | takeBackFrom (purpose : Purpose) (region allocatedBytes : Nat)
  | tally (purpose : Purpose) (words : Nat)

/-- The heap with one thing written on it. -/
def write (h : Heap) : Edit → Heap
  | .put i slot => h.put (.table i) slot
  | .takeBack region bytes => { h with supply := h.supply.takeBack region bytes }
  | .takeBackFrom purpose region bytes =>
      { h with supply := h.supply.takeBackFrom purpose region bytes }
  | .tally purpose words => { h with evacuation := h.evacuation.add purpose words }

/-- The heap with everything on the list written on it, from the first on. -/
def edit (h : Heap) (es : List Edit) : Heap :=
  es.foldl write h

@[simp] theorem edit_nil (h : Heap) : h.edit [] = h := rfl

@[simp] theorem edit_cons (h : Heap) (e : Edit) (es : List Edit) :
    h.edit (e :: es) = (h.write e).edit es := rfl

theorem edit_append (h : Heap) (es es' : List Edit) : h.edit (es ++ es') = (h.edit es).edit es' :=
  List.foldl_append ..

/-- Nothing but regions at such positions is written on. -/
def Edit.Within (ps : Nat → Prop) : Edit → Prop
  | .put i _ => ps i
  | _ => True

variable {h h' : Heap} {ps qs : Nat → Prop} {e e' : Edit} {es es' : List Edit}

/-! ## Heaps that agree on some regions -/

/-- The heaps have the same regions at these positions, the same sentinel, and as many
regions. -/
structure Agrees (ps : Nat → Prop) (h h' : Heap) : Prop where
  length : h'.supply.slots.length = h.supply.slots.length
  slots : ∀ i, ps i → h'.supply.slots[i]? = h.supply.slots[i]?
  sentinel : h'.sentinel = h.sentinel

namespace Agrees

theorem refl (ps : Nat → Prop) (h : Heap) : h.Agrees ps h :=
  ⟨rfl, fun _ _ => rfl, rfl⟩

theorem trans {h'' : Heap} (first : h.Agrees ps h') (second : h'.Agrees ps h'') :
    h.Agrees ps h'' where
  length := second.length.trans first.length
  slots := fun i mine => (second.slots i mine).trans (first.slots i mine)
  sentinel := second.sentinel.trans first.sentinel

/-- What is found on the table in one of the heaps is found in the other. -/
theorem find (agrees : h.Agrees ps h') {place : Place}
    (mine : ∀ i, place = .table i → ps i) : h'.find place = h.find place := by
  cases place with
  | sentinel => simp only [find_sentinel, agrees.sentinel]
  | table i =>
      have slots := agrees.slots i (mine i rfl)
      simp only [Heap.find, Supply.slot, slots, agrees.length]

theorem label (agrees : h.Agrees ps h') {place : Option Place}
    (mine : ∀ i, place = some (.table i) → ps i) : h'.label place = h.label place := by
  rcases place with _ | _ | i
  · rfl
  · rfl
  · simp only [Heap.label, agrees.slots i (mine i rfl)]

/-- The same is written on both heaps. -/
theorem write (agrees : h.Agrees ps h') (e : Edit) : (h.write e).Agrees ps (h'.write e) := by
  cases e with
  | put j slot =>
      constructor
      · simp only [Heap.write, put_slots_length, agrees.length]
      · intro i mine
        change (h'.supply.slots.set j slot)[i]? = (h.supply.slots.set j slot)[i]?
        simp only [List.getElem?_set, agrees.slots i mine, agrees.length]
      · exact agrees.sentinel
  | takeBack | takeBackFrom | tally => exact ⟨agrees.length, agrees.slots, agrees.sentinel⟩

theorem edit (agrees : h.Agrees ps h') (es : List Edit) : (h.edit es).Agrees ps (h'.edit es) := by
  induction es generalizing h h' with
  | nil => exact agrees
  | cons e es ih => exact ih (agrees.write e)

end Agrees

/-- What is written elsewhere does not matter. -/
theorem agrees_write (within : e.Within qs) (apart : ∀ i, ps i → ¬ qs i) :
    h.Agrees ps (h.write e) := by
  cases e with
  | put j slot =>
      refine ⟨put_slots_length .., ?_, rfl⟩
      intro i mine
      have ne : j ≠ i := fun eq => apart i mine (eq ▸ within)
      exact List.getElem?_set_ne ne
  | takeBack | takeBackFrom | tally => exact ⟨rfl, fun _ _ => rfl, rfl⟩

theorem agrees_edit (within : ∀ e ∈ es, e.Within qs) (apart : ∀ i, ps i → ¬ qs i) :
    h.Agrees ps (h.edit es) := by
  induction es generalizing h with
  | nil => exact .refl ps h
  | cons e es ih =>
      have first := agrees_write (h := h) (within e List.mem_cons_self) apart
      exact first.trans (ih fun e mem => within e (List.mem_cons_of_mem _ mem))

/-! ## Heaps that differ in the order of the returns -/

/-- The heaps are the same but for the order in which regions were handed back. -/
structure Matches (h h' : Heap) : Prop where
  geometry : h'.supply.geometry = h.supply.geometry
  slots : h'.supply.slots = h.supply.slots
  free : h'.supply.free = h.supply.free
  requests : h'.supply.requests = h.supply.requests
  sentinel : h'.sentinel = h.sentinel
  evacuation : h'.evacuation = h.evacuation
  mutatorReturns : h'.supply.mutatorReturns.Perm h.supply.mutatorReturns
  collectorReturns : h'.supply.collectorReturns.Perm h.supply.collectorReturns

namespace Matches

theorem refl (h : Heap) : h.Matches h :=
  ⟨rfl, rfl, rfl, rfl, rfl, rfl, .refl _, .refl _⟩

theorem trans {h'' : Heap} (first : h.Matches h') (second : h'.Matches h'') : h.Matches h'' where
  geometry := second.geometry.trans first.geometry
  slots := second.slots.trans first.slots
  free := second.free.trans first.free
  requests := second.requests.trans first.requests
  sentinel := second.sentinel.trans first.sentinel
  evacuation := second.evacuation.trans first.evacuation
  mutatorReturns := second.mutatorReturns.trans first.mutatorReturns
  collectorReturns := second.collectorReturns.trans first.collectorReturns

theorem write (same : h.Matches h') (e : Edit) : (h.write e).Matches (h'.write e) := by
  cases e with
  | put i slot =>
      refine { same with slots := ?_ }
      exact congrArg (fun slots => slots.set i slot) same.slots
  | takeBack region bytes =>
      exact { same with mutatorReturns := same.mutatorReturns.append_right _ }
  | takeBackFrom purpose region bytes =>
      exact { same with collectorReturns := same.collectorReturns.append_right _ }
  | tally purpose words =>
      refine { same with evacuation := ?_ }
      exact congrArg (fun tallies => tallies.add purpose words) same.evacuation

theorem edit (same : h.Matches h') (es : List Edit) : (h.edit es).Matches (h'.edit es) := by
  induction es generalizing h h' with
  | nil => exact same
  | cons e es ih => exact ih (same.write e)

end Matches

/-- Two edits of different regions can be made in either order. -/
theorem write_comm (within : e.Within ps) (within' : e'.Within qs) (apart : ∀ i, ps i → ¬ qs i) :
    ((h.write e).write e').Matches ((h.write e').write e) := by
  have same := Matches.refl ((h.write e).write e')
  cases e with
  | put i slot =>
      cases e' with
      | put j slot' =>
          have ne : i ≠ j := fun eq => apart i within (eq ▸ within')
          refine { same with slots := ?_ }
          exact (List.set_comm slot slot' ne).symm
      | takeBack | takeBackFrom | tally => exact same
  | takeBack region bytes =>
      cases e' with
      | takeBack region' bytes' =>
          refine { same with mutatorReturns := ?_ }
          simp only [Heap.write, Supply.takeBack, List.append_assoc]
          exact (List.Perm.swap _ _ []).append_left _
      | put | takeBackFrom | tally => exact same
  | takeBackFrom purpose region bytes =>
      cases e' with
      | takeBackFrom purpose' region' bytes' =>
          refine { same with collectorReturns := ?_ }
          simp only [Heap.write, Supply.takeBackFrom, List.append_assoc]
          exact (List.Perm.swap _ _ []).append_left _
      | put | takeBack | tally => exact same
  | tally purpose words =>
      cases e' with
      | tally purpose' words' =>
          refine { same with evacuation := ?_ }
          exact Evacuation.add_comm ..
      | put | takeBack | takeBackFrom => exact same

theorem write_edit_comm (within : e.Within ps) (within' : ∀ e' ∈ es', e'.Within qs)
    (apart : ∀ i, ps i → ¬ qs i) : ((h.write e).edit es').Matches ((h.edit es').write e) := by
  induction es' generalizing h with
  | nil => exact .refl _
  | cons e' es' ih =>
      have first := write_comm (h := h) within (within' e' List.mem_cons_self) apart
      have rest := ih (h := h.write e') fun e mem => within' e (List.mem_cons_of_mem _ mem)
      exact (first.edit es').trans rest

/-- Two lists of edits of different regions can be made in either order. -/
theorem edit_comm (within : ∀ e ∈ es, e.Within ps) (within' : ∀ e ∈ es', e.Within qs)
    (apart : ∀ i, ps i → ¬ qs i) : ((h.edit es).edit es').Matches ((h.edit es').edit es) := by
  induction es generalizing h with
  | nil => exact .refl _
  | cons e es ih =>
      have rest := ih (h := h.write e) fun e mem => within e (List.mem_cons_of_mem _ mem)
      have first := write_edit_comm (h := h) (within e List.mem_cons_self) within' apart
      exact rest.trans (first.edit es)

end RegionHeap.Heap
