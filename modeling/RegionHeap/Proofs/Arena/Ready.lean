import RegionHeap.Proofs.Arena.Deed

/-!
# Arenas that are ready

An arena is ready if the heap is in order, with the regions of the arena held
besides those that others hold, and its registers agree with it. Every deed leaves the
arena ready, leaves the regions of others alone, and sends no rival anywhere.
-/

namespace RegionHeap

namespace Arena

/-- The registers of the arena agree with the heap. Only arenas of application
threads keep regions, and no collection has seen its region fuller than it is. -/
structure RegistersAgree (a : Arena) (h : Heap) (r : Registers) : Prop where
  keeper : r.retained ≠ none → a.kind = .mutator
  real : r.retained ≠ some .sentinel
  baseline : ∀ {purpose : Purpose} {i : Nat} {slot : Slot}, a.kind = .collector purpose →
    r.active = some (.table i) → h.supply.slots[i]? = some slot → r.baseline ≤ slot.region.load
  wasted : r.wasted < Word.bound

/-- The arena can do whatever it is asked for, while others hold the regions listed. -/
structure Ready (a : Arena) (others : List Nat) (s : Store) : Prop where
  suits : a.Suits s.heap.supply.geometry
  order : s.heap.Orderly (s.registers.regions ++ others)
  agree : a.RegistersAgree s.heap s.registers

variable {a : Arena} {others : List Nat} {s s' : Store} {i : Nat} {slot slot' : Slot}

theorem mem_regions_of_active (h : s.registers.active = some (.table i)) :
    i ∈ s.registers.regions := by
  simp [Registers.regions, h]

theorem mem_regions_of_retained (h : s.registers.retained = some (.table i)) :
    i ∈ s.registers.regions := by
  simp [Registers.regions, h]

/-- The active region is not the one put aside. -/
theorem active_ne_retained {j : Nat} (nodup : s.registers.regions.Nodup)
    (active : s.registers.active = some (.table i))
    (retained : s.registers.retained = some (.table j)) : i ≠ j := by
  simpa [Registers.regions, active, retained] using nodup

namespace Ready

theorem sound (r : a.Ready others s) : s.heap.supply.geometry.Sound :=
  r.order.sound

theorem nodup_regions (r : a.Ready others s) : s.registers.regions.Nodup :=
  (List.nodup_append.1 r.order.nodup_held).1

/-- A region of the arena is in its place, not free, and not empty. -/
theorem slot_of_mem (r : a.Ready others s) (mine : i ∈ s.registers.regions) :
    ∃ slot, s.heap.supply.slots[i]? = some slot ∧ slot.region.load ≠ 0 :=
  r.order.occupied i (List.mem_append_left _ mine)

theorem not_mem_free (r : a.Ready others s) (mine : i ∈ s.registers.regions) :
    i ∉ s.heap.supply.free :=
  r.order.not_mem_free (List.mem_append_left _ mine)

theorem not_mem_others (r : a.Ready others s) (mine : i ∈ s.registers.regions) :
    i ∉ others :=
  fun h => (List.nodup_append.1 r.order.nodup_held).2.2 i mine i h rfl

/-- A granted region is empty, nobody waits there, and what was asked for fits. -/
theorem slot_of_grant (r : a.Ready others s) {words : Nat}
    (granted : s.heap.supply.grant words = some i) :
    ∃ slot, s.heap.supply.slots[i]? = some slot ∧ slot.region.load = 0 ∧
      slot.rivals = [] ∧ words ≤ slot.region.left := by
  obtain ⟨enough, first⟩ := Supply.free_of_grant granted
  obtain ⟨slot, found, empty, noRivals, -⟩ := r.order.vacant i (first ▸ List.mem_cons_self)
  refine ⟨slot, found, empty, noRivals, ?_⟩
  rw [(r.order.placed found).left_of_empty r.sound empty]
  exact enough

end Ready

/-- Registers agree with the heap also when the region of an arena is used up further. -/
theorem RegistersAgree.put {h : Heap} {r : Registers} (agree : a.RegistersAgree h r)
    (found : h.supply.slots[i]? = some slot) (more : slot.region.load ≤ slot'.region.load) :
    a.RegistersAgree (h.put (.table i) slot') r :=
  { agree with
    baseline := fun {purpose j other} kind active hj => by
      obtain ⟨rfl, rfl⟩ | ⟨-, before⟩ := Supply.slots_set_cases hj
      · exact Nat.le_trans (agree.baseline kind active found) more
      · exact agree.baseline kind active before }

/-- An arena that allocates from no region has nothing to account for. -/
theorem RegistersAgree.of_not_table {h h' : Heap} {r r' : Registers} (agree : a.RegistersAgree h r)
    (active : ∀ j, r'.active ≠ some (.table j))
    (retained : r'.retained = r.retained ∨ r'.retained = none) (wasted : r'.wasted < Word.bound) :
    a.RegistersAgree h' r' where
  keeper := fun kept => by
    rcases retained with eq | eq
    · exact agree.keeper (eq ▸ kept)
    · exact absurd eq kept
  real := by
    rcases retained with eq | eq <;> rw [eq]
    · exact agree.real
    · exact nofun
  baseline := fun {_ j _} _ here => absurd here (active j)
  wasted := wasted

/-- Only a mutator keeps a region aside. -/
theorem RegistersAgree.of_retained {h : Heap} {r : Registers} (kind : a.kind = .mutator)
    (retained : r.retained = some (.table i)) (wasted : r.wasted < Word.bound) :
    a.RegistersAgree h r where
  keeper := fun _ => kind
  real := by
    rw [retained]
    intro eq
    cases eq
  baseline := fun other => by
    rw [kind] at other
    cases other
  wasted := wasted

theorem accounted_wasted_lt (b : Bool) (n : Nat) (h : s.registers.wasted < Word.bound) :
    (a.accounted b n s).registers.wasted < Word.bound := by
  cases b with
  | false => exact h
  | true =>
      change a.wasting n s.registers.wasted < Word.bound
      unfold wasting
      cases a.kind with
      | mutator => exact Waste.add_lt _ _
      | plain => exact h
      | collector purpose => exact h

/-- The arena stays ready while a region of its own is used up further. -/
theorem Ready.setSlot (r : a.Ready others s) (mine : i ∈ s.registers.regions)
    (found : s.heap.supply.slots[i]? = some slot)
    (p : slot'.region.Placed s.heap.supply.geometry i)
    (more : slot.region.load ≤ slot'.region.load) : a.Ready others (s.setSlot i slot') where
  suits := r.suits
  order := r.order.put found p more fun h => absurd h (r.not_mem_free mine)
  agree := r.agree.put found more

theorem gaveUp_order (r : a.Ready others s) (mine : i ∈ s.registers.regions)
    (found : s.heap.supply.slots[i]? = some slot) (filling : Bool) :
    (a.gaveUp i filling slot s).heap.Orderly (s.registers.regions ++ others) := by
  have p := r.order.placed found
  have q := Slot.settled_placed p a.settings.minFillWords filling
  have more := Slot.load_le_settled (p.whole r.sound) a.settings.minFillWords filling
  have order := (r.setSlot mine found q more).order
  exact order.congr rfl rfl rfl rfl

/-- A fresh region comes into use. -/
theorem installed_order (r : a.Ready others s) {words : Nat}
    (granted : s.heap.supply.grant words = some i)
    (found : s.heap.supply.slots[i]? = some slot) (pos : 0 < words)
    (fits : words ≤ slot.region.left) :
    ((a.prepared i words slot s).setSlot i
      { slot with region := slot.region.unmark.took words }).heap.Orderly
        (i :: (s.registers.regions ++ others)) := by
  have first := (Supply.free_of_grant granted).2
  have p := r.order.placed found
  have q : ({ slot with region := slot.region.unmark.took words } : Slot).region.Placed
      s.heap.supply.geometry i := p.unmark.took fits
  have load : (slot.region.unmark.took words).load =
      slot.region.load + words * s.heap.supply.geometry.wordBytes := p.load_took words
  have notFree := r.order.not_mem_tail first
  have notHeld := r.order.not_mem_held (first ▸ List.mem_cons_self)
  -- First the region leaves the queue, then it is no longer empty, then it is held.
  have used := r.order.pop.put found q
    (Nat.le_trans (Nat.le_add_right _ _) (Nat.le_of_eq load.symm)) fun h => absurd h notFree
  have full : (slot.region.unmark.took words).load ≠ 0 := by
    have := Nat.mul_pos pos r.sound.word
    omega
  have here : (s.heap.supply.slots.set i
      { slot with region := slot.region.unmark.took words })[i]? =
        some { slot with region := slot.region.unmark.took words } :=
    List.getElem?_set_self (List.getElem?_eq_some_iff.1 found).1
  have held := used.cons here full notFree notHeld
  refine held.congr rfl ?_ ?_ rfl
  · exact List.set_set _
  · simp [prepared, noted, requested, Supply.request, granted]

/-- A region that was granted and left is neither free nor held. -/
theorem prepared_order (r : a.Ready others s) {words : Nat}
    (granted : s.heap.supply.grant words = some i)
    (found : s.heap.supply.slots[i]? = some slot) :
    (a.prepared i words slot s).heap.Orderly (s.registers.regions ++ others) := by
  have first := (Supply.free_of_grant granted).2
  have q : ({ slot with region := slot.region.unmark } : Slot).region.Placed
      s.heap.supply.geometry i := (r.order.placed found).unmark
  have notFree := r.order.not_mem_tail first
  have cleared := r.order.pop.put found q (Nat.le_refl _) fun h => absurd h notFree
  refine cleared.congr rfl rfl ?_ rfl
  simp [prepared, noted, requested, Supply.request, granted]

/-- After every deed the registers of the arena agree with the heap. -/
theorem Does.agree {d : Deed} (h : a.Does d s s') (allPlaced : s.heap.AllPlaced)
    (agree : a.RegistersAgree s.heap s.registers) : a.RegistersAgree s'.heap s'.registers := by
  cases h with
  | start anew idle none =>
      refine agree.of_not_table (fun _ here => by cases here) (.inl rfl) ?_
      cases anew with
      | true => exact Nat.two_pow_pos 64
      | false => exact agree.wasted
  | @claim _ i words slot mine found pos fits =>
      exact agree.put found (Nat.le_trans (Nat.le_add_right _ _)
        (Nat.le_of_eq ((allPlaced.placed found).load_took words).symm))
  | @outrun _ i slot mine found rivals =>
      obtain ⟨n, hn, taken⟩ := slot.outrun_region
      refine agree.put found ?_
      rw [taken, (allPlaced.placed found).load_took]
      exact Nat.le_add_right _ _
  | @giveUp _ i waste slot filling counted active found wasted =>
      exact agree.of_not_table (fun _ here => by cases here) (.inl rfl)
        (accounted_wasted_lt counted waste agree.wasted)
  | keep kind active none found worth => exact .of_retained kind rfl agree.wasted
  | @displace _ i j waste slot kept kind active retained found foundKept worth better wasted =>
      exact .of_retained kind rfl (accounted_wasted_lt true waste agree.wasted)
  | @drop _ j waste kept kind idle retained foundKept wasted =>
      refine agree.of_not_table ?_ (.inr rfl) (accounted_wasted_lt true waste agree.wasted)
      simp [accounted, gaveUp, handedBack, idle]
  | refuse active refused =>
      exact agree.of_not_table (by simp [requested, active]) (.inl rfl) agree.wasted
  | @install _ i words slot active granted found pos fits =>
      refine ⟨agree.keeper, agree.real, ?_, agree.wasted⟩
      intro purpose j other kind here hj
      have zero : a.noting 0 s.registers.baseline = 0 := by simp [noting, kind]
      exact Nat.le_trans (Nat.le_of_eq zero) (Nat.zero_le _)
  | lose active granted found zero =>
      refine agree.of_not_table ?_ (.inl rfl) agree.wasted
      simp [prepared, noted, requested, active]
  | @adopt _ i slot active fresh found full =>
      refine ⟨agree.keeper, agree.real, ?_, agree.wasted⟩
      intro purpose j other kind here hj
      cases here
      have same : some other = some slot := hj.symm.trans found
      cases same
      exact Nat.le_of_eq (by simp [published, noted, noting, kind])
  | note active =>
      refine agree.of_not_table ?_ (.inl rfl) agree.wasted
      simp [noted, active]
  | stop active => exact agree.of_not_table (fun _ here => by cases here) (.inl rfl) agree.wasted

/-- Every deed leaves the arena ready, if what it adopts is nobody's. -/
theorem Does.ready {d : Deed} (h : a.Does d s s') (r : a.Ready others s)
    (unowned : ∀ j, d = .adopt j → j ∉ s.heap.supply.free ∧ j ∉ s.registers.regions ++ others) :
    a.Ready others s' := by
  have suits := r.suits
  have order := r.order
  have agree := h.agree order.allPlaced r.agree
  cases h with
  | start anew idle none =>
      refine ⟨suits, ?_, agree⟩
      simpa [Registers.regions, idle] using order
  | @claim _ i words slot mine found pos fits =>
      have p := order.placed found
      exact r.setSlot mine found (p.took fits)
        (Nat.le_trans (Nat.le_add_right _ _) (Nat.le_of_eq (p.load_took words).symm))
  | @outrun _ i slot mine found rivals =>
      have p := order.placed found
      obtain ⟨n, hn, taken⟩ := slot.outrun_region
      refine r.setSlot mine found (slot.outrun_placed p) ?_
      rw [taken, p.load_took]
      exact Nat.le_add_right _ _
  | @giveUp _ i waste slot filling counted active found wasted =>
      have given := gaveUp_order r (mem_regions_of_active active) found filling
      have fewer : (Place.position? s.registers.retained ++ others).Sublist
          (s.registers.regions ++ others) :=
        (List.sublist_append_right _ _).append (List.Sublist.refl _)
      exact ⟨suits, (given.sublist fewer).congr rfl rfl rfl rfl, agree⟩
  | @keep _ i slot kind active none found worth =>
      refine ⟨suits, ?_, agree⟩
      simpa [Registers.regions, active, none] using order
  | @displace _ i j waste slot kept kind active retained found foundKept worth better wasted =>
      have given := gaveUp_order r (mem_regions_of_retained retained) foundKept true
      have fewer : ([i] ++ others).Sublist (s.registers.regions ++ others) := by
        simp [Registers.regions, active, retained]
      exact ⟨suits, (given.sublist fewer).congr rfl rfl rfl rfl, agree⟩
  | @drop _ j waste kept kind idle retained foundKept wasted =>
      have given := gaveUp_order r (mem_regions_of_retained retained) foundKept false
      have fewer : others.Sublist (s.registers.regions ++ others) :=
        List.sublist_append_right _ _
      have order' : (a.accounted true waste (a.gaveUp j false kept s)).heap.Orderly others :=
        (given.sublist fewer).congr rfl rfl rfl rfl
      refine ⟨suits, ?_, agree⟩
      simpa [Registers.regions, accounted, gaveUp, handedBack, idle] using order'
  | @refuse _ words active refused =>
      refine ⟨suits, order.congr rfl rfl ?_ rfl, agree⟩
      simp [requested, Supply.request, refused]
  | @install _ i words slot active granted found pos fits =>
      have installed := installed_order r granted found pos fits
      have regions : (published i ((a.prepared i words slot s).setSlot i
          { slot with region := slot.region.unmark.took words })).registers.regions =
            i :: s.registers.regions := by
        simp [Registers.regions, published, prepared, noted, requested, active]
      exact ⟨suits, regions ▸ installed, agree⟩
  | lose active granted found zero => exact ⟨suits, prepared_order r granted found, agree⟩
  | @adopt _ i slot active fresh found full =>
      obtain ⟨notFree, notHeld⟩ := unowned i rfl
      have regions : (published i (a.noted slot.region.load s)).registers.regions =
          i :: s.registers.regions := by
        simp [Registers.regions, published, noted, active]
      refine ⟨suits, ?_, agree⟩
      rw [regions]
      exact order.cons found full notFree notHeld
  | note active => exact ⟨suits, order, agree⟩
  | stop active =>
      refine ⟨suits, ?_, agree⟩
      simpa [Registers.regions, active] using order

/-- What is adopted is nobody's, and nothing else is done in the same call. -/
def AdoptsUnowned (others : List Nat) (s : Store) (ds : List Deed) : Prop :=
  ∀ j, Deed.adopt j ∈ ds →
    ds = [.adopt j] ∧ j ∉ s.heap.supply.free ∧ j ∉ s.registers.regions ++ others

theorem unowned_of_not_mem {ds : List Deed} (none : ∀ j, Deed.adopt j ∉ ds) :
    AdoptsUnowned others s ds :=
  fun j hj => absurd hj (none j)

theorem AdoptsUnowned.tail {d : Deed} {ds : List Deed}
    (unowned : AdoptsUnowned others s (d :: ds)) :
    AdoptsUnowned others s' ds :=
  unowned_of_not_mem fun j hj => by
    have single := (unowned j (List.mem_cons_of_mem d hj)).1
    simp only [List.cons.injEq] at single
    exact absurd (single.2 ▸ hj) List.not_mem_nil

/-- What every deed of a ready arena keeps holds after all of them. -/
theorem Deeds.invariant {P : Store → Prop} {ds : List Deed} (h : a.Deeds ds s s') (r : a.Ready others s)
    (unowned : AdoptsUnowned others s ds)
    (keep : ∀ {d s s'}, d ∈ ds → a.Does d s s' → a.Ready others s → P s → P s') (p : P s) :
    a.Ready others s' ∧ P s' := by
  induction h with
  | nil s => exact ⟨r, p⟩
  | @cons d ds s s₁ s₂ first rest ih =>
      have r₁ := first.ready r fun j eq => (unowned j (eq ▸ List.mem_cons_self)).2
      exact ih r₁ unowned.tail (fun hd => keep (List.mem_cons_of_mem d hd))
        (keep List.mem_cons_self first r p)

theorem Deeds.ready {ds : List Deed} (h : a.Deeds ds s s') (r : a.Ready others s)
    (unowned : AdoptsUnowned others s ds) : a.Ready others s' :=
  (h.invariant (P := fun _ => True) r unowned (fun _ _ _ _ => trivial) trivial).1

end Arena

end RegionHeap
