import RegionHeap.Proofs.Arena.Tenancy
import RegionHeap.Proofs.Arena.Stint
import RegionHeap.Proofs.Arena.Walk

/-!
# Bytes in use

What an arena of application threads has handed out is in use in the regions that it holds,
or was in use in the regions that it has handed back. A filler is part of what a region has
given out, but it was nobody's, so a region that goes back is reported without it.
-/

namespace RegionHeap

namespace Heap

/-- The bytes handed out of the regions at these positions. -/
def loads (h : Heap) (regions : List Nat) : Nat :=
  (regions.map h.loadOf).sum

variable {h h' : Heap} {regions regions' : List Nat} {i : Nat}

@[simp] theorem loads_nil (h : Heap) : h.loads [] = 0 := rfl

@[simp] theorem loads_cons (h : Heap) (i : Nat) (regions : List Nat) :
    h.loads (i :: regions) = h.loadOf i + h.loads regions := rfl

theorem loads_append (h : Heap) (regions regions' : List Nat) :
    h.loads (regions ++ regions') = h.loads regions + h.loads regions' := by
  simp [loads]

theorem loads_perm (h : Heap) (perm : regions.Perm regions') :
    h.loads regions = h.loads regions' :=
  (perm.map h.loadOf).sum_eq

theorem loads_congr (same : ∀ i ∈ regions, h'.loadOf i = h.loadOf i) :
    h'.loads regions = h.loads regions :=
  congrArg List.sum (List.map_congr_left same)

section
variable {slot slot' : Slot} (set : h'.supply.slots = h.supply.slots.set i slot')
include set

theorem loadOf_set_self (found : h.supply.slots[i]? = some slot) :
    h'.loadOf i = slot'.region.load := by
  apply loadOf_eq
  rw [set]
  exact List.getElem?_set_self (List.getElem?_eq_some_iff.1 found).1

/-- What is written to a region that is not listed does not matter. -/
theorem loads_of_not_mem (other : i ∉ regions) : h'.loads regions = h.loads regions := by
  refine loads_congr fun j hj => loadOf_congr ?_
  have ne : i ≠ j := fun eq => other (eq ▸ hj)
  rw [set, List.getElem?_set_ne ne]

/-- What is written to one region that is listed changes the sum by as much. -/
theorem loads_of_mem (found : h.supply.slots[i]? = some slot) (nodup : regions.Nodup)
    (mine : i ∈ regions) :
    h'.loads regions + slot.region.load = h.loads regions + slot'.region.load := by
  have split := List.perm_cons_erase mine
  have rest := loads_of_not_mem set nodup.not_mem_erase
  rw [h.loads_perm split, h'.loads_perm split, loads_cons, loads_cons, rest,
    loadOf_eq found, loadOf_set_self set found]
  omega

end

end Heap

namespace Registers

variable {r : Registers} {i : Nat}

theorem length_regions_le (r : Registers) : r.regions.length ≤ 2 := by
  have one (place : Option Place) : (Place.position? place).length ≤ 1 := by
    cases place with
    | none => exact Nat.zero_le 1
    | some place => cases place <;> simp
  rw [regions, List.length_append]
  exact Nat.add_le_add (one r.active) (one r.retained)

theorem held_eq_some_iff {place : Place} :
    r.held = some place ↔ r.active = some place ∧ place ≠ .sentinel := by
  unfold held
  cases r.active with
  | none => simp
  | some active => cases active <;> cases place <;> simp

theorem position?_held (r : Registers) : Place.position? r.held = Place.position? r.active := by
  unfold held
  cases r.active with
  | none => rfl
  | some place => cases place <;> rfl

end Registers

/-- The bytes in use in the regions that the arena holds. -/
def Store.inUse (s : Store) : Nat :=
  s.heap.loads s.registers.regions

namespace Arena

variable {a : Arena} {others : List Nat} {s s' s'' : Store} {d : Deed} {ds : List Deed}
  {words more : Nat}

/-- So many words were handed out between two stores. Their bytes are in use in the regions
held, or were in use in those handed back. -/
def Spends (words : Nat) (s s' : Store) : Prop :=
  ∃ backs, s'.heap.supply.mutatorReturns = s.heap.supply.mutatorReturns ++ backs ∧
    s'.inUse + MutatorReturn.totalUsed backs =
      s.inUse + words * s.heap.supply.geometry.wordBytes

theorem Spends.refl (s : Store) : Spends 0 s s :=
  ⟨[], (List.append_nil _).symm, by simp [MutatorReturn.totalUsed]⟩

theorem Spends.trans (h : Spends words s s') (h' : Spends more s' s'')
    (same : s'.heap.supply.geometry = s.heap.supply.geometry) :
    Spends (words + more) s s'' := by
  obtain ⟨backs, records, total⟩ := h
  obtain ⟨backs', records', total'⟩ := h'
  refine ⟨backs ++ backs', by rw [records', records, List.append_assoc], ?_⟩
  have both : MutatorReturn.totalUsed (backs ++ backs') =
      MutatorReturn.totalUsed backs + MutatorReturn.totalUsed backs' := by
    simp [MutatorReturn.totalUsed]
  rw [same] at total'
  rw [both, Nat.add_mul]
  omega

/-- What is handed out of the regions held is in use. -/
theorem Spends.grown (records : s'.heap.supply.mutatorReturns = s.heap.supply.mutatorReturns)
    (inUse : s'.inUse = s.inUse + words * s.heap.supply.geometry.wordBytes) :
    Spends words s s' :=
  ⟨[], by rw [records, List.append_nil], inUse⟩

/-- Nothing is spent while the records and the bytes in use stay. -/
theorem Spends.same (records : s'.heap.supply.mutatorReturns = s.heap.supply.mutatorReturns)
    (inUse : s'.inUse = s.inUse) : Spends 0 s s' :=
  ⟨[], by rw [records, List.append_nil], by simp [MutatorReturn.totalUsed, inUse]⟩

/-- What was in use in a region that goes back is recorded. -/
theorem Spends.back {i live : Nat}
    (records : s'.heap.supply.mutatorReturns = s.heap.supply.mutatorReturns ++ [⟨i, live⟩])
    (inUse : s'.inUse + live = s.inUse) : Spends 0 s s' :=
  ⟨[⟨i, live⟩], records, by simpa [MutatorReturn.totalUsed] using inUse⟩

/-- Nobody waits at a region that is given up, so all that was in use goes on record, and no
part of the filler does. -/
theorem Spends.gaveUp {i : Nat} {slot slot' : Slot} {filling : Bool} (r : a.Ready others s)
    (kind : a.kind = .mutator) (noRivals : s.heap.NoRivals)
    (found : s.heap.supply.slots[i]? = some slot)
    (records : s'.heap.supply.mutatorReturns = s.heap.supply.mutatorReturns ++
      a.mutatorReturns i (slot.live a.settings.minFillWords filling))
    (set : s'.heap.supply.slots = s.heap.supply.slots.set i slot')
    (held : (s'.registers.regions ++ [i]).Perm (s.registers.regions ++ [])) :
    Spends 0 s s' := by
  rw [List.append_nil] at held
  rw [Slot.live_of_rivals_eq_nil (noRivals i slot found)] at records
  have single : a.mutatorReturns i slot.region.load = [⟨i, slot.region.load⟩] := by
    simp [mutatorReturns, kind]
  have first := List.perm_append_singleton i s'.registers.regions
  have nodup := (held.symm.trans first).nodup_iff.1 r.nodup_regions
  have rest := Heap.loads_of_not_mem set (List.nodup_cons.1 nodup).1
  have before : s.inUse = s.heap.loadOf i + s.heap.loads s'.registers.regions :=
    s.heap.loads_perm (held.symm.trans first)
  refine .back (single ▸ records) ?_
  rw [before, Heap.loadOf_eq found, Store.inUse, rest]
  exact Nat.add_comm _ _

/-- What a deed hands out is in use afterwards, and what it hands back was. -/
theorem Does.spends (h : a.Does d s s') (r : a.Ready others s) (kind : a.kind = .mutator)
    (noRivals : s.heap.NoRivals) (adopts_nothing : ∀ i, d ≠ .adopt i) : Spends d.words s s' := by
  have held := h.regions
  have free (words i : Nat) (granted : s.heap.supply.grant words = some i) :
      i ∉ s.registers.regions := fun mine =>
    r.not_mem_free mine ((Supply.free_of_grant granted).2 ▸ List.mem_cons_self)
  cases h with
  | adopt => exact absurd rfl (adopts_nothing _)
  | outrun mine found rivals => exact absurd (noRivals _ _ found) rivals
  | @claim _ i words slot mine found pos fits =>
      have nodup := r.nodup_regions
      have set : (s.setSlot i { slot with region := slot.region.took words }).heap.supply.slots =
        s.heap.supply.slots.set i { slot with region := slot.region.took words } := rfl
      have grown := Heap.loads_of_mem set found nodup mine
      rw [(r.order.placed found).load_took] at grown
      refine .grown rfl ?_
      change Heap.loads _ s.registers.regions = s.heap.loads s.registers.regions + words * _
      omega
  | giveUp active found wasted => exact .gaveUp r kind noRivals found rfl rfl held
  | displace kind' active retained found foundKept worth better wasted =>
      exact .gaveUp r kind noRivals foundKept rfl rfl held
  | drop kind' idle retained foundKept wasted =>
      exact .gaveUp r kind noRivals foundKept rfl rfl held
  | @install _ i words slot active granted found pos fits =>
      obtain ⟨slot', found', empty, -⟩ := r.slot_of_grant granted
      cases found.symm.trans found'
      have comes := held.trans (List.perm_append_singleton i s.registers.regions)
      simp only [Deed.returned, List.append_nil] at comes
      refine .grown rfl ((Heap.loads_perm _ comes).trans ?_)
      have took := (r.order.placed found).unmark.load_took words
      change _ = slot.region.load + _ at took
      rw [Heap.loads_cons, Heap.loads_of_not_mem (List.set_set _) (free words i granted),
        Heap.loadOf_set_self (List.set_set _) found, took, empty, Nat.zero_add]
      exact Nat.add_comm _ _
  | @lose _ i words slot active granted found zero =>
      exact .same rfl (Heap.loads_of_not_mem rfl (free words i granted))
  | start | keep | refuse | note | stop =>
      exact .same rfl (Heap.loads_perm _ (by simpa [Deed.returned, Deed.gained] using held))

theorem Deeds.spends (h : a.Deeds ds s s') (r : a.Ready others s) (kind : a.kind = .mutator)
    (noRivals : s.heap.NoRivals) (adopts_nothing : ∀ i, Deed.adopt i ∉ ds) :
    Spends (Deed.totalWords ds) s s' := by
  induction h with
  | nil s => exact .refl s
  | @cons d ds s s₁ s₂ first rest ih =>
      have ne (i : Nat) : d ≠ .adopt i := fun eq => adopts_nothing i (eq ▸ List.mem_cons_self)
      have r₁ := first.ready r fun j eq => absurd eq (ne j)
      have later :=
        ih r₁ (first.noRivals noRivals) fun i hi => adopts_nothing i (List.mem_cons_of_mem d hi)
      exact (first.spends r kind noRivals ne).trans later first.geometry

/-- The words that deeds hand out are those of their spans. -/
theorem totalWords_eq (ds : List Deed) :
    Deed.totalWords ds = ((ds.flatMap Deed.spans).map Span.words).sum := by
  induction ds with
  | nil => rfl
  | cons d ds ih =>
      have one : d.words = (d.spans.map Span.words).sum := by
        cases d <;> simp [Deed.words, Deed.spans]
      simp only [Deed.totalWords, List.map_cons, List.sum_cons, List.flatMap_cons,
        List.map_append, List.sum_append] at ih ⊢
      rw [ih, one]

/-! ## What the arena tells about it -/

/-- The regions held lie apart, so the bytes in use in them make up a word. -/
theorem Ready.inUse_lt (r : a.Ready others s) : s.inUse < Word.bound := by
  have known (i : Nat) (mine : i ∈ s.registers.regions) : ∃ slot : Slot,
      slot.region.Placed s.heap.supply.geometry i ∧ s.heap.loadOf i = slot.region.load := by
    obtain ⟨slot, found, -⟩ := r.slot_of_mem mine
    exact ⟨slot, r.order.placed found, Heap.loadOf_eq found⟩
  have nodup := r.nodup_regions
  unfold Store.inUse
  match regions : s.registers.regions, s.registers.length_regions_le with
  | [], _ => exact Nat.two_pow_pos 64
  | [i], _ =>
      obtain ⟨slot, p, load⟩ := known i (by simp [regions])
      have inside := p.inside
      have below := p.le_limit
      rw [Heap.loads_cons, Heap.loads_nil, load, Region.load]
      omega
  | [i, j], _ =>
      obtain ⟨slot, p, load⟩ := known i (by simp [regions])
      obtain ⟨slot', p', load'⟩ := known j (by simp [regions])
      have ne : i ≠ j := by
        rw [regions] at nodup
        simpa using nodup
      have inside := p.inside
      have below := p.le_limit
      have above := p.bottom_le
      have inside' := p'.inside
      have below' := p'.le_limit
      have above' := p'.bottom_le
      have apart := p.apart p' ne
      simp only [Heap.loads_cons, Heap.loads_nil, load, load', Region.load]
      omega

theorem usedAt_ends (r : a.Ready others s) {place : Option Place} (real : place ≠ some .sentinel)
    (mine : ∀ i, place = some (.table i) → i ∈ s.registers.regions) :
    (usedAt place).Ends s (.ok (s.heap.loads (Place.position? place))) s := by
  cases place with
  | none => exact .pure 0 s
  | some place =>
      cases place with
      | sentinel => exact absurd rfl real
      | table i =>
          obtain ⟨slot, found, -⟩ := r.slot_of_mem (mine i rfl)
          have used := Program.Ends.usedBytes (s := s) (Heap.find_table_eq_ok_iff.2 found)
            (r.order.placed found).used_eq
          rw [Place.position?_table, Heap.loads_cons, Heap.loadOf_eq found]
          exact used

/-- The bytes in use can always be told, and each region counts once. -/
theorem usedInRegions_ends (r : a.Ready others s) : usedInRegions.Ends s (.ok s.inUse) s := by
  have whole : s.inUse = s.heap.loads (Place.position? s.registers.held) +
      s.heap.loads (Place.position? s.registers.retained) := by
    rw [Store.inUse, Registers.regions, Heap.loads_append, Registers.position?_held]
  have active := usedAt_ends r (fun eq => (Registers.held_eq_some_iff.1 eq).2 rfl) fun i eq =>
    mem_regions_of_active (Registers.held_eq_some_iff.1 eq).1
  have retained := usedAt_ends r r.agree.real fun i eq => mem_regions_of_retained eq
  have total := Word.add_eq_ok (whole ▸ r.inUse_lt)
  rw [whole]
  exact (Program.Ends.held s).bind (active.bind ((Program.Ends.retained s).bind
    (retained.bind (Program.Ends.compute total s))))

end Arena

end RegionHeap
