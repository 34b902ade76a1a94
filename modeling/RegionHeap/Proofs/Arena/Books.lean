import RegionHeap.Proofs.Arena.Frame

/-!
# The books of the supply

The supply records what it grants and what it takes back. What a deed brings, hands
back and is granted stands on the deed, so the records of a run are those of its deeds.
-/

namespace RegionHeap

namespace Supply

/-- The regions that were granted, once for each time. -/
def granted (s : Supply) : List Nat :=
  s.requests.filterMap Request.granted

/-- The regions that were taken back, once for each time. -/
def returned (s : Supply) : List Nat :=
  s.mutatorReturns.map MutatorReturn.region ++ s.collectorReturns.map CollectorReturn.region

end Supply

namespace Arena

variable {a : Arena} {others : List Nat} {s s' : Store} {d : Deed} {ds : List Deed}

theorem requested_granted (words : Nat) :
    (a.requested words s).heap.supply.granted =
      s.heap.supply.granted ++ (s.heap.supply.grant words).toList := by
  cases h : s.heap.supply.grant words <;>
    simp [requested, Supply.request, Supply.granted, List.filterMap_append, h]

theorem handedBack_returned (i live : Nat) :
    (a.handedBack i live s).heap.supply.returned.Perm (s.heap.supply.returned ++ [i]) := by
  unfold handedBack Supply.returned mutatorReturns collectorReturns
  cases a.kind with
  | plain | mutator =>
      simp only [List.map_append, List.append_assoc, List.append_nil]
      exact List.Perm.append_left _ List.perm_append_comm
  | collector purpose => simp

theorem Does.granted (h : a.Does d s s') :
    s'.heap.supply.granted = s.heap.supply.granted ++ d.granted := by
  cases h with
  | @refuse _ words active refused =>
      rw [requested_granted, refused]
      rfl
  | @install _ i words slot active granted found pos fits =>
      have asked := requested_granted (a := a) (s := s) words
      rw [granted] at asked
      exact asked
  | @lose _ i words slot active granted found zero =>
      have asked := requested_granted (a := a) (s := s) words
      rw [granted] at asked
      exact asked
  | start | claim | outrun | giveUp | keep | displace | drop | adopt | note | stop =>
      exact (List.append_nil _).symm

theorem Does.returned (h : a.Does d s s') :
    s'.heap.supply.returned.Perm (s.heap.supply.returned ++ d.returned) := by
  cases h with
  | giveUp active found wasted => exact handedBack_returned _ _
  | displace kind active retained found foundKept worth better wasted =>
      exact handedBack_returned _ _
  | drop kind idle retained foundKept wasted => exact handedBack_returned _ _
  | start | claim | outrun | refuse | install | lose | keep | adopt | note | stop =>
      exact (List.append_nil _).symm ▸ List.Perm.refl _

/-- What an arena holds changes by what it gains and what it hands back. -/
theorem Does.regions (h : a.Does d s s') :
    (s'.registers.regions ++ d.returned).Perm (s.registers.regions ++ d.gained) := by
  cases h with
  | start anew idle none => simp [Registers.regions, idle, Deed.returned, Deed.gained]
  | @giveUp _ i waste slot filling counted active found wasted =>
      have before : s.registers.regions = i :: Place.position? s.registers.retained := by
        simp [Registers.regions, active]
      simp only [before, Deed.gained, List.append_nil]
      exact List.perm_append_singleton i (Place.position? s.registers.retained)
  | keep kind active none found worth =>
      simp [Registers.regions, active, none, Deed.returned, Deed.gained]
  | displace kind active retained found foundKept worth better wasted =>
      simp [Registers.regions, active, retained, Deed.returned, Deed.gained, accounted, emptied]
  | drop kind idle retained foundKept wasted =>
      simp [Registers.regions, idle, retained, Deed.returned, Deed.gained, accounted, gaveUp,
        handedBack, Store.setSlot]
  | @install _ i words slot active granted found pos fits =>
      have before : s.registers.regions = Place.position? s.registers.retained := by
        simp [Registers.regions, active]
      simp only [before, Deed.returned, List.append_nil]
      exact (List.perm_append_singleton i (Place.position? s.registers.retained)).symm
  | @adopt _ i slot active fresh found full =>
      have before : s.registers.regions = Place.position? s.registers.retained := by
        simp [Registers.regions, active]
      simp only [before, Deed.returned, List.append_nil]
      exact (List.perm_append_singleton i (Place.position? s.registers.retained)).symm
  | stop active => simp [Registers.regions, active, Deed.returned, Deed.gained]
  | claim | outrun | refuse | lose | note => exact List.Perm.refl _

/-- Nothing is left where words are always requested. -/
theorem Does.ne_lose (h : a.Does d s s') {m : Nat} (le : m ≤ s.heap.supply.requests.length)
    (asked : ∀ q ∈ s'.heap.supply.requests.drop m, 0 < q.words) (i words : Nat) :
    d ≠ .lose i words := by
  rintro rfl
  cases h with
  | @lose _ i words slot active granted found zero =>
      have recorded : (a.prepared i words slot s).heap.supply.requests =
          s.heap.supply.requests ++
            [⟨words, a.purpose, a.node, s.heap.supply.grant words⟩] := rfl
      rw [recorded, List.drop_append_of_le_length le] at asked
      have last := asked _ (List.mem_append_right _ List.mem_cons_self)
      exact Nat.ne_of_gt last zero

theorem Deeds.granted (h : a.Deeds ds s s') :
    s'.heap.supply.granted = s.heap.supply.granted ++ ds.flatMap Deed.granted := by
  induction h with
  | nil s => simp
  | cons first rest ih => rw [ih, first.granted, List.flatMap_cons, List.append_assoc]

theorem Deeds.returned (h : a.Deeds ds s s') :
    s'.heap.supply.returned.Perm (s.heap.supply.returned ++ ds.flatMap Deed.returned) := by
  induction h with
  | nil s => simp
  | cons first rest ih =>
      rw [List.flatMap_cons, ← List.append_assoc]
      exact ih.trans (first.returned.append_right _)

theorem Deeds.regions (h : a.Deeds ds s s') :
    (s'.registers.regions ++ ds.flatMap Deed.returned).Perm
      (s.registers.regions ++ ds.flatMap Deed.gained) := by
  rw [List.perm_iff_count]
  intro i
  induction h with
  | nil s => simp
  | cons first rest ih =>
      have one := first.regions.count_eq i
      simp only [List.flatMap_cons, List.count_append] at one ih ⊢
      omega

theorem Deeds.lose_not_mem (h : a.Deeds ds s s') {m : Nat}
    (le : m ≤ s.heap.supply.requests.length)
    (asked : ∀ q ∈ s'.heap.supply.requests.drop m, 0 < q.words) (i words : Nat) :
    Deed.lose i words ∉ ds := by
  induction h with
  | nil s => exact List.not_mem_nil
  | @cons d ds s s₁ s₂ first rest ih =>
      have asked₁ : ∀ q ∈ s₁.heap.supply.requests.drop m, 0 < q.words := fun q hq =>
        asked q ((rest.requests.drop m).subset hq)
      have le₁ := Nat.le_trans le first.requests.length_le
      rintro (_ | ⟨_, hd⟩)
      · exact first.ne_lose le asked₁ i words rfl
      · exact ih le₁ asked hd

/-- What is not lost of what is granted is gained, and what is adopted besides. -/
theorem gained_perm (none : ∀ i words, Deed.lose i words ∉ ds) :
    (ds.flatMap Deed.gained).Perm (ds.flatMap Deed.granted ++ ds.flatMap Deed.adopted) := by
  rw [List.perm_iff_count]
  intro i
  induction ds with
  | nil => rfl
  | cons d ds ih =>
      have rest := ih fun j words h => none j words (List.mem_cons_of_mem d h)
      have one : d.gained.count i = d.granted.count i + d.adopted.count i := by
        cases d with
        | lose j words => exact absurd List.mem_cons_self (none j words)
        | adopt j => exact (Nat.zero_add _).symm
        | _ => rfl
      simp only [List.flatMap_cons, List.count_append] at rest ⊢
      omega

end Arena

end RegionHeap
