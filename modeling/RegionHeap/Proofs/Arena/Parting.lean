import RegionHeap.Proofs.Arena.Locked

/-!
# Parting with regions

An arena of application threads parts with its active region when it retires. It puts the region
aside if that has enough room, and more than the region put aside before; else it hands the
region back. Nothing else that it is asked for between a start and a release changes what it has
put aside, unless words are claimed of that.
-/

namespace RegionHeap

/-- The slot of a region that has gone back where nobody waited. What was left of the region is a
filler if that was asked for, unless it was too short for one. -/
def Slot.closed (least : Nat) (filling : Bool) (slot : Slot) : Slot :=
  if filling = true ∧ least ≤ slot.region.left then
    { slot with region := slot.region.plugged least }
  else slot

theorem Slot.settled_eq_closed {slot : Slot} (noRivals : slot.rivals = []) (least : Nat)
    (filling : Bool) : slot.settled least filling = slot.closed least filling := by
  cases filling with
  | false => simp [closed, settled_false]
  | true =>
      rw [settled_true, ceded_of_rivals_eq_nil noRivals, closed]
      by_cases few : slot.region.left < least
      · simp [Region.plugged_of_lt few, Nat.not_le.2 few]
      · simp [Nat.not_lt.1 few]

/-- A region that an arena parts with: its slot as it was until then, whether the retirement
fills, and whether the region is put aside. -/
structure Parting where
  region : Nat
  slot : Slot
  filling : Bool
  kept : Bool
  deriving DecidableEq

namespace Parting

variable {least : Nat} {ps : List Parting} {p : Parting} {best : Option Parting}

/-- The bytes that were free in the region. -/
def room (p : Parting) : Nat := p.slot.region.room

/-- The best of the regions parted with: the first of those with the most room, if that is
enough. -/
inductive Best (least : Nat) : List Parting → Option Parting → Prop
  | lacking {ps : List Parting} (few : ∀ p ∈ ps, p.room < least) : Best least ps none
  | first {before after : List Parting} {p : Parting} (enough : least ≤ p.room)
      (more : ∀ q ∈ before, q.room < p.room) (most : ∀ q ∈ after, q.room ≤ p.room) :
      Best least (before ++ p :: after) (some p)

theorem Best.mem (h : Best least ps best) : ∀ q ∈ best, q ∈ ps := by
  cases h with
  | lacking few => exact nofun
  | first enough more most =>
      rintro q ⟨⟩
      exact List.mem_append_right _ List.mem_cons_self

/-- A region that is not worth it leaves the best what it is. -/
theorem Best.concat_unfit (h : Best least ps best)
    (unfit : ¬ (least ≤ p.room ∧ ∀ q ∈ best, q.room < p.room)) :
    Best least (ps ++ [p]) best := by
  cases h with
  | lacking few =>
      refine .lacking fun q hq => ?_
      rcases List.mem_append.1 hq with hq | hq
      · exact few q hq
      · obtain rfl := List.mem_singleton.1 hq
        exact Nat.not_le.1 fun enough => unfit ⟨enough, nofun⟩
  | @first before after b enough more most =>
      rw [List.append_assoc, List.cons_append]
      refine .first enough more fun q hq => ?_
      rcases List.mem_append.1 hq with hq | hq
      · exact most q hq
      · obtain rfl := List.mem_singleton.1 hq
        refine Nat.not_lt.1 fun better => unfit ⟨by omega, ?_⟩
        rintro _ ⟨⟩
        exact better

/-- A region that is worth it is the best from then on. -/
theorem Best.concat_worth (h : Best least ps best) (enough : least ≤ p.room)
    (better : ∀ q ∈ best, q.room < p.room) : Best least (ps ++ [p]) (some p) := by
  refine .first enough (fun q hq => ?_) nofun
  cases h with
  | lacking few => exact Nat.lt_of_lt_of_le (few q hq) enough
  | @first before after b _ more most =>
      have lt : b.room < p.room := better b rfl
      rcases List.mem_append.1 hq with hq | hq
      · exact Nat.lt_trans (more q hq) lt
      · rcases List.mem_cons.1 hq with rfl | hq
        · exact lt
        · exact Nat.lt_of_le_of_lt (most q hq) lt

end Parting

/-- The region that an arena has parted with between two stores, as its registers tell. -/
def Store.parting (s s' : Store) (filling : Bool) : Option Parting :=
  match s.registers.active with
  | some (.table i) =>
      if s'.registers.active = some (.table i) then none
      else (s.heap.supply.slots[i]?).map fun slot =>
        { region := i, slot, filling, kept := s'.registers.retained = some (.table i) }
  | some .sentinel | none => none

/-- An active region that stays is not parted with. -/
theorem Store.parting_of_active {s s' : Store} {filling : Bool}
    (active : ∀ i, s.registers.active = some (.table i) →
      s'.registers.active = some (.table i)) : s.parting s' filling = none := by
  unfold Store.parting
  cases eq : s.registers.active with
  | none => rfl
  | some place =>
      cases place with
      | sentinel => rfl
      | table i => exact if_pos (active i eq)

/-- Whether a call leaves it to the retirements of an arena what becomes of its regions. -/
def Call.retains : Call → Bool
  | .release | .releasePlain | .retirePlain _ | .claimRetained .. => false
  | _ => true

/-- Whether a call that retires the active region fills it. -/
def Call.fills : Call → Bool
  | .retire filling => filling
  | _ => true

/-- A deed by which a region comes to an arena that holds the sentinel, or fails to come. -/
def Deed.arrives : Deed → Bool
  | .refuse _ | .install .. | .lose .. | .adopt _ | .note _ => true
  | _ => false

namespace Arena

open Program

variable {a : Arena} {others : List Nat} {s s₁ s' : Store} {d : Deed} {ds : List Deed}
  {min desired : Nat}

/-! ## Regions that are nobody's -/

theorem Does.free_subset (h : a.Does d s s') : s'.heap.supply.free ⊆ s.heap.supply.free := by
  cases h with
  | refuse active refused => simp [requested, Supply.request, refused]
  | install active granted found pos fits =>
      simp [published, prepared, noted, requested, Supply.request, granted, List.tail_subset]
  | lose active granted found zero =>
      simp [prepared, noted, requested, Supply.request, granted, List.tail_subset]
  | start | claim | outrun | giveUp | keep | displace | drop | adopt | note | stop =>
      exact List.Subset.refl _

/-- A region that is neither free nor held by the arena stays as it is, unless it is adopted. -/
theorem Does.spares (h : a.Does d s s') {j : Nat} (free : j ∉ s.heap.supply.free)
    (mine : j ∉ s.registers.regions) (ne : d ≠ .adopt j) :
    s'.heap.supply.slots[j]? = s.heap.supply.slots[j]? ∧ j ∉ s'.heap.supply.free ∧
      j ∉ s'.registers.regions := by
  refine ⟨?_, fun hj => free (h.free_subset hj), fun hj => ?_⟩
  · cases h.touches with
    | none same => rw [same]
    | slot i slot slot' found own set rivals =>
        have other : i ≠ j := by
          rintro rfl
          exact own.elim mine free
        rw [set, List.getElem?_set_ne other]
  · have gained : j ∈ d.gained :=
      (List.mem_append.1 (h.regions.subset (List.mem_append_left _ hj))).resolve_left mine
    cases h with
    | install active granted found pos fits =>
        obtain rfl := List.mem_singleton.1 gained
        exact free ((Supply.free_of_grant granted).2 ▸ List.mem_cons_self)
    | adopt active fresh found full =>
        obtain rfl := List.mem_singleton.1 gained
        exact ne rfl
    | _ => exact List.not_mem_nil gained

theorem Deeds.spares (h : a.Deeds ds s s') {j : Nat} (free : j ∉ s.heap.supply.free)
    (mine : j ∉ s.registers.regions) (ne : Deed.adopt j ∉ ds) :
    s'.heap.supply.slots[j]? = s.heap.supply.slots[j]? ∧ j ∉ s'.heap.supply.free ∧
      j ∉ s'.registers.regions := by
  induction h with
  | nil s => exact ⟨rfl, free, mine⟩
  | @cons d ds s s₁ s₂ first rest ih =>
      obtain ⟨same, free₁, mine₁⟩ :=
        first.spares free mine fun eq => ne (eq ▸ List.mem_cons_self)
      obtain ⟨same₂, still⟩ := ih free₁ mine₁ fun hd => ne (List.mem_cons_of_mem d hd)
      exact ⟨same₂.trans same, still⟩

/-! ## The region put aside -/

/-- The arena goes on with the region that it has, or may get one over the sentinel. It hands
nothing back, and the region put aside stays as it is. -/
structure Stays (s s' : Store) : Prop where
  active : ∀ i, s.registers.active = some (.table i) → s'.registers.active = some (.table i)
  started : s.registers.active ≠ none → s'.registers.active ≠ none
  retained : s'.registers.retained = s.registers.retained
  kept : ∀ j, s.registers.retained = some (.table j) →
    s'.heap.supply.slots[j]? = s.heap.supply.slots[j]?
  returns : s'.heap.supply.mutatorReturns = s.heap.supply.mutatorReturns

theorem Stays.refl (s : Store) : Stays s s :=
  ⟨fun _ => id, id, rfl, fun _ _ => rfl, rfl⟩

/-- What comes to the arena is not what it has put aside. -/
theorem Does.stays (h : a.Does d s s') (r : a.Ready others s) (arrives : d.arrives = true) :
    Stays s s' := by
  have ne {words i j : Nat} (granted : s.heap.supply.grant words = some i)
      (retained : s.registers.retained = some (.table j)) : i ≠ j := by
    rintro rfl
    exact r.not_mem_free (mem_regions_of_retained retained)
      ((Supply.free_of_grant granted).2 ▸ List.mem_cons_self)
  have none {i : Nat} (active : s.registers.active = some .sentinel)
      (other : s.registers.active = some (.table i)) : False := by
    cases active.symm.trans other
  cases h with
  | refuse active refused => exact ⟨fun _ other => (none active other).elim, id, rfl,
      fun _ _ => rfl, rfl⟩
  | @install _ i words slot active granted found pos fits =>
      refine ⟨fun _ other => (none active other).elim, fun _ => nofun, rfl, fun j retained => ?_,
        rfl⟩
      change ((s.heap.supply.slots.set i _).set i _)[j]? = _
      rw [List.set_set, List.getElem?_set_ne (ne granted retained)]
  | @lose _ i words slot active granted found zero =>
      refine ⟨fun _ other => (none active other).elim, id, rfl, fun j retained => ?_, rfl⟩
      exact List.getElem?_set_ne (ne granted retained)
  | adopt active fresh found full => exact ⟨fun _ other => (none active other).elim,
      fun _ => nofun, rfl, fun _ _ => rfl, rfl⟩
  | note active => exact ⟨fun _ other => (none active other).elim, id, rfl, fun _ _ => rfl, rfl⟩
  | start | claim | outrun | giveUp | keep | displace | drop | stop => cases arrives

theorem Deeds.stays (h : a.Deeds ds s s') (r : a.Ready others s) (few : ds.length ≤ 1)
    (arrives : ∀ d ∈ ds, d.arrives = true) : Stays s s' := by
  cases h with
  | nil s => exact .refl s
  | cons first rest =>
      cases rest with
      | nil s => exact first.stays r (arrives _ List.mem_cons_self)
      | cons => simp at few

theorem Installing.stays {words : Nat} {o : Except Fault (Option Nat)}
    (how : Installing words o ds) (deeds : a.Deeds ds s s') (r : a.Ready others s) :
    Stays s s' := by
  cases how <;> exact deeds.stays r (by simp) (by simp [Deed.arrives])

theorem Adopting.stays {place : Place} {o : Except Fault Unit} (how : Adopting place o ds)
    (deeds : a.Deeds ds s s') (r : a.Ready others s) : Stays s s' := by
  cases how <;> exact deeds.stays r (by simp) (by simp [Deed.arrives])

/-- No arena starts twice. -/
theorem Starting.stays {anew : Bool} {o : Except Fault Unit} (how : Starting anew o ds)
    (deeds : a.Deeds ds s s') (busy : s.registers.active ≠ none) : Stays s s' := by
  cases how with
  | fault e =>
      cases deeds
      exact .refl s
  | started =>
      cases deeds with
      | cons first rest =>
          cases first with
          | start anew idle none => exact absurd idle busy

/-- Words that are claimed of the active region are not claimed of the one put aside. -/
theorem Does.claim_stays {i : Nat} {span : Span} (h : a.Does (.claim i span) s s')
    (r : a.Ready others s) (active : s.registers.active = some (.table i)) : Stays s s' := by
  cases h with
  | claim mine found pos fits =>
      refine ⟨fun _ => id, id, rfl, fun j retained => ?_, rfl⟩
      exact List.getElem?_set_ne (active_ne_retained r.nodup_regions active retained)

/-- A claim of the active region goes on there, or is refused and changes nothing. -/
theorem claim_stays (r : a.Ready others s) (noRivals : s.heap.NoRivals) {place : Place}
    (active : s.registers.active = some place) (min desired : Nat) :
    ∃ o s', (Program.claim place min desired).Ends s o s' ∧ Stays s s' ∧
      (o = .ok none → s' = s) := by
  obtain ⟨o, s', ds, ends, deeds, how, at_place⟩ :=
    claim_endsBy min desired r.able (regions_of_active active)
  refine ⟨o, s', ends, ?_⟩
  cases how with
  | fault | refused =>
      cases deeds
      exact ⟨.refl s, fun _ => rfl⟩
  | outrun i =>
      cases deeds with
      | cons first rest =>
          cases first with
          | outrun mine found rivals => exact absurd (noRivals _ _ found) rivals
  | served i span least most =>
      obtain rfl := at_place i span List.mem_cons_self
      cases deeds with
      | cons first rest =>
          cases rest
          exact ⟨first.claim_stays r active, nofun⟩

/-- The region in the slot goes back: what was in use in it is recorded, it is filled if that is
asked for, and it is nobody's then. -/
structure HandsBack (a : Arena) (s s' : Store) (i : Nat) (slot : Slot) (filling : Bool) : Prop where
  returns : s'.heap.supply.mutatorReturns =
    s.heap.supply.mutatorReturns ++ [{ region := i, usedBytes := slot.region.load }]
  slot : s'.heap.supply.slots[i]? = some (slot.closed a.settings.minFillWords filling)
  free : i ∉ s'.heap.supply.free
  mine : i ∉ s'.registers.regions

/-- How an arena goes on that leaves its regions to its retirements. It parts with none, or with
the active one, which it hands back or puts aside. If it has put one aside before, that one goes
back then, and is filled. -/
inductive Continues (a : Arena) (filling : Bool) (s s' : Store) : Option Parting → Prop
  | stays (h : Stays s s') : Continues a filling s s' none
  | unfit {i : Nat} {slot : Slot} (active : s.registers.active = some (.table i))
      (found : s.heap.supply.slots[i]? = some slot) (started : s'.registers.active ≠ none)
      (unfit : ¬ a.Worth s slot) (retained : s'.registers.retained = s.registers.retained)
      (still : ∀ j, s.registers.retained = some (.table j) →
        s'.heap.supply.slots[j]? = s.heap.supply.slots[j]?)
      (back : a.HandsBack s s' i slot filling) :
      Continues a filling s s' (some { region := i, slot, filling, kept := false })
  | kept {i : Nat} {slot : Slot} (active : s.registers.active = some (.table i))
      (found : s.heap.supply.slots[i]? = some slot) (started : s'.registers.active ≠ none)
      (enough : a.settings.minRetainBytes ≤ slot.region.room)
      (none : s.registers.retained = none) (retained : s'.registers.retained = some (.table i))
      (still : s'.heap.supply.slots[i]? = some slot)
      (returns : s'.heap.supply.mutatorReturns = s.heap.supply.mutatorReturns) :
      Continues a filling s s' (some { region := i, slot, filling, kept := true })
  | displaced {i j : Nat} {slot other : Slot} (active : s.registers.active = some (.table i))
      (found : s.heap.supply.slots[i]? = some slot) (started : s'.registers.active ≠ none)
      (enough : a.settings.minRetainBytes ≤ slot.region.room)
      (before : s.registers.retained = some (.table j))
      (there : s.heap.supply.slots[j]? = some other)
      (better : other.region.room < slot.region.room)
      (retained : s'.registers.retained = some (.table i))
      (still : s'.heap.supply.slots[i]? = some slot) (back : a.HandsBack s s' j other true) :
      Continues a filling s s' (some { region := i, slot, filling, kept := true })

/-- The registers tell which region the arena parts with. -/
theorem Continues.parting {filling : Bool} {p : Option Parting}
    (h : a.Continues filling s s' p) (nodup : s'.registers.regions.Nodup) :
    s.parting s' filling = p := by
  have other {i : Nat} (retained : s'.registers.retained = some (.table i)) :
      s'.registers.active ≠ some (.table i) := fun active =>
    active_ne_retained nodup active retained rfl
  cases h with
  | stays h => exact Store.parting_of_active h.active
  | @unfit i slot active found started unfit retained still back =>
      have gone : s'.registers.active ≠ some (.table i) := fun eq =>
        back.mine (mem_regions_of_active eq)
      have notKept : s'.registers.retained ≠ some (.table i) := fun eq =>
        back.mine (mem_regions_of_retained eq)
      simp [Store.parting, active, found, gone, notKept]
  | kept active found started enough none retained still returns =>
      simp [Store.parting, active, found, other retained, retained]
  | displaced active found started enough before there better retained still back =>
      simp [Store.parting, active, found, other retained, retained]

/-- An arena of application threads counts what it wastes. -/
theorem retire_vacates (r : a.Ready others s) (kind : a.kind = .mutator)
    (busy : s.registers.active ≠ none) (filling : Bool) :
    ∃ waste s' ds, (a.retire filling).Ends s (.ok waste) s' ∧
      a.Vacates filling true s waste ds s' := by
  have counts : decide (a.kind ≠ .plain) = true := by simp [kind]
  exact counts ▸ (retire_retires r.able filling).vacates busy

section
variable (r : a.Ready others s) (kind : a.kind = .mutator) (noRivals : s.heap.NoRivals)
include r kind noRivals

/-- A region that goes back is not touched by what the arena does next. -/
theorem handsBack {i : Nat} {slot : Slot} {filling : Bool} (deeds : a.Deeds ds s₁ s')
    (adopts_nothing : ∀ i, Deed.adopt i ∉ ds) (stays : Stays s₁ s')
    (mine : i ∈ s.registers.regions) (found : s.heap.supply.slots[i]? = some slot)
    (records : s₁.heap.supply.mutatorReturns = s.heap.supply.mutatorReturns ++
      a.mutatorReturns i (slot.live a.settings.minFillWords filling))
    (set : s₁.heap.supply.slots =
      s.heap.supply.slots.set i (slot.settled a.settings.minFillWords filling))
    (free : s₁.heap.supply.free = s.heap.supply.free) (out : i ∉ s₁.registers.regions) :
    a.HandsBack s s' i slot filling := by
  have notFree : i ∉ s₁.heap.supply.free := free ▸ r.not_mem_free mine
  obtain ⟨same, notFree', out'⟩ := deeds.spares notFree out (adopts_nothing i)
  refine ⟨?_, ?_, notFree', out'⟩
  · rw [stays.returns, records, Slot.live_of_rivals_eq_nil (noRivals i slot found)]
    simp [mutatorReturns, kind]
  · rw [same, set, ← Slot.settled_eq_closed (noRivals i slot found)]
    exact List.getElem?_set_self (List.getElem?_eq_some_iff.1 found).1

/-- The region that is active and the one put aside are not the same. -/
theorem Vacates.continues {waste : Nat} {filling : Bool} {es : List Deed}
    (h : a.Vacates filling true s waste ds s₁) (deeds : a.Deeds es s₁ s')
    (adopts_nothing : ∀ i, Deed.adopt i ∉ es) (stays : Stays s₁ s') :
    ∃ p, a.Continues filling s s' p := by
  have started : s'.registers.active ≠ none := stays.started (by simp [h.active])
  have nodup := r.nodup_regions
  cases h with
  | idle active => exact ⟨none, .stays stays⟩
  | @gaveUp i waste slot _ found unfit does =>
      cases does with
      | giveUp active there wasted =>
          cases found.symm.trans there
          have mine := mem_regions_of_active active
          have out : i ∉ Registers.regions
              (a.accounted true waste (emptied (a.gaveUp i filling slot s))).registers := by
            rw [Registers.regions, active] at nodup
            exact (List.nodup_cons.1 nodup).1
          refine ⟨_, .unfit active found started (unfit rfl kind) stays.retained
            (fun j retained => ?_)
            (handsBack r kind noRivals deeds adopts_nothing stays mine found rfl rfl rfl out)⟩
          rw [stays.kept j retained]
          exact List.getElem?_set_ne (active_ne_retained nodup active retained)
  | @kept i _ does =>
      cases does with
      | keep kind' active none found worth =>
          exact ⟨_, .kept active found started worth none stays.retained
            ((stays.kept i rfl).trans found) stays.returns⟩
  | @displaced i j waste _ does =>
      cases does with
      | @displace _ _ _ _ slot other kind' active retained found there worth better wasted =>
          have mine := mem_regions_of_retained retained
          have ne := active_ne_retained nodup active retained
          have out : j ∉ Registers.regions (a.accounted true waste (emptied
              { a.gaveUp j true other s with
                registers.retained := some (.table i) })).registers := by
            change j ∉ Place.position? (some .sentinel) ++ Place.position? (some (.table i))
            simpa using ne.symm
          refine ⟨_, .displaced active found started worth retained there better stays.retained
            ?_ (handsBack r kind noRivals deeds adopts_nothing stays mine there rfl rfl rfl out)⟩
          rw [stays.kept i rfl, ← found]
          exact List.getElem?_set_ne ne.symm

variable (busy : s.registers.active ≠ none)
include busy

theorem retire_continues (filling : Bool) :
    ∃ waste s' p, (a.retire filling).Ends s (.ok waste) s' ∧ a.Continues filling s s' p := by
  obtain ⟨waste, s', ds, ends, vacates⟩ := retire_vacates r kind busy filling
  obtain ⟨p, continues⟩ := vacates.continues r kind noRivals (.nil s') (by simp) (.refl s')
  exact ⟨waste, s', p, ends, continues⟩

theorem claimFresh_continues (min desired : Nat) :
    ∃ o s' p, (a.claimFresh min desired).Ends s o s' ∧ a.Continues true s s' p := by
  obtain ⟨waste, s₁, ds, retired, vacates⟩ := retire_vacates r kind busy true
  have r₁ := vacates.deeds.ready r (unowned_of_not_mem vacates.retiring.adopts_nothing)
  obtain ⟨o, s', es, installed, deeds, how⟩ := install_endsBy r₁ desired
  obtain ⟨p, continues⟩ :=
    vacates.continues r kind noRivals deeds how.adopts_nothing (how.stays deeds r₁)
  exact ⟨_, s', p, claimFresh_ends retired installed, continues⟩

theorem claimLocked_continues (min desired : Nat) :
    ∃ o s' p, (a.claimLocked min desired).Ends s o s' ∧ a.Continues true s s' p := by
  obtain ⟨place, active⟩ := Option.ne_none_iff_exists'.1 busy
  obtain ⟨o, s₁, claimed, stays, refused⟩ := claim_stays r noRivals active min desired
  have ends := claimActive_ends (a := a) active claimed
  match o with
  | .error e => exact ⟨_, s₁, none, ends.bind_error _, .stays stays⟩
  | .ok (some span) => exact ⟨_, s₁, none, ends.bind (Ends.pure _ s₁), .stays stays⟩
  | .ok none =>
      obtain rfl := refused rfl
      obtain ⟨o, s', p, fresh, continues⟩ := claimFresh_continues r kind noRivals busy min desired
      exact ⟨o, s', p, ends.bind fresh, continues⟩

/-- Every call but a release and those that go behind the back of the retirements leaves the
regions of the arena to these. -/
theorem answer_continues {c : Call} (retains : c.retains = true)
    (named : ∀ place, c.place? = some place → ∃ slot, s.heap.find place = .ok slot) :
    ∃ o s' p, (a.answer c).Ends s o s' ∧ a.Continues c.fills s s' p := by
  obtain ⟨place, active⟩ := Option.ne_none_iff_exists'.1 busy
  cases c with
  | start =>
      obtain ⟨o, s', ds, ends, deeds, how⟩ := start_endsBy a s
      exact ⟨_, s', none, ends.map fun _ => Answer.nothing, .stays (how.stays deeds busy)⟩
  | startPlain =>
      obtain ⟨o, s', ds, ends, deeds, how⟩ := startPlain_endsBy (a := a) (s := s)
      exact ⟨_, s', none, ends.map fun _ => Answer.nothing, .stays (how.stays deeds busy)⟩
  | retire filling =>
      obtain ⟨waste, s', p, ends, continues⟩ := retire_continues r kind noRivals busy filling
      exact ⟨_, s', p, ends.map Answer.bytes, continues⟩
  | allocate words =>
      obtain ⟨o, s', claimed, stays, -⟩ := claim_stays r noRivals active words words
      have ends : (a.allocate words).Ends s (o.map (Option.map Span.start)) s' :=
        (Ends.current active).bind (claimed.map (Option.map Span.start))
      exact ⟨_, s', none, ends.map Answer.address, .stays stays⟩
  | claim min desired =>
      obtain ⟨o, s', claimed, stays, -⟩ := claim_stays r noRivals active min desired
      exact ⟨_, s', none, (claimActive_ends active claimed).map Answer.span, .stays stays⟩
  | claimLocked min desired =>
      obtain ⟨o, s', p, ends, continues⟩ := claimLocked_continues r kind noRivals busy min desired
      exact ⟨_, s', p, ends.map Answer.span, continues⟩
  | claimFresh min desired =>
      obtain ⟨o, s', p, ends, continues⟩ := claimFresh_continues r kind noRivals busy min desired
      exact ⟨_, s', p, ends.map Answer.span, continues⟩
  | claimForced words =>
      obtain ⟨o, s', ds, ends, deeds, how⟩ := claimForced_endsBy r words
      exact ⟨_, s', none, ends.map Answer.address, .stays (how.stays deeds r)⟩
  | install words =>
      obtain ⟨o, s', ds, ends, deeds, how⟩ := install_endsBy r words
      exact ⟨_, s', none, ends.map Answer.address, .stays (how.stays deeds r)⟩
  | adopt place =>
      obtain ⟨slot, found⟩ := named place rfl
      obtain ⟨o, s', ds, ends, deeds, how⟩ := adopt_endsBy r.able found
      exact ⟨_, s', none, ends.map fun _ => Answer.nothing, .stays (how.stays deeds r)⟩
  | held => exact ⟨_, s, none, (Ends.held s).map Answer.place, .stays (.refl s)⟩
  | summary => exact ⟨_, s, none, (summary_ends s).map Answer.summary, .stays (.refl s)⟩
  | release | releasePlain | retirePlain | claimRetained => cases retains

end

end Arena

end RegionHeap
