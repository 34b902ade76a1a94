import RegionHeap.Proofs.Arena.Able

/-!
# How an arena gives regions up

A retirement of an arena that was started answers the bytes that its deeds waste and
leaves the sentinel. A release leaves nothing.
-/

namespace RegionHeap

namespace Arena

open Program

/-- How a retirement can go that answers so many bytes. -/
inductive Retiring (filling counted : Bool) : Nat → List Deed → Prop
  | idle : Retiring filling counted 0 []
  | gaveUp (i waste : Nat) : Retiring filling counted waste [.giveUp i filling counted waste]
  | kept (i : Nat) : Retiring filling counted 0 [.keep i]
  | displaced (i j waste : Nat) : Retiring filling counted waste [.displace i j waste]

theorem Retiring.adopts_nothing {filling counted : Bool} {waste : Nat} {ds : List Deed}
    (h : Retiring filling counted waste ds) (i : Nat) : Deed.adopt i ∉ ds := by
  cases h <;> simp

/-- No region comes to an arena that retires. -/
theorem Retiring.gains_nothing {filling counted : Bool} {waste : Nat} {ds : List Deed}
    (h : Retiring filling counted waste ds) :
    ds.flatMap Deed.gained = [] ∧ ∀ i words, Deed.lose i words ∉ ds := by
  cases h <;> simp [Deed.gained]

theorem Retiring.totalWaste {filling counted : Bool} {waste : Nat} {ds : List Deed}
    (h : Retiring filling counted waste ds) : Deed.totalWaste ds = waste := by
  cases h <;> simp [Deed.totalWaste, Deed.waste]

/-- The region in the slot is worth putting aside: it has enough room, and more than the one
that is. -/
def Worth (a : Arena) (s : Store) (slot : Slot) : Prop :=
  a.settings.minRetainBytes ≤ slot.region.room ∧
    ∀ j kept, s.registers.retained = some (.table j) →
      s.heap.supply.slots[j]? = some kept → kept.region.room < slot.region.room

/-- What becomes of the active region when an arena retires it. Only an arena of application
threads that retires in its own way puts a region aside, and it does if that is worth it. -/
inductive Vacates (a : Arena) (filling counted : Bool) (s : Store) : Nat → List Deed → Store → Prop
  | idle (active : s.registers.active = some .sentinel) : Vacates a filling counted s 0 [] s
  | gaveUp {i waste : Nat} {slot : Slot} {s' : Store}
      (found : s.heap.supply.slots[i]? = some slot)
      (unfit : counted = true → a.kind = .mutator → ¬ a.Worth s slot)
      (does : a.Does (.giveUp i filling counted waste) s s') :
      Vacates a filling counted s waste [.giveUp i filling counted waste] s'
  | kept {i : Nat} {s' : Store} (does : a.Does (.keep i) s s') :
      Vacates a filling counted s 0 [.keep i] s'
  | displaced {i j waste : Nat} {s' : Store} (does : a.Does (.displace i j waste) s s') :
      Vacates a filling counted s waste [.displace i j waste] s'

theorem Vacates.deeds {a : Arena} {s s' : Store} {filling counted : Bool} {waste : Nat}
    {ds : List Deed} (h : a.Vacates filling counted s waste ds s') : a.Deeds ds s s' := by
  cases h with
  | idle active => exact .nil s
  | gaveUp found unfit does => exact does.single
  | kept does => exact does.single
  | displaced does => exact does.single

theorem Vacates.retiring {a : Arena} {s s' : Store} {filling counted : Bool} {waste : Nat}
    {ds : List Deed} (h : a.Vacates filling counted s waste ds s') :
    Retiring filling counted waste ds := by
  cases h with
  | idle active => exact .idle
  | gaveUp found unfit does => exact .gaveUp _ _
  | kept does => exact .kept _
  | displaced does => exact .displaced _ _ _

/-- The program retires the active region of an arena that was started. -/
structure Retires (a : Arena) (x : Program Nat) (s : Store) (filling counted : Bool) :
    Prop where
  idle : s.registers.active = none → x.Ends s (.error (.notStarted a.name)) s
  vacates : s.registers.active ≠ none → ∃ waste s' ds, x.Ends s (.ok waste) s' ∧
    a.Vacates filling counted s waste ds s'

/-- After a retirement the arena holds the sentinel. -/
theorem Vacates.active {a : Arena} {s s' : Store} {filling counted : Bool} {waste : Nat}
    {ds : List Deed} (h : a.Vacates filling counted s waste ds s') :
    s'.registers.active = some .sentinel := by
  cases h with
  | idle active => exact active
  | gaveUp found unfit does =>
      cases does
      rfl
  | kept does =>
      cases does
      rfl
  | displaced does =>
      cases does
      rfl

theorem Retires.busy {a : Arena} {x : Program Nat} {s : Store} {filling counted : Bool}
    (h : a.Retires x s filling counted) (started : s.registers.active ≠ none) :
    ∃ waste s' ds, x.Ends s (.ok waste) s' ∧ a.Deeds ds s s' ∧
      Retiring filling counted waste ds ∧ s'.registers.active = some .sentinel := by
  obtain ⟨waste, s', ds, ends, vacates⟩ := h.vacates started
  exact ⟨waste, s', ds, ends, vacates.deeds, vacates.retiring, vacates.active⟩

/-- The program retires the active region and lets go of the sentinel. -/
structure Releases (a : Arena) (x : Program (Option Place)) (s : Store) (counted : Bool) :
    Prop where
  idle : s.registers.active = none → x.Ends s (.error (.notStarted a.name)) s
  busy : s.registers.active ≠ none → ∃ s' waste ds, x.Ends s (.ok s.registers.held) s' ∧
    a.Deeds (ds ++ [.stop]) s s' ∧ Retiring false counted waste ds ∧
      s'.registers.active = none

variable {a : Arena} {s : Store}

/-- A region of the arena is given up without a fault. -/
theorem Able.giveUp_ends (r : a.Able s) {i : Nat} {slot : Slot}
    (mine : i ∈ s.registers.regions) (here : s.heap.supply.slots[i]? = some slot)
    (agree : ∀ purpose, a.kind = .collector purpose → s.registers.active = some (.table i))
    (filling : Bool) :
    (a.giveUp (.table i) filling).Ends s (.ok (slot.waste a.settings.minFillWords filling))
      (a.gaveUp i filling slot s) := by
  obtain ⟨slot', here', full⟩ := r.slot_of_mem mine
  cases here.symm.trans here'
  exact Arena.giveUp_ends r.suits r.sound (r.allPlaced.placed here)
    (Heap.find_table_eq_ok_iff.2 here) full
    (fun purpose kind => r.agree.baseline kind (agree purpose kind) here) filling

theorem retirePlain_of_sentinel (filling : Bool)
    (active : s.registers.active = some .sentinel) :
    (a.retirePlain filling).Ends s (.ok 0) s :=
  (Ends.current active).bind ((Ends.tell a _ s).bind ((Ends.tell a _ s).bind (Ends.pure 0 s)))

theorem retirePlain_of_table (r : a.Able s) {i : Nat} {slot : Slot}
    (filling : Bool) (active : s.registers.active = some (.table i))
    (here : s.heap.supply.slots[i]? = some slot) :
    (a.retirePlain filling).Ends s (.ok (slot.waste a.settings.minFillWords filling))
      (emptied (a.gaveUp i filling slot s)) := by
  have given := r.giveUp_ends (mem_regions_of_active active) here (fun _ _ => active) filling
  exact (Ends.current active).bind ((Ends.tell a _ s).bind (given.bind
    ((Ends.activate _ _).bind ((Ends.tell a _ _).bind (Ends.pure _ _)))))

theorem retirePlain_retires (r : a.Able s) (filling : Bool) :
    a.Retires (a.retirePlain filling) s filling false where
  idle := fun none => (Ends.current_none none).bind_error _
  vacates := fun started => by
    obtain ⟨place, active⟩ := Option.ne_none_iff_exists'.1 started
    cases place with
    | sentinel => exact ⟨0, s, [], retirePlain_of_sentinel filling active, .idle active⟩
    | table i =>
        obtain ⟨slot, here, -⟩ := r.slot_of_mem (mem_regions_of_active active)
        exact ⟨_, _, _, retirePlain_of_table r filling active here,
          .gaveUp here nofun (.giveUp active here rfl)⟩

/-- A collection counts the words that were wasted of a region. -/
theorem retireTallying_retires (r : a.Able s) {purpose : Purpose}
    (kind : a.kind = .collector purpose) (filling : Bool) :
    a.Retires (a.retireTallying purpose filling) s filling true where
  idle := fun none => by
    have loaded := Ends.active s
    rw [none] at loaded
    exact Ends.bind (loaded.bind (Ends.pure _ s)) ((Ends.current_none none).bind_error _)
  vacates := fun started => by
    obtain ⟨place, active⟩ := Option.ne_none_iff_exists'.1 started
    have loaded := Ends.active s
    rw [active] at loaded
    cases place with
    | sentinel =>
        exact ⟨0, s, [], Ends.bind (loaded.bind (Ends.pure _ s))
          (retirePlain_of_sentinel filling active), .idle active⟩
    | table i =>
        obtain ⟨slot, here, -⟩ := r.slot_of_mem (mem_regions_of_active active)
        have word := r.sound.word
        have words : Word.div (slot.waste a.settings.minFillWords filling)
            a.settings.heapWordBytes =
              .ok (slot.waste a.settings.minFillWords filling / a.settings.heapWordBytes) :=
          Word.div_eq_ok (by rw [r.suits.word]; omega)
        have unfit : true = true → a.kind = .mutator → ¬ a.Worth s slot := by
          intro _ mutator
          cases kind.symm.trans mutator
        refine ⟨_, _, _, Ends.bind (loaded.bind (Ends.pure _ s)) ?_,
          .gaveUp here unfit (.giveUp active here rfl)⟩
        rw [accounted_of_collector kind]
        exact (retirePlain_of_table r filling active here).bind
          ((Ends.compute words _).bind (Ends.bind (Ends.perform fun _ => rfl) (Ends.pure _ _)))

/-! ## Retention -/

section
variable (r : a.Able s) (kind : a.kind = .mutator) {i : Nat} {slot : Slot}
  (active : s.registers.active = some (.table i)) (here : s.heap.supply.slots[i]? = some slot)
include r here

/-- Only one region is put aside, so a candidate has to be better than it. -/
theorem worthRetaining_ends :
    ∃ keep, (a.worthRetaining (.table i)).Ends s (.ok keep) s ∧
      (keep = true ↔ a.Worth s slot) := by
  have p := r.allPlaced.placed here
  have free := Ends.freeBytes (Heap.find_table_eq_ok_iff.2 here) p.free_eq
  by_cases few : slot.region.room < a.settings.minRetainBytes
  · refine ⟨false, free.bind ?_, nofun, fun worth => absurd worth.1 (Nat.not_le.2 few)⟩
    rw [if_pos few]
    exact Ends.pure false s
  · have loaded := Ends.retained s
    unfold Worth
    cases retained : s.registers.retained with
    | none =>
        rw [retained] at loaded
        refine ⟨true, free.bind ?_, fun _ => ⟨Nat.not_lt.1 few, nofun⟩, fun _ => rfl⟩
        rw [if_neg few]
        exact loaded.bind (Ends.pure true s)
    | some place =>
        rw [retained] at loaded
        cases place with
        | sentinel => exact absurd retained r.agree.real
        | table j =>
            obtain ⟨kept, there, -⟩ := r.slot_of_mem (mem_regions_of_retained retained)
            have q := r.allPlaced.placed there
            have keptFree := Ends.freeBytes (Heap.find_table_eq_ok_iff.2 there) q.free_eq
            refine ⟨decide (kept.region.room < slot.region.room), free.bind ?_, ?_, ?_⟩
            · rw [if_neg few]
              exact loaded.bind (keptFree.bind (Ends.pure _ s))
            · intro better
              refine ⟨Nat.not_lt.1 few, ?_⟩
              rintro j' kept' ⟨⟩ there'
              cases there.symm.trans there'
              exact of_decide_eq_true better
            · intro worth
              exact decide_eq_true (worth.2 j kept rfl there)

end

/-- Nothing more is wasted by putting a region aside where there was none. -/
theorem waste_zero_ends (lt : s.registers.wasted < Word.bound) :
    (Program.waste 0).Ends s (.ok ()) s := by
  have ends := Ends.waste 0 s
  rwa [Waste.add_zero_of_lt lt] at ends

/-- An arena of application threads puts the region aside or gives it up. -/
theorem retireRetaining_retires (r : a.Able s) (kind : a.kind = .mutator)
    (filling : Bool) : a.Retires (a.retireRetaining filling) s filling true where
  idle := fun none => (Ends.current_none none).bind_error _
  vacates := fun started => by
    obtain ⟨place, active⟩ := Option.ne_none_iff_exists'.1 started
    have begins := Ends.current (a := a) active
    have told := Ends.tell a .retiring s
    cases place with
    | sentinel =>
        refine ⟨0, s, [], begins.bind (told.bind ?_), .idle active⟩
        rw [if_pos rfl]
        exact (waste_zero_ends r.agree.wasted).bind ((Ends.tell a _ s).bind (Ends.pure 0 s))
    | table i =>
        have mine := mem_regions_of_active active
        obtain ⟨slot, here, -⟩ := r.slot_of_mem mine
        obtain ⟨keep, found, worth⟩ := worthRetaining_ends r here
        have endsBy {waste : Nat} {s₁ s₂ : Store}
            (settled : (if keep then a.retainInstead (.table i) else a.giveUp (.table i) filling).Ends
              s (.ok waste) s₁)
            (wasted : (Program.waste waste).Ends (emptied s₁) (.ok ()) s₂) :
            (a.retireRetaining filling).Ends s (.ok waste) s₂ := by
          refine begins.bind (told.bind ?_)
          rw [if_neg nofun]
          exact found.bind (settled.bind ((Ends.activate _ s₁).bind (wasted.bind
            ((Ends.tell a _ s₂).bind (Ends.pure _ s₂)))))
        cases keep with
        | false =>
            have given := r.giveUp_ends mine here (fun _ _ => active) filling
            have wasted := Ends.waste (slot.waste a.settings.minFillWords filling)
              (emptied (a.gaveUp i filling slot s))
            rw [← accounted_of_mutator kind] at wasted
            have unfit : ¬ a.Worth s slot := fun worthy => nomatch worth.2 worthy
            exact ⟨_, _, _, endsBy given wasted,
              .gaveUp here (fun _ _ => unfit) (.giveUp active here rfl)⟩
        | true =>
            obtain ⟨enough, better⟩ := worth.1 rfl
            have told' := Ends.tell a .retaining s
            have loaded := Ends.retained s
            cases retained : s.registers.retained with
            | none =>
                rw [retained] at loaded
                have kept : (a.retainInstead (.table i)).Ends s (.ok 0)
                    { s with registers.retained := some (.table i) } :=
                  told'.bind (loaded.bind ((Ends.retain _ s).bind (Ends.pure 0 _)))
                exact ⟨0, _, [.keep i], endsBy kept (waste_zero_ends r.agree.wasted),
                  .kept (.keep kind active retained here enough)⟩
            | some place =>
                rw [retained] at loaded
                cases place with
                | sentinel => exact absurd retained r.agree.real
                | table j =>
                    have kept := mem_regions_of_retained retained
                    obtain ⟨slot', there, -⟩ := r.slot_of_mem kept
                    have other : ∀ purpose, a.kind = .collector purpose →
                        s.registers.active = some (.table j) := by
                      intro purpose collector
                      cases kind.symm.trans collector
                    have given := r.giveUp_ends kept there other true
                    have displaced : (a.retainInstead (.table i)).Ends s
                        (.ok (slot'.waste a.settings.minFillWords true))
                        { a.gaveUp j true slot' s with
                          registers.retained := some (.table i) } :=
                      told'.bind (loaded.bind (given.bind
                        ((Ends.retain _ _).bind (Ends.pure _ _))))
                    have wasted := Ends.waste (slot'.waste a.settings.minFillWords true)
                      (emptied { a.gaveUp j true slot' s with
                        registers.retained := some (.table i) })
                    rw [← accounted_of_mutator kind] at wasted
                    exact ⟨_, _, [.displace i j _], endsBy displaced wasted,
                      .displaced (.displace kind active retained here there enough
                        (better j slot' retained there) rfl)⟩

/-- Every kind retires in its own way. -/
theorem retire_retires (r : a.Able s) (filling : Bool) :
    a.Retires (a.retire filling) s filling (a.kind ≠ .plain) := by
  unfold retire
  cases kind : a.kind with
  | plain => exact retirePlain_retires r filling
  | mutator => exact retireRetaining_retires r kind filling
  | collector purpose => exact retireTallying_retires r kind filling

/-! ## Release -/

/-- A release lets go of the sentinel that its retirement leaves. -/
theorem releaseBy_ends {retire : Bool → Program Nat} {place : Place} {waste : Nat} {s₁ : Store}
    (active : s.registers.active = some place) (retired : (retire false).Ends s (.ok waste) s₁)
    (left : s₁.registers.active = some .sentinel) :
    (a.releaseBy retire).Ends s (.ok s.registers.held) { s₁ with registers.active := none } := by
  have loaded := Ends.active s₁
  rw [left] at loaded
  have held : s.registers.held = if place = .sentinel then none else some place := by
    unfold Registers.held
    rw [active]
    cases place <;> rfl
  rw [held]
  exact (Ends.tell a _ s).bind ((Ends.current active).bind (retired.bind (loaded.bind
    ((Ends.require rfl _ s₁).bind ((Ends.activate none s₁).bind
      ((Ends.tell a _ _).bind (Ends.pure _ _)))))))

/-- A release retires without filling and lets go of the sentinel. -/
theorem releaseBy_releases {retire : Bool → Program Nat} {counted : Bool}
    (h : a.Retires (retire false) s false counted) :
    a.Releases (a.releaseBy retire) s counted where
  idle := fun none => (Ends.tell a _ s).bind ((Ends.current_none none).bind_error _)
  busy := fun started => by
    obtain ⟨place, active⟩ := Option.ne_none_iff_exists'.1 started
    obtain ⟨waste, s₁, ds, ends, deeds, how, left⟩ := h.busy started
    exact ⟨_, waste, ds, releaseBy_ends active ends left, deeds.append (Does.stop left).single,
      how, rfl⟩

/-- A release in the way of a plain arena leaves what was put aside. -/
theorem releasePlain_ends (r : a.Able s) (busy : s.registers.active ≠ none) :
    ∃ s', a.releasePlain.Ends s (.ok s.registers.held) s' ∧
      s'.registers.retained = s.registers.retained := by
  obtain ⟨place, active⟩ := Option.ne_none_iff_exists'.1 busy
  cases place with
  | sentinel =>
      exact ⟨_, releaseBy_ends active (retirePlain_of_sentinel false active) active, rfl⟩
  | table i =>
      obtain ⟨slot, here, -⟩ := r.slot_of_mem (mem_regions_of_active active)
      exact ⟨_, releaseBy_ends active (retirePlain_of_table r false active here) rfl, rfl⟩

/-- The region put aside is given up when the arena holds no other any more. -/
theorem releaseRetained_ends (r : a.Able s) (idle : s.registers.active = none) :
    ∃ s' ds, a.releaseRetained.Ends s (.ok ()) s' ∧ a.Deeds ds s s' ∧
      (ds = [] ∨ ∃ j waste, ds = [.drop j waste]) ∧
        s'.registers.active = none ∧ s'.registers.retained = none := by
  have loaded := Ends.retained s
  cases retained : s.registers.retained with
  | none =>
      rw [retained] at loaded
      exact ⟨s, [], loaded.bind (Ends.pure () s), .nil s, .inl rfl, idle, retained⟩
  | some place =>
      rw [retained] at loaded
      cases place with
      | sentinel => exact absurd retained r.agree.real
      | table j =>
          have mine := mem_regions_of_retained retained
          have kind := r.agree.keeper (by simp [retained])
          obtain ⟨kept, there, -⟩ := r.slot_of_mem mine
          have other : ∀ purpose, a.kind = .collector purpose →
              s.registers.active = some (.table j) := by
            intro purpose collector
            cases kind.symm.trans collector
          have given := r.giveUp_ends mine there other false
          have wasted := Ends.waste (kept.waste a.settings.minFillWords false)
            (a.gaveUp j false kept s)
          rw [← accounted_of_mutator kind] at wasted
          refine ⟨_, [.drop j _], loaded.bind (given.bind (wasted.bind (Ends.retain none _))),
            (Does.drop kind idle retained there rfl).single, .inr ⟨j, _, rfl⟩, ?_, rfl⟩
          simp [accounted, gaveUp, handedBack, idle]

/-- An arena of application threads that was not started cannot be released. -/
theorem releaseRetaining_fails (r : a.Able s) (kind : a.kind = .mutator)
    (idle : s.registers.active = none) :
    a.releaseRetaining.Ends s (.error (.notStarted a.name)) s :=
  ((releaseBy_releases (retireRetaining_retires r kind false)).idle idle).bind_error _

/-- An arena of application threads releases both of its regions. -/
theorem releaseRetaining_leads (r : a.Able s) (kind : a.kind = .mutator)
    (busy : s.registers.active ≠ none) :
    ∃ s' waste ds es, a.releaseRetaining.Leads s (.ok s.registers.held) s' ∧
      a.Deeds (ds ++ [.stop] ++ es) s s' ∧ Retiring false true waste ds ∧
        (es = [] ∨ ∃ j waste, es = [.drop j waste]) ∧
          s'.registers.active = none ∧ s'.registers.retained = none := by
  obtain ⟨s₁, waste, ds, ends, deeds, how, idle⟩ :=
    (releaseBy_releases (retireRetaining_retires r kind false)).busy busy
  obtain ⟨s₂, es, ends', deeds', dropped, active, retained⟩ :=
    releaseRetained_ends (deeds.able r) idle
  refine ⟨s₂, waste, ds, es, ?_, deeds.append deeds', how, dropped, active, retained⟩
  exact ends.leads.bind (ends'.leads.bind ((Ends.count s₂).leads.bind
    ((Ends.wasted s₂).leads.bind ((Leads.summarise _ _ _ s₂).bind (Ends.pure _ s₂).leads))))

theorem release_releases (r : a.Able s) (kind : a.kind ≠ .mutator) :
    a.Releases a.release s (a.kind ≠ .plain) := by
  unfold release
  cases h : a.kind with
  | plain => exact releaseBy_releases (retirePlain_retires r false)
  | mutator => exact absurd h kind
  | collector purpose => exact releaseBy_releases (retireTallying_retires r h false)

/-- An arena that was started answers a release with the region that was active, and holds
nothing any more. -/
theorem release_leads (r : a.Able s) (busy : s.registers.active ≠ none) :
    ∃ s', a.release.Leads s (.ok s.registers.held) s' ∧ s'.registers.active = none ∧
      s'.registers.retained = none := by
  by_cases kind : a.kind = .mutator
  · obtain ⟨s', waste, ds, es, leads, -, -, -, active, retained⟩ :=
      releaseRetaining_leads r kind busy
    refine ⟨s', ?_, active, retained⟩
    simpa only [release, kind] using leads
  · obtain ⟨s', waste, ds, ends, deeds, -, active⟩ := (release_releases r kind).busy busy
    have agree := (deeds.able r).agree
    exact ⟨s', ends.leads, active,
      Classical.byContradiction fun kept => kind (agree.keeper kept)⟩

end Arena

end RegionHeap
