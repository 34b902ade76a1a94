import RegionHeap.Proofs.Arena.Parting
import RegionHeap.Proofs.World.Conservation
import RegionHeap.Proofs.World.Locking

/-!
# Retention

While nobody claims words of the region put aside, an arena of application threads has put aside
the best of all regions that it has parted with since it was started: the first of those with
the most room, if that is enough. It is as it was then. Every other region has gone back once,
as it was or filled.
-/

namespace RegionHeap

/-- Whether the arena at position `k` leaves its regions to its retirements. -/
def Action.retains (k : Nat) : Action → Bool
  | .call j c => j ≠ k || c.retains
  | _ => true

/-- Whether the active region is filled, if an action retires it. -/
def Action.fills : Action → Bool
  | .call _ c => c.fills
  | _ => true

namespace Happening

/-- The region that the arena at position `k` parts with. -/
def parting (h : Happening) (k : Nat) : Option Parting :=
  match h.before.sites[k]?, h.after.sites[k]? with
  | some site, some site' =>
      (h.before.store site).parting (h.after.store site') h.action.fills
  | _, _ => none

/-- What the arena at position `k` hands back. -/
def returns (h : Happening) (k : Nat) : List MutatorReturn :=
  match h.action with
  | .call j _ => if j = k then h.before.returnsSince h.after else []
  | _ => []

/-- A region is taken up again: it is adopted, or freed. -/
def TakesUp (h : Happening) (i : Nat) : Prop :=
  i ∈ h.adopted ∨ h.action = .recycle i

instance (h : Happening) (i : Nat) : Decidable (h.TakesUp i) :=
  inferInstanceAs (Decidable (_ ∨ _))

end Happening

namespace World

/-- The regions that the arena at position `k` parts with, in their order. -/
def partings (w : World) (k : Nat) (actions : List Action) : List Parting :=
  (w.history actions).flatMap fun h => (h.parting k).toList

/-- What the arena at position `k` hands back in the course of the actions. -/
def returnsOf (w : World) (k : Nat) (actions : List Action) : List MutatorReturn :=
  (w.history actions).flatMap fun h => h.returns k

/-- A region that the arena has parted with for good. It is nobody's, and has gone back once. If
it was put aside for some time or was to be filled, its rest is a filler, if that is not too
short. -/
structure ClosedAndReturned (w : World) (least : Nat) (p : Parting) (backs : List MutatorReturn) :
    Prop where
  unowned : w.Unowned p.region
  slot : w.heap.supply.slots[p.region]? = some (p.slot.closed least (p.kept || p.filling))
  back : backs.filter (fun b => b.region = p.region) =
    [{ region := p.region, usedBytes := p.slot.region.load }]

/-- The arena `site` at position `k` has parted with these regions so far, has handed these back,
and has put the best one aside. -/
structure Retains (w : World) (k : Nat) (site : Site) (ps : List Parting)
    (backs : List MutatorReturn) (best : Option Parting) : Prop where
  here : w.sites[k]? = some site
  kind : site.arena.kind = .mutator
  started : site.registers.active ≠ none
  chosen : Parting.Best site.arena.settings.minRetainBytes ps best
  retained : site.registers.retained = best.map fun p => .table p.region
  apart : (ps.map Parting.region).Nodup
  kept : ∀ p ∈ best, w.heap.supply.slots[p.region]? = some p.slot ∧ p.kept = true ∧
    p.region ∉ backs.map MutatorReturn.region
  gone : ∀ p ∈ ps, best ≠ some p → w.ClosedAndReturned site.arena.settings.minFillWords p backs
  known : ∀ b ∈ backs, b.region ∈ ps.map Parting.region

variable {w w' : World} {k : Nat} {site : Site} {ps : List Parting} {backs : List MutatorReturn}
  {best : Option Parting} {s : Store}

/-! ## Regions that nobody takes up -/

/-- A region that is nobody's stays as it is until it is taken up. -/
theorem Orderly.unowned_perform (order : w.Orderly) {action : Action} (tidy : action.Tidy w)
    (quiet : ¬ action.Contests) {i : Nat} (unowned : w.Unowned i)
    (spared : ¬ Happening.TakesUp { before := w, action } i) :
    (w.perform action).2.Unowned i ∧
      (w.perform action).2.heap.supply.slots[i]? = w.heap.supply.slots[i]? := by
  obtain ⟨free, held⟩ := unowned
  by_cases isCall : ∃ j c, action = .call j c
  · obtain ⟨j, c, rfl⟩ := isCall
    change (w.call j c).2.Unowned i ∧ (w.call j c).2.heap.supply.slots[i]? = _
    rcases order.call_cases j c with ⟨fault, eq⟩ | ⟨site, s, o, ds, ran⟩
    · rw [eq]
      exact ⟨⟨free, held⟩, rfl⟩
    · have notMine : i ∉ (w.store site).registers.regions := fun mine =>
        held (mem_held ran.here mine)
      have notAdopted : Deed.adopt i ∉ ds := by
        intro adopts
        refine spared (.inl ?_)
        change i ∈ c.adopted (w.call j c).1
        rw [ran.adopted]
        exact List.mem_flatMap.2 ⟨_, adopts, List.mem_singleton_self i⟩
      obtain ⟨same, notFree, out⟩ := ran.deeds.spares free notMine notAdopted
      refine ⟨⟨ran.heap ▸ notFree, fun after => ?_⟩, ran.heap ▸ same⟩
      rcases List.mem_append.1 (ran.held_perm.mem_iff.1 after) with own | others
      · exact out own
      · exact held (heldBeside_subset others)
  · have other : ∀ j c, action ≠ .call j c := fun j c eq => isCall ⟨j, c, eq⟩
    have kept : action ≠ .recycle i := fun eq => spared (.inr eq)
    have same := sameBooks_of_not_call tidy other
    exact ⟨⟨not_free_of_not_call tidy other kept free, same.held ▸ held⟩,
      slots_of_not_call tidy quiet other kept⟩

/-- An arena keeps what it holds while it is not called. -/
theorem Orderly.beside (order : w.Orderly) (here : w.sites[k]? = some site) {action : Action}
    (tidy : action.Tidy w) (quiet : ¬ action.Contests) (uncalled : ∀ c, action ≠ .call k c) :
    (w.perform action).2.sites[k]? = some site ∧ ∀ i ∈ site.registers.regions,
      (w.perform action).2.heap.supply.slots[i]? = w.heap.supply.slots[i]? := by
  by_cases isCall : ∃ j c, action = .call j c
  · obtain ⟨j, c, rfl⟩ := isCall
    have ne : k ≠ j := fun eq => uncalled c (eq ▸ rfl)
    change (w.call j c).2.sites[k]? = _ ∧ ∀ i ∈ _, (w.call j c).2.heap.supply.slots[i]? = _
    rcases order.call_cases j c with ⟨fault, eq⟩ | ⟨other, s, o, ds, ran⟩
    · rw [eq]
      exact ⟨here, fun _ _ => rfl⟩
    · refine ⟨(ran.sites_of_ne ne).trans here, fun i mine => ?_⟩
      rw [ran.heap]
      exact ran.deeds.frame (order.ready ran.here) (ran.unowned tidy) (mem_heldBeside here ne mine)
  · have other : ∀ j c, action ≠ .call j c := fun j c eq => isCall ⟨j, c, eq⟩
    refine ⟨(sameBooks_of_not_call tidy other).sites ▸ here, fun i mine => ?_⟩
    exact held_slots_of_not_call tidy quiet other (mem_held here mine)

/-! ## What an arena retains -/

theorem ClosedAndReturned.congr {least : Nat} {p : Parting}
    (gone : w.ClosedAndReturned least p backs)
    (same : w'.Unowned p.region ∧
      w'.heap.supply.slots[p.region]? = w.heap.supply.slots[p.region]?)
    {more : List MutatorReturn} (other : ∀ b ∈ more, b.region ≠ p.region) :
    w'.ClosedAndReturned least p (backs ++ more) where
  unowned := same.1
  slot := same.2.trans gone.slot
  back := by
    have none : more.filter (fun b => b.region = p.region) = [] := by
      simpa [List.filter_eq_nil_iff] using other
    rw [List.filter_append, gone.back, none, List.append_nil]

/-- What goes back is recorded once, if there was no record of it. -/
theorem ClosedAndReturned.of_back {least : Nat} {p : Parting} (unowned : w'.Unowned p.region)
    (slot : w'.heap.supply.slots[p.region]? = some (p.slot.closed least (p.kept || p.filling)))
    (unknown : p.region ∉ backs.map MutatorReturn.region) :
    w'.ClosedAndReturned least p
      (backs ++ [{ region := p.region, usedBytes := p.slot.region.load }]) where
  unowned := unowned
  slot := slot
  back := by
    have none : backs.filter (fun b => b.region = p.region) = [] := by
      refine List.filter_eq_nil_iff.2 fun b hb eq => unknown ?_
      exact List.mem_map.2 ⟨b, hb, of_decide_eq_true eq⟩
    rw [List.filter_append, none]
    simp

namespace Retains

theorem retained_of_mem (h : w.Retains k site ps backs best) {p : Parting} (hp : p ∈ best) :
    site.registers.retained = some (.table p.region) := by
  rw [h.retained, Option.mem_def.1 hp]
  rfl

/-- The region put aside is the best one. -/
theorem mem_of_retained (h : w.Retains k site ps backs best) {j : Nat}
    (retained : site.registers.retained = some (.table j)) : ∃ p ∈ best, p.region = j := by
  rw [h.retained] at retained
  obtain ⟨p, hp, place⟩ := Option.map_eq_some_iff.1 retained
  exact ⟨p, hp, by simpa using place⟩

/-- The active region is none of those that the arena has parted with. -/
theorem fresh (h : w.Retains k site ps backs best) (order : w.Orderly) {i : Nat}
    (active : site.registers.active = some (.table i)) : i ∉ ps.map Parting.region := by
  intro known
  obtain ⟨p, hp, rfl⟩ := List.mem_map.1 known
  by_cases is : best = some p
  · have ready := order.ready h.here
    exact Arena.active_ne_retained ready.nodup_regions active (h.retained_of_mem is) rfl
  · have mine : p.region ∈ site.registers.regions :=
      Arena.mem_regions_of_active (s := w.store site) active
    exact (h.gone p hp is).unowned.2 (mem_held h.here mine)

section
variable (h : w.Retains k site ps backs best) (order : w.Orderly) (heap : w'.heap = s.heap)
  (sites : w'.sites = w.sites.set k { site with registers := s.registers })
  (spared : ∀ p ∈ ps, w.Unowned p.region → w'.Unowned p.region ∧
    w'.heap.supply.slots[p.region]? = w.heap.supply.slots[p.region]?)
include h heap sites

omit heap in
theorem here_after : w'.sites[k]? = some { site with registers := s.registers } := by
  rw [sites]
  exact List.getElem?_set_self (List.getElem?_eq_some_iff.1 h.here).1

include order in
theorem unowned_of_back {i : Nat} {slot : Slot} {filling : Bool}
    (mine : i ∈ site.registers.regions)
    (back : site.arena.HandsBack (w.store site) s i slot filling) : w'.Unowned i := by
  refine ⟨heap ▸ back.free, fun after => ?_⟩
  rcases List.mem_append.1 ((held_perm_set h.here sites).mem_iff.1 after) with own | others
  · exact back.mine own
  · exact (order.ready h.here).not_mem_others mine others

include spared

/-- The arena retains what it has retained while it parts with nothing. -/
theorem stays (g : Arena.Stays (w.store site) s) :
    w'.Retains k { site with registers := s.registers } ps backs best where
  here := h.here_after sites
  kind := h.kind
  started := g.started h.started
  chosen := h.chosen
  retained := g.retained.trans h.retained
  apart := h.apart
  kept := fun p hp => by
    obtain ⟨slot, kept, unknown⟩ := h.kept p hp
    exact ⟨(heap ▸ g.kept p.region (h.retained_of_mem hp)).trans slot, kept, unknown⟩
  gone := fun p hp ne => by
    have gone := h.gone p hp ne
    simpa using gone.congr (spared p hp gone.unowned) (List.forall_mem_nil _)
  known := h.known

variable {i : Nat} {slot : Slot} {filling : Bool}
  (active : site.registers.active = some (.table i)) (started : s.registers.active ≠ none)
include order active started

/-- A region that is not worth putting aside goes back at once. -/
theorem unfit (unfit : ¬ site.arena.Worth (w.store site) slot)
    (retained : s.registers.retained = site.registers.retained)
    (still : ∀ j, site.registers.retained = some (.table j) →
      s.heap.supply.slots[j]? = w.heap.supply.slots[j]?)
    (back : site.arena.HandsBack (w.store site) s i slot filling) :
    w'.Retains k { site with registers := s.registers }
      (ps ++ [{ region := i, slot, filling, kept := false }])
      (backs ++ [{ region := i, usedBytes := slot.region.load }]) best := by
  have fresh := h.fresh order active
  have ne {p : Parting} (hp : p ∈ ps) : i ≠ p.region := fun eq =>
    fresh (eq ▸ List.mem_map_of_mem hp)
  have mine : i ∈ site.registers.regions := Arena.mem_regions_of_active (s := w.store site) active
  refine ⟨h.here_after sites, h.kind, started, h.chosen.concat_unfit ?_,
    retained.trans h.retained, ?_, fun p hp => ?_, fun p hp is => ?_, fun b hb => ?_⟩
  · rintro ⟨enough, better⟩
    refine unfit ⟨enough, fun j kept there found => ?_⟩
    obtain ⟨p, hp, rfl⟩ := h.mem_of_retained there
    cases found.symm.trans (h.kept p hp).1
    exact better p hp
  · rw [List.map_append]
    exact h.apart.append (List.nodup_singleton i) (by simpa using fresh)
  · obtain ⟨there, kept, unknown⟩ := h.kept p hp
    refine ⟨(heap ▸ still p.region (h.retained_of_mem hp)).trans there, kept, ?_⟩
    simpa using ⟨by simpa using unknown, (ne (h.chosen.mem p hp)).symm⟩
  · rcases List.mem_append.1 hp with hp | hp
    · have gone := h.gone p hp is
      exact gone.congr (spared p hp gone.unowned) (by simpa using ne hp)
    · obtain rfl := List.mem_singleton.1 hp
      refine .of_back (h.unowned_of_back order heap sites mine back) (heap ▸ back.slot) ?_
      intro known
      obtain ⟨b, hb, rfl⟩ := List.mem_map.1 known
      exact fresh (h.known b hb)
  · rw [List.map_append]
    rcases List.mem_append.1 hb with hb | hb
    · exact List.mem_append_left _ (h.known b hb)
    · obtain rfl := List.mem_singleton.1 hb
      exact List.mem_append_right _ List.mem_cons_self

omit spared in
/-- A region that is put aside is the best one from then on. -/
theorem promoted {more : List MutatorReturn}
    (enough : site.arena.settings.minRetainBytes ≤ slot.region.room)
    (better : ∀ p ∈ best, p.room < slot.region.room)
    (retained : s.registers.retained = some (.table i))
    (still : s.heap.supply.slots[i]? = some slot)
    (gone : ∀ p ∈ ps, w'.ClosedAndReturned site.arena.settings.minFillWords p (backs ++ more))
    (known : ∀ b ∈ more, b.region ∈ ps.map Parting.region) :
    w'.Retains k { site with registers := s.registers }
      (ps ++ [{ region := i, slot, filling, kept := true }]) (backs ++ more)
      (some { region := i, slot, filling, kept := true }) := by
  have fresh := h.fresh order active
  have known' (b : MutatorReturn) (hb : b ∈ backs ++ more) : b.region ∈ ps.map Parting.region :=
    (List.mem_append.1 hb).elim (h.known b) (known b)
  refine ⟨h.here_after sites, h.kind, started, h.chosen.concat_worth enough better, retained, ?_,
    fun p hp => ?_, fun p hp isNot => ?_, fun b hb => ?_⟩
  · rw [List.map_append]
    exact h.apart.append (List.nodup_singleton i) (by simpa using fresh)
  · obtain rfl := Option.mem_some_iff.1 hp
    refine ⟨heap ▸ still, rfl, fun back => ?_⟩
    obtain ⟨b, hb, rfl⟩ := List.mem_map.1 back
    exact fresh (known' b hb)
  · rcases List.mem_append.1 hp with hp | hp
    · exact gone p hp
    · exact absurd (congrArg some (List.mem_singleton.1 hp).symm) isNot
  · rw [List.map_append]
    exact List.mem_append_left _ (known' b hb)

/-- The first region that is worth it is put aside. -/
theorem firstKept (enough : site.arena.settings.minRetainBytes ≤ slot.region.room)
    (none : site.registers.retained = none)
    (retained : s.registers.retained = some (.table i))
    (still : s.heap.supply.slots[i]? = some slot) :
    w'.Retains k { site with registers := s.registers }
      (ps ++ [{ region := i, slot, filling, kept := true }]) backs
      (some { region := i, slot, filling, kept := true }) := by
  have nothing : best = Option.none := Option.map_eq_none_iff.1 (h.retained.symm.trans none)
  subst nothing
  have gone (p : Parting) (hp : p ∈ ps) :
      w'.ClosedAndReturned site.arena.settings.minFillWords p (backs ++ []) := by
    have gone := h.gone p hp nofun
    exact gone.congr (spared p hp gone.unowned) (List.forall_mem_nil _)
  simpa using h.promoted order heap sites active started enough nofun retained still gone
    (List.forall_mem_nil _)

/-- A region with more room than the one put aside takes its place. That one goes back, filled
whatever was asked for. -/
theorem displaced {j : Nat} {other : Slot}
    (enough : site.arena.settings.minRetainBytes ≤ slot.region.room)
    (before : site.registers.retained = some (.table j))
    (there : w.heap.supply.slots[j]? = some other)
    (better : other.region.room < slot.region.room)
    (retained : s.registers.retained = some (.table i))
    (still : s.heap.supply.slots[i]? = some slot)
    (back : site.arena.HandsBack (w.store site) s j other true) :
    w'.Retains k { site with registers := s.registers }
      (ps ++ [{ region := i, slot, filling, kept := true }])
      (backs ++ [{ region := j, usedBytes := other.region.load }])
      (some { region := i, slot, filling, kept := true }) := by
  obtain ⟨b, hb, rfl⟩ := h.mem_of_retained before
  obtain ⟨there', kept, unknown⟩ := h.kept b hb
  cases there.symm.trans there'
  have mine := Arena.mem_regions_of_retained (s := w.store site) before
  refine h.promoted order heap sites active started enough (fun p hp => ?_) retained still
    (fun p hp => ?_) ?_
  · cases hb.symm.trans hp
    exact better
  · by_cases is : best = some p
    · cases hb.symm.trans is
      refine .of_back (h.unowned_of_back order heap sites mine back) ?_ unknown
      rw [kept]
      exact heap ▸ back.slot
    · have gone := h.gone p hp is
      refine gone.congr (spared p hp gone.unowned) fun q hq => ?_
      obtain rfl := List.mem_singleton.1 hq
      exact fun eq => gone.unowned.2 (mem_held h.here (eq ▸ mine))
  · intro q hq
    obtain rfl := List.mem_singleton.1 hq
    exact List.mem_map_of_mem (h.chosen.mem b hb)

end

end Retains

/-! ## What happens while an arena retains -/

theorem returnsSince_eq {more : List MutatorReturn}
    (eq : w'.heap.supply.mutatorReturns = w.heap.supply.mutatorReturns ++ more) :
    w.returnsSince w' = more := by
  rw [returnsSince, eq, List.drop_left]

/-- An arena that is left as it is parts with nothing. -/
theorem parting_of_same {action : Action} (here : w.sites[k]? = some site)
    (here' : (w.perform action).2.sites[k]? = some site) :
    Happening.parting { before := w, action } k = none := by
  have after : (Happening.after { before := w, action }).sites[k]? = some site := here'
  simp only [Happening.parting, here, after]
  exact Store.parting_of_active fun _ active => active

theorem Retains.call (h : w.Retains k site ps backs best) (order : w.Orderly)
    (noRivals : w.heap.NoRivals) {c : Call} (tidy : (Action.call k c).Tidy w)
    (retains : c.retains = true)
    (spared : ∀ p ∈ ps, ¬ Happening.TakesUp { before := w, action := .call k c } p.region) :
    ∃ site' best', (w.call k c).2.Retains k site'
      (ps ++ (Happening.parting { before := w, action := .call k c } k).toList)
      (backs ++ w.returnsSince (w.call k c).2) best' := by
  cases reached : w.siteFor k c with
  | error fault =>
      have same : (w.call k c).2 = w := by simp [World.call, reached]
      have stays : (w.perform (.call k c)).2.sites[k]? = some site := by
        change (w.call k c).2.sites[k]? = some site
        rw [same]
        exact h.here
      have nothing : w.returnsSince (w.call k c).2 = [] := by simp [returnsSince, same]
      rw [parting_of_same h.here stays, nothing, same]
      simpa using ⟨site, best, h⟩
  | ok site₀ =>
      obtain ⟨here, named⟩ := siteFor_ok reached
      cases h.here.symm.trans here
      obtain ⟨o, s, p, ends, continues⟩ :=
        Arena.answer_continues (order.ready h.here) h.kind noRivals h.started retains named
      obtain ⟨-, heap, sites⟩ := call_of_ends reached ends
      have here' := h.here_after sites
      have order' : (w.call k c).2.Orderly := order.call tidy
      have nodup : s.registers.regions.Nodup := (order'.ready here').nodup_regions
      have parting : Happening.parting { before := w, action := .call k c } k = p := by
        have after : (Happening.after { before := w, action := .call k c }).sites[k]? =
            some { site with registers := s.registers } := here'
        simp only [Happening.parting, h.here, after]
        exact continues.parting nodup
      have quiet : ¬ (Action.call k c).Contests := id
      have unowned (q : Parting) (hq : q ∈ ps) (unowned : w.Unowned q.region) :=
        order.unowned_perform tidy quiet unowned (spared q hq)
      rw [parting]
      cases continues with
      | stays g =>
          have nothing : w.returnsSince (w.call k c).2 = [] :=
            returnsSince_eq (by rw [heap, List.append_nil]; exact g.returns)
          rw [nothing]
          simpa using ⟨_, best, h.stays heap sites unowned g⟩
      | unfit active found started unfit retained still back =>
          rw [returnsSince_eq (heap ▸ back.returns)]
          exact ⟨_, best, h.unfit order heap sites unowned active started unfit retained still back⟩
      | kept active found started enough none retained still returns =>
          have nothing : w.returnsSince (w.call k c).2 = [] :=
            returnsSince_eq (by rw [heap, List.append_nil]; exact returns)
          rw [nothing, List.append_nil]
          exact ⟨_, _, h.firstKept order heap sites unowned active started enough none retained
            still⟩
      | displaced active found started enough before there better retained still back =>
          rw [returnsSince_eq (heap ▸ back.returns)]
          exact
            ⟨_, _, h.displaced order heap sites unowned active started enough before there better
            retained still back⟩

/-- Whatever happens, the arena has put aside the best region. -/
theorem Retains.perform (h : w.Retains k site ps backs best) (order : w.Orderly)
    (noRivals : w.heap.NoRivals) {action : Action} (tidy : action.Tidy w)
    (quiet : ¬ action.Contests)
    (retains : action.retains k = true)
    (spared : ∀ p ∈ ps, ¬ Happening.TakesUp { before := w, action } p.region) :
    ∃ site' best', (w.perform action).2.Retains k site'
      (ps ++ (Happening.parting { before := w, action } k).toList)
      (backs ++ Happening.returns { before := w, action } k) best' := by
  by_cases called : ∃ c, action = .call k c
  · obtain ⟨c, rfl⟩ := called
    have returns : Happening.returns { before := w, action := .call k c } k =
        w.returnsSince (w.call k c).2 := if_pos rfl
    rw [returns]
    exact h.call order noRivals tidy (by simpa [Action.retains] using retains) spared
  · have uncalled : ∀ c, action ≠ .call k c := fun c eq => called ⟨c, eq⟩
    obtain ⟨here, still⟩ := order.beside h.here tidy quiet uncalled
    have returns : Happening.returns { before := w, action } k = [] := by
      cases action with
      | call j c =>
          have ne : j ≠ k := fun eq => uncalled c (eq ▸ rfl)
          exact if_neg ne
      | _ => rfl
    rw [parting_of_same h.here here, returns]
    refine ⟨site, best, ?_⟩
    simp only [Option.toList_none, List.append_nil]
    refine ⟨here, h.kind, h.started, h.chosen, h.retained, h.apart, fun p hp => ?_,
      fun p hp isNot => ?_, h.known⟩
    · obtain ⟨there, kept, unknown⟩ := h.kept p hp
      have mine := Arena.mem_regions_of_retained (s := w.store site) (h.retained_of_mem hp)
      exact ⟨(still p.region mine).trans there, kept, unknown⟩
    · have gone := h.gone p hp isNot
      have same := order.unowned_perform tidy quiet gone.unowned (spared p hp)
      simpa using gone.congr same (List.forall_mem_nil _)

/-- The same of all that happens, one action after the other. -/
theorem Retains.after (h : w.Retains k site ps backs best) (order : w.Orderly)
    (noRivals : w.heap.NoRivals) {actions : List Action}
    (tidy : ∀ h ∈ w.history actions, h.action.Tidy h.before ∧ ¬ h.action.Contests)
    (retains : ∀ action ∈ actions, action.retains k = true)
    (spared : ∀ h ∈ w.history actions, ∀ p ∈ ps, ¬ h.TakesUp p.region)
    (apart : (w.history actions).Pairwise fun h h' =>
      ∀ p ∈ h.parting k, ¬ h'.TakesUp p.region) :
    ∃ site' best', (w.after actions).Retains k site' (ps ++ w.partings k actions)
      (backs ++ w.returnsOf k actions) best' := by
  induction actions generalizing w site ps backs best with
  | nil => simpa [partings, returnsOf] using ⟨site, best, h⟩
  | cons action rest ih =>
      rw [history_cons] at tidy spared apart
      obtain ⟨first, later⟩ := List.pairwise_cons.1 apart
      obtain ⟨tidy₀, quiet⟩ : action.Tidy w ∧ ¬ action.Contests := tidy _ List.mem_cons_self
      obtain ⟨site₁, best₁, h₁⟩ := h.perform order noRivals tidy₀ quiet
        (retains _ List.mem_cons_self) (spared _ List.mem_cons_self)
      have spared₁ : ∀ h ∈ (w.perform action).2.history rest,
          ∀ p ∈ ps ++ (Happening.parting { before := w, action } k).toList,
            ¬ h.TakesUp p.region := by
        intro h hh p hp
        rcases List.mem_append.1 hp with hp | hp
        · exact spared h (List.mem_cons_of_mem _ hh) p hp
        · exact first h hh p (Option.mem_toList.1 hp)
      obtain ⟨site', best', after⟩ := ih h₁
        (order.perform tidy₀ (rested_of_noRivals noRivals action))
        (order.noRivals_perform noRivals tidy₀ quiet)
        (fun h hh => tidy h (List.mem_cons_of_mem _ hh))
        (fun a ha => retains a (List.mem_cons_of_mem _ ha)) spared₁ later
      refine ⟨site', best', ?_⟩
      simpa [partings, returnsOf] using after

/-- An arena that was just started has parted with nothing. -/
theorem Orderly.retains_start (order : w.Orderly) (here : w.sites[k]? = some site)
    (kind : site.arena.kind = .mutator) (started : (w.call k .start).1 = .ok .nothing) :
    ∃ site', (w.call k .start).2.Retains k site' [] [] none := by
  rcases order.call_cases k .start with ⟨fault, eq⟩ | ⟨site', s, o, ds, ran⟩
  · rw [eq] at started
    cases started
  · cases here.symm.trans ran.here
    have outcome := (ran.outcome nofun).symm.trans started
    have single := (outcome ▸ ran.course).of_start
    rw [decide_eq_true kind] at single
    have deeds := ran.deeds
    rw [single] at deeds
    cases deeds with
    | cons first rest =>
        cases rest
        cases first with
        | start anew idle none =>
            exact ⟨_, ran.here_after, kind, nofun, .lacking (List.forall_mem_nil _), none rfl,
              List.nodup_nil, nofun, List.forall_mem_nil _, List.forall_mem_nil _⟩

/-- From a start of an arena of application threads on, until it is released, and while nobody
claims words of the region put aside, competes, or takes up what the arena has parted with: the
arena has put aside the best region that it has parted with so far, as it was then, and none if
none had enough room. Every other one has gone back once. It was filled if that was asked for or
it had been put aside, and if its rest was not too short, and is as it was otherwise. -/
theorem retention {w : World} (opened : w.Opened) (first rest : List Action) (k : Nat)
    (tidy : ∀ h ∈ w.history (first ++ .call k .start :: rest),
      h.action.Tidy h.before ∧ ¬ h.action.Contests)
    (mutator : ∃ site, (w.after first).sites[k]? = some site ∧ site.arena.kind = .mutator)
    (started : ((w.after first).call k .start).1 = .ok .nothing)
    (retains : ∀ action ∈ rest, action.retains k = true)
    (apart : (((w.after first).call k .start).2.history rest).Pairwise fun h h' =>
      ∀ p ∈ h.parting k, ¬ h'.TakesUp p.region) :
    let start := ((w.after first).call k .start).2
    let now := start.after rest
    ∃ site best, now.sites[k]? = some site ∧
      Parting.Best site.arena.settings.minRetainBytes (start.partings k rest) best ∧
      site.registers.retained = best.map (fun p => .table p.region) ∧
      (∀ p ∈ best, now.heap.supply.slots[p.region]? = some p.slot ∧
        ∀ b ∈ start.returnsOf k rest, b.region ≠ p.region) ∧
      ((start.partings k rest).map Parting.region).Nodup ∧
      ∀ p ∈ start.partings k rest, best ≠ some p →
        (start.returnsOf k rest).filter (fun b => b.region = p.region) =
            [{ region := p.region, usedBytes := p.slot.region.load }] ∧
          now.heap.supply.slots[p.region]? =
            some (p.slot.closed site.arena.settings.minFillWords (p.kept || p.filling)) := by
  intro start now
  rw [history_append, history_cons] at tidy
  have before := fun h hh => tidy h (List.mem_append_left _ hh)
  have later := fun h hh => tidy h (List.mem_append_right _ (List.mem_cons_of_mem _ hh))
  obtain ⟨tidy₀, quiet⟩ := tidy _ (List.mem_append_right _ List.mem_cons_self)
  obtain ⟨order, noRivals⟩ := opened.orderly_after before
  obtain ⟨site₀, here₀, kind⟩ := mutator
  obtain ⟨site₁, begun⟩ := order.retains_start here₀ kind started
  obtain ⟨site, best, h⟩ := begun.after (order.perform tidy₀ (rested_of_noRivals noRivals _))
    (order.noRivals_perform noRivals tidy₀ quiet) later retains
    (fun _ _ => List.forall_mem_nil _) apart
  simp only [List.nil_append] at h
  refine ⟨site, best, h.here, h.chosen, h.retained, fun p hp => ?_, h.apart,
    fun p hp isNot => ?_⟩
  · obtain ⟨slot, -, unknown⟩ := h.kept p hp
    exact ⟨slot, fun b hb eq => unknown (eq ▸ List.mem_map_of_mem hb)⟩
  · have gone := h.gone p hp isNot
    exact ⟨gone.back, gone.slot⟩

/-- The second region of three displaces the first, and the third goes back at once. -/
theorem retention_small :
    let rest : List Action := [.call 0 (.claimLocked 5 5), .call 0 (.claimLocked 4 4),
      .call 0 (.claimLocked 5 5), .call 1 .start, .call 0 (.retire false)]
    let start := (small.call 0 .start).2
    ∃ site p, (start.after rest).sites[0]? = some site ∧
      (start.partings 0 rest).map Parting.region = [0, 1, 2] ∧
      Parting.Best 24 (start.partings 0 rest) (some p) ∧ p.region = 1 ∧
      site.registers.retained = some (.table 1) := by
  intro rest start
  obtain ⟨site, best, here, chosen, retained, -⟩ := retention small_opened [] rest 0
    (by decide +kernel) ⟨_, rfl, rfl⟩ (by decide +kernel) (by decide +kernel) (by decide +kernel)
  change (start.after rest).sites[0]? = some site at here
  have known : ((start.after rest).sites[0]?).map (fun site =>
      (site.arena.settings.minRetainBytes, site.registers.retained)) = some (24, some (.table 1)) :=
    by decide +kernel
  rw [here] at known
  obtain ⟨settings, second⟩ := Prod.mk.inj (Option.some.inj known)
  rw [settings] at chosen
  rw [second] at retained
  obtain ⟨p, rfl, place⟩ := Option.map_eq_some_iff.1 retained.symm
  exact ⟨site, p, here, by decide +kernel, chosen, by simpa using place, second⟩

end World

end RegionHeap
