import RegionHeap.Proofs.Arena.Course
import RegionHeap.Proofs.Arena.Frame
import RegionHeap.Proofs.World.History

/-!
# Orderly worlds

In an orderly world every arena is ready for a call while the others hold what they
hold. A call runs its course and leaves the world orderly, if a region that it adopts
was nobody's.
-/

namespace RegionHeap

namespace World

/-- The regions that the arenas hold. -/
def held (w : World) : List Nat :=
  w.sites.flatMap fun site => site.registers.regions

/-- The regions that arenas at other positions hold. -/
def heldBeside (w : World) (k : Nat) : List Nat :=
  (w.sites.eraseIdx k).flatMap fun site => site.registers.regions

/-- A region that is neither free nor held. -/
def Unowned (w : World) (i : Nat) : Prop :=
  i ∉ w.heap.supply.free ∧ i ∉ w.held

instance (w : World) (i : Nat) : Decidable (w.Unowned i) :=
  inferInstanceAs (Decidable (_ ∧ _))

/-- The heap is in order, and the arenas fit it. -/
structure Orderly (w : World) : Prop where
  order : w.heap.Orderly w.held
  suits : ∀ site ∈ w.sites, site.arena.Suits w.heap.supply.geometry
  agree : ∀ site ∈ w.sites, site.arena.RegistersAgree w.heap site.registers

variable {w : World} {k : Nat} {site : Site}

theorem held_perm (here : w.sites[k]? = some site) :
    w.held.Perm (site.registers.regions ++ w.heldBeside k) := by
  obtain ⟨hk, rfl⟩ := List.getElem?_eq_some_iff.1 here
  exact (List.getElem_cons_eraseIdx_perm hk).symm.flatMap_right _

/-- The regions held after one site has changed. -/
theorem held_perm_set {w' : World} {site' : Site} (here : w.sites[k]? = some site)
    (sites : w'.sites = w.sites.set k site') :
    w'.held.Perm (site'.registers.regions ++ w.heldBeside k) := by
  obtain ⟨hk, -⟩ := List.getElem?_eq_some_iff.1 here
  rw [held, sites]
  exact (List.set_perm_cons_eraseIdx hk _).flatMap_right _

theorem heldBeside_subset {i : Nat} (h : i ∈ w.heldBeside k) : i ∈ w.held := by
  obtain ⟨site, hs, hi⟩ := List.mem_flatMap.1 h
  exact List.mem_flatMap.2 ⟨site, (List.eraseIdx_sublist _ _).subset hs, hi⟩

theorem mem_held (here : w.sites[k]? = some site) {i : Nat}
    (h : i ∈ site.registers.regions) : i ∈ w.held :=
  List.mem_flatMap.2 ⟨site, List.mem_of_getElem? here, h⟩

theorem mem_heldBeside {j : Nat} (here : w.sites[j]? = some site) (ne : j ≠ k) {i : Nat}
    (h : i ∈ site.registers.regions) : i ∈ w.heldBeside k :=
  List.mem_flatMap.2 ⟨site, List.mem_eraseIdx_iff_getElem?.2 ⟨j, ne, here⟩, h⟩

/-- Every arena of an orderly world is ready. -/
theorem Orderly.ready (o : w.Orderly) (here : w.sites[k]? = some site) :
    site.arena.Ready (w.heldBeside k) (w.store site) where
  suits := o.suits site (List.mem_of_getElem? here)
  order := o.order.perm (held_perm here)
  agree := o.agree site (List.mem_of_getElem? here)

/-- A call that has reached its arena, with the course that it ran. -/
structure Ran (w : World) (k : Nat) (c : Call) (site : Site) (s : Store)
    (o : Except Fault Answer) (ds : List Deed) : Prop where
  here : w.sites[k]? = some site
  deeds : site.arena.Deeds ds (w.store site) s
  course : site.arena.Course c o ds
  outcome : (c = .release → site.arena.kind ≠ .mutator) → (w.call k c).1 = o
  heap : (w.call k c).2.heap = s.heap
  sites : (w.call k c).2.sites = w.sites.set k { site with registers := s.registers }

end World

/-- Events are no reason for a fault. -/
theorem Diagnostics.noteAll_events (d : Diagnostics) (said : List Event) :
    (d.noteAll (said.map Entry.event)).1 = none := by
  induction said generalizing d with
  | nil => rfl
  | cons e rest ih => exact ih (d.hear e)

namespace World

variable {w : World} {k : Nat} {c : Call} {site : Site}

/-- A call reaches an arena that there is, if it names a region that there is. -/
theorem siteFor_ok (h : w.siteFor k c = .ok site) :
    w.sites[k]? = some site ∧
      ∀ place, c.place? = some place → ∃ slot, w.heap.find place = .ok slot := by
  unfold siteFor World.site at h
  cases here : w.sites[k]? with
  | none => simp [here, Bind.bind, Except.bind] at h
  | some other =>
      simp only [here, Bind.bind, Except.bind] at h
      cases named : c.place? with
      | none =>
          simp only [named] at h
          cases h
          exact ⟨rfl, nofun⟩
      | some place =>
          simp only [named] at h
          cases found : w.heap.find place with
          | error fault => simp [found] at h
          | ok slot =>
              simp only [found] at h
              cases h
              refine ⟨rfl, ?_⟩
              rintro _ ⟨⟩
              exact ⟨slot, found⟩

/-- What a call leaves behind is what its program leaves behind. -/
theorem call_eq {o : Except Fault Answer} {s : Store} {said : List Entry}
    (reached : w.siteFor k c = .ok site)
    (run : (site.arena.answer c).run (w.store site) = (o, { s with transcript := said })) :
    (w.call k c).2.heap = s.heap ∧
      (w.call k c).2.sites = w.sites.set k { site with registers := s.registers } ∧
        ((w.diagnostics.noteAll said).1 = none → (w.call k c).1 = o) := by
  simp only [World.call, reached, run, absorb]
  cases noted : w.diagnostics.noteAll said with
  | mk fault diagnostics => cases fault <;> simp

/-- A call that reports events only brings what its program does. -/
theorem Ran.of_ends {s : Store} {o : Except Fault Answer} {ds : List Deed}
    (reached : w.siteFor k c = .ok site) (ends : (site.arena.answer c).Ends (w.store site) o s)
    (deeds : site.arena.Deeds ds (w.store site) s) (course : site.arena.Course c o ds) :
    w.Ran k c site s o ds := by
  obtain ⟨said, run⟩ := ends []
  obtain ⟨heap, sites, outcome⟩ := call_eq reached run
  exact ⟨(siteFor_ok reached).1, deeds, course,
    fun _ => outcome (w.diagnostics.noteAll_events said), heap, sites⟩

/-- Only the release of an arena that keeps regions may bring something else. -/
theorem Ran.of_leads {s : Store} {o : Except Fault Answer} {ds : List Deed}
    (reached : w.siteFor k c = .ok site) (leads : (site.arena.answer c).Leads (w.store site) o s)
    (deeds : site.arena.Deeds ds (w.store site) s) (course : site.arena.Course c o ds)
    (loud : c = .release ∧ site.arena.kind = .mutator) : w.Ran k c site s o ds := by
  obtain ⟨said, run⟩ := leads []
  obtain ⟨heap, sites, -⟩ := call_eq reached run
  exact ⟨(siteFor_ok reached).1, deeds, course, fun quiet => absurd loud.2 (quiet loud.1),
    heap, sites⟩

/-- A call does not reach an arena, or it runs its course. -/
theorem Orderly.call_cases (o : w.Orderly) (k : Nat) (c : Call) :
    (∃ fault, w.call k c = (.error fault, w)) ∨ ∃ site s o ds, w.Ran k c site s o ds := by
  cases reached : w.siteFor k c with
  | error fault => exact .inl ⟨fault, by simp [World.call, reached]⟩
  | ok site =>
      obtain ⟨here, named⟩ := siteFor_ok reached
      have r := o.ready here
      refine .inr ?_
      by_cases loud : c = .release ∧ site.arena.kind = .mutator
      · obtain ⟨result, s, ds, leads, deeds, course⟩ := Arena.answer_leads r c named
        exact ⟨site, s, result, ds, .of_leads reached leads deeds course loud⟩
      · have quiet : c = .release → site.arena.kind ≠ .mutator :=
          fun eq kind => loud ⟨eq, kind⟩
        obtain ⟨result, s, ds, ends, deeds, course⟩ := Arena.answer_endsBy r c named quiet
        exact ⟨site, s, result, ds, .of_ends reached ends deeds course⟩

/-- A call that names no region reaches its arena. -/
theorem siteFor_eq_ok (here : w.sites[k]? = some site) (unnamed : c.place? = none) :
    w.siteFor k c = .ok site := by
  simp only [siteFor, World.site, here, unnamed, Bind.bind, Except.bind]
  rfl

/-- An arena that was started retires without a fault. -/
theorem Orderly.retire_call (o : w.Orderly) (here : w.sites[k]? = some site)
    (busy : site.registers.active ≠ none) (filling : Bool) :
    ∃ waste s ds, w.Ran k (.retire filling) site s (.ok (.bytes waste)) ds ∧
      Arena.Retiring filling site.arena.counts waste ds ∧
        s.registers.active = some .sentinel := by
  obtain ⟨waste, s, ds, ends, deeds, how, left⟩ :=
    (Arena.retire_retires (o.ready here).able filling).busy busy
  exact ⟨waste, s, ds, .of_ends (siteFor_eq_ok here rfl) (ends.map Answer.bytes) deeds
    (.retire (.retired how)), how, left⟩

/-- An arena that keeps regions holds none any more when it was released. -/
theorem Orderly.release_call (o : w.Orderly) (here : w.sites[k]? = some site)
    (kind : site.arena.kind = .mutator) (busy : site.registers.active ≠ none) :
    ∃ place s ds, w.Ran k .release site s (.ok (.place place)) ds ∧
      Arena.Release true (.ok place) ds ∧ s.registers.regions = [] := by
  obtain ⟨s, waste, ds, es, leads, deeds, how, dropped, active, retained⟩ :=
    Arena.releaseRetaining_leads (o.ready here).able kind busy
  have releases : site.arena.release = site.arena.releaseRetaining := by
    simp only [Arena.release, kind]
  have counts : site.arena.counts = true := by
    simp [Arena.counts, kind]
  rw [← releases] at leads
  have course : Arena.Release true (.ok site.registers.held) (ds ++ [.stop] ++ es) :=
    .released _ how dropped
  refine ⟨site.registers.held, s, ds ++ [.stop] ++ es, .of_leads (siteFor_eq_ok here rfl)
    (leads.map Answer.place) deeds (.release (counts ▸ course)) ⟨rfl, kind⟩, course, ?_⟩
  simp [Registers.regions, active, retained]

/-- The arena after a call. -/
theorem Ran.here_after {s : Store} {o : Except Fault Answer} {ds : List Deed}
    (ran : w.Ran k c site s o ds) :
    (w.call k c).2.sites[k]? = some { site with registers := s.registers } := by
  rw [ran.sites]
  exact List.getElem?_set_self (List.getElem?_eq_some_iff.1 ran.here).1

/-- The other arenas after a call. -/
theorem Ran.sites_of_ne {s : Store} {o : Except Fault Answer} {ds : List Deed}
    (ran : w.Ran k c site s o ds) {j : Nat} (ne : j ≠ k) :
    (w.call k c).2.sites[j]? = w.sites[j]? := by
  rw [ran.sites, List.getElem?_set_ne (Ne.symm ne)]

/-- The regions held after a call. -/
theorem Ran.held_perm {s : Store} {o : Except Fault Answer} {ds : List Deed}
    (ran : w.Ran k c site s o ds) :
    (w.call k c).2.held.Perm (s.registers.regions ++ w.heldBeside k) :=
  held_perm_set ran.here ran.sites

/-- The deeds of a call adopt what is nobody's, if the call does. -/
theorem Ran.unowned {s : Store} {o : Except Fault Answer} {ds : List Deed}
    (ran : w.Ran k c site s o ds)
    (adopts : ∀ i ∈ c.adopted (w.call k c).1, w.Unowned i) :
    Arena.AdoptsUnowned (w.heldBeside k) (w.store site) ds := by
  intro i hi
  obtain ⟨single, rfl, rfl⟩ := ran.course.of_adopt hi
  have adopted : i ∈ (Call.adopt (.table i)).adopted (w.call k (.adopt (.table i))).1 := by
    rw [ran.outcome nofun]
    exact List.mem_cons_self
  obtain ⟨notFree, notHeld⟩ := adopts i adopted
  exact ⟨single, notFree, fun h => notHeld ((World.held_perm ran.here).mem_iff.2 h)⟩

/-- The arena is as ready after the call as before. -/
theorem Orderly.ready_after (order : w.Orderly) {s : Store} {o : Except Fault Answer}
    {ds : List Deed} (ran : w.Ran k c site s o ds)
    (adopts : ∀ i ∈ c.adopted (w.call k c).1, w.Unowned i) :
    site.arena.Ready (w.heldBeside k) s :=
  ran.deeds.ready (order.ready ran.here) (ran.unowned adopts)

/-- A call leaves the world orderly. -/
theorem Orderly.call (order : w.Orderly)
    (adopts : ∀ i ∈ c.adopted (w.call k c).1, w.Unowned i) :
    (w.call k c).2.Orderly := by
  rcases order.call_cases k c with ⟨fault, eq⟩ | ⟨site, s, o, ds, ran⟩
  · rw [eq]
    exact order
  · have r := order.ready ran.here
    have r' := order.ready_after ran adopts
    have frame {j : Nat} (hj : j ∈ w.heldBeside k) :
        s.heap.supply.slots[j]? = w.heap.supply.slots[j]? :=
      ran.deeds.frame r (ran.unowned adopts) hj
    have same : s.heap.supply.geometry = w.heap.supply.geometry := ran.deeds.geometry
    have mem {other : Site} (h : other ∈ (w.call k c).2.sites) :
        other = { site with registers := s.registers } ∨
          ∃ j, j ≠ k ∧ w.sites[j]? = some other := by
      rw [ran.sites] at h
      obtain ⟨j, hj⟩ := List.getElem?_of_mem h
      by_cases eq : k = j
      · subst eq
        obtain ⟨hk, -⟩ := List.getElem?_eq_some_iff.1 ran.here
        rw [List.getElem?_set_self hk] at hj
        exact .inl (Option.some.inj hj).symm
      · rw [List.getElem?_set_ne eq] at hj
        exact .inr ⟨j, Ne.symm eq, hj⟩
    refine ⟨?_, ?_, ?_⟩
    · rw [ran.heap]
      exact r'.order.perm ran.held_perm.symm
    · intro other h
      rw [ran.heap]
      rcases mem h with rfl | ⟨j, ne, hj⟩
      · exact r'.suits
      · exact same ▸ order.suits other (List.mem_of_getElem? hj)
    · intro other h
      rw [ran.heap]
      rcases mem h with rfl | ⟨j, ne, hj⟩
      · exact r'.agree
      · have agree := order.agree other (List.mem_of_getElem? hj)
        refine { agree with baseline := fun {purpose i slot} kind active found => ?_ }
        have mine : i ∈ other.registers.regions := by
          simp [Registers.regions, active]
        rw [frame (mem_heldBeside hj ne mine)] at found
        exact agree.baseline kind active found

end World

end RegionHeap
