import RegionHeap.Proofs.Arena.Walk
import RegionHeap.Proofs.World.Opened

/-!
# The heap can be parsed

A walk over a region of the table from its bottom goes over the spans that were handed out
of it since it was last reset, and over its filler if it has one, and comes out at its
cursor. So it is in a fresh heap, and so every call leaves it.
-/

namespace RegionHeap

/-- The span that is handed out. -/
def Happening.handed (h : Happening) : Option Span :=
  match h.action with
  | .call k c => c.span (h.before.call k c).1
  | _ => none

theorem Happening.handed_of_not_call {h : Happening} (other : ∀ k c, h.action ≠ .call k c) :
    h.handed = none := by
  unfold handed
  split
  · rename_i k c eq
    exact absurd eq (other k c)
  · rfl

/-- The spans handed out of the region at `i` since it was last reset, given those that were
so before. -/
def Happening.allocate (h : Happening) (i : Nat) (before : List Span) : List Span :=
  if h.action = .recycle i then []
  else before ++ h.handed.toList.filter (h.before.heap.supply.geometry.covers i)

namespace World

/-- The spans handed out of the region at `i` since it was last reset, in order. -/
def allocated (w : World) (i : Nat) (actions : List Action) : List Span :=
  (w.history actions).foldl (fun spans h => h.allocate i spans) []

theorem allocated_concat (w : World) (i : Nat) (actions : List Action) (action : Action) :
    w.allocated i (actions ++ [action]) =
      Happening.allocate { before := w.after actions, action } i (w.allocated i actions) := by
  simp [allocated, history_concat]

variable {w : World} {i least : Nat}

/-- What a call hands out, its deeds hand out. -/
theorem Ran.spans {k : Nat} {c : Call} {site : Site} {s : Store} {o : Except Fault Answer}
    {ds : List Deed} (ran : w.Ran k c site s o ds) :
    ds.flatMap Deed.spans = (c.span (w.call k c).1).toList := by
  rw [ran.course.spans]
  by_cases loud : c = .release
  · subst loud
    rfl
  · rw [ran.outcome fun eq => absurd eq loud]

/-- All arenas write fillers of so many words or more. -/
def Fills (least : Nat) (w : World) : Prop :=
  ∀ site ∈ w.sites, site.arena.settings.minFillWords = least

theorem Fills.perform (fills : w.Fills least) (o : w.Orderly) {action : Action}
    (tidy : action.Tidy w) : (w.perform action).2.Fills least := by
  by_cases isCall : ∃ k c, action = .call k c
  · obtain ⟨k, c, rfl⟩ := isCall
    change (w.call k c).2.Fills least
    rcases o.call_cases k c with ⟨fault, eq⟩ | ⟨site, s, result, ds, ran⟩
    · rw [eq]
      exact fills
    · intro other hother
      rw [ran.sites] at hother
      rcases List.mem_or_eq_of_mem_set hother with old | rfl
      · exact fills other old
      · exact fills site (List.mem_of_getElem? ran.here)
  · have other : ∀ k c, action ≠ .call k c := fun k c eq => isCall ⟨k, c, eq⟩
    unfold Fills
    rw [(sameBooks_of_not_call tidy other).sites]
    exact fills

/-- Only calls and resets write to a table for which nobody competes. -/
theorem slot_of_not_call {action : Action} (tidy : action.Tidy w) (quiet : ¬ action.Contests)
    (other : ∀ k c, action ≠ .call k c) {slot' : Slot}
    (after : (w.perform action).2.heap.supply.slots[i]? = some slot') :
    ∃ slot, w.heap.supply.slots[i]? = some slot ∧
      slot'.region = if action = .recycle i then slot.region.reset else slot.region := by
  by_cases kept : action = .recycle i
  · subst kept
    cases found : w.heap.supply.slots[i]? with
    | none =>
        have same : (w.perform (.recycle i)).2 = w := by
          simp [World.perform, onSupply, Supply.recycle, Supply.slot, found]
        rw [same] at after
        cases found.symm.trans after
    | some slot =>
        simp only [World.perform, onSupply, Supply.recycle, Supply.slot, found, Supply.setSlot,
          Bind.bind, Except.bind, Pure.pure, Except.pure, setSupply] at after
        rw [List.getElem?_set_self (List.getElem?_eq_some_iff.1 found).1] at after
        cases after
        exact ⟨slot, rfl, (if_pos rfl).symm⟩
  · exact ⟨slot', slots_of_not_call tidy quiet other kept ▸ after, (if_neg kept).symm⟩

/-- What happens leaves a region such that a walk goes over what was handed out. -/
theorem Orderly.parsed_perform (o : w.Orderly) (noRivals : w.heap.NoRivals) (fills : w.Fills least)
    {action : Action} (tidy : action.Tidy w) (quiet : ¬ action.Contests) {slot' : Slot}
    (after : (w.perform action).2.heap.supply.slots[i]? = some slot') :
    ∃ slot, w.heap.supply.slots[i]? = some slot ∧
      ∀ given, slot.region.Parsed least given →
        slot'.region.Parsed least (Happening.allocate { before := w, action } i given) := by
  by_cases isCall : ∃ k c, action = .call k c
  · obtain ⟨k, c, rfl⟩ := isCall
    have given_eq (given : List Span) :
        Happening.allocate { before := w, action := .call k c } i given = given ++
          (c.span (w.call k c).1).toList.filter (w.heap.supply.geometry.covers i) :=
      if_neg nofun
    change (w.call k c).2.heap.supply.slots[i]? = _ at after
    rcases o.call_cases k c with ⟨fault, eq⟩ | ⟨site, s, result, ds, ran⟩
    · rw [eq] at after
      refine ⟨slot', after, fun given parsed => ?_⟩
      rw [given_eq, eq, Call.span_error]
      simpa using parsed
    · rw [ran.heap] at after
      have same := fills site (List.mem_of_getElem? ran.here)
      obtain ⟨slot, found, walk⟩ :=
        ran.deeds.parsed (o.ready ran.here) (ran.unowned tidy) noRivals after
      refine ⟨slot, found, fun given parsed => ?_⟩
      rw [given_eq, ← ran.spans, ← same]
      exact walk given (same ▸ parsed)
  · have other : ∀ k c, action ≠ .call k c := fun k c eq => isCall ⟨k, c, eq⟩
    obtain ⟨slot, found, region⟩ := slot_of_not_call tidy quiet other after
    refine ⟨slot, found, fun given parsed => ?_⟩
    unfold Happening.allocate
    rw [region]
    split
    · exact .reset least slot.region
    · rw [Happening.handed_of_not_call other]
      simpa using parsed

/-- What is handed out lies in a region of the table. -/
theorem Orderly.holds_perform (o : w.Orderly) (noRivals : w.heap.NoRivals) {action : Action}
    (tidy : action.Tidy w) {span : Span}
    (handed : ({ before := w, action } : Happening).handed = some span) :
    ∃ j < w.heap.supply.slots.length, w.heap.supply.geometry.Holds j span := by
  by_cases isCall : ∃ k c, action = .call k c
  · obtain ⟨k, c, rfl⟩ := isCall
    change c.span (w.call k c).1 = some span at handed
    rcases o.call_cases k c with ⟨fault, eq⟩ | ⟨site, s, result, ds, ran⟩
    · rw [eq, Call.span_error] at handed
      cases handed
    · apply ran.deeds.holds (o.ready ran.here) (ran.unowned tidy) noRivals
      rw [ran.spans, handed]
      exact List.mem_singleton_self span
  · rw [Happening.handed_of_not_call fun k c eq => isCall ⟨k, c, eq⟩] at handed
    cases handed

/-- What happens moves no region of the table. -/
theorem Orderly.geometry_perform (o : w.Orderly) {action : Action} (tidy : action.Tidy w) :
    (w.perform action).2.heap.supply.geometry = w.heap.supply.geometry := by
  by_cases isCall : ∃ k c, action = .call k c
  · obtain ⟨k, c, rfl⟩ := isCall
    change (w.call k c).2.heap.supply.geometry = _
    rcases o.call_cases k c with ⟨fault, eq⟩ | ⟨site, s, result, ds, ran⟩
    · rw [eq]
    · rw [ran.heap]
      exact ran.deeds.geometry
  · exact (sameBooks_of_not_call tidy fun k c eq => isCall ⟨k, c, eq⟩).geometry

/-- What holds whenever something happens to a world with which nobody interferes. -/
structure Undisturbed (least : Nat) (g : Geometry) (w : World) : Prop where
  orderly : w.Orderly
  noRivals : w.heap.NoRivals
  fills : w.Fills least
  geometry : w.heap.supply.geometry = g

theorem Undisturbed.perform {g : Geometry} (u : w.Undisturbed least g) {action : Action}
    (tidy : action.Tidy w) (quiet : ¬ action.Contests) :
    (w.perform action).2.Undisturbed least g where
  orderly := u.orderly.perform tidy (rested_of_noRivals u.noRivals action)
  noRivals := u.orderly.noRivals_perform u.noRivals tidy quiet
  fills := u.fills.perform u.orderly tidy
  geometry := (u.orderly.geometry_perform tidy).trans u.geometry

theorem Undisturbed.after {g : Geometry} (u : w.Undisturbed least g) {actions : List Action}
    (tidy : ∀ h ∈ w.history actions, h.action.Tidy h.before ∧ ¬ h.action.Contests) :
    (w.after actions).Undisturbed least g :=
  after_invariant (fun h hh u => u.perform (tidy h hh).1 (tidy h hh).2) u

/-- The table of a world that was opened starts at a word. -/
theorem Opened.base (opened : w.Opened) :
    w.heap.supply.geometry.wordBytes ∣ w.heap.supply.geometry.heapBase := by
  cases opened with
  | new table setup word shared =>
      obtain ⟨valid, rs, -, rfl⟩ := Supply.new_built table
      exact (Geometry.validate_eq_ok_iff.1 valid).2.2.2

/-- The fillers of a world that was opened are as long as its settings ask for. -/
theorem Opened.fills (opened : w.Opened) : w.Fills w.settings.minFillWords := by
  cases opened with
  | new table setup word shared =>
      obtain ⟨-, settings, -⟩ := Basis.setup_eq_ok setup
      intro site hsite
      obtain ⟨a, ha, rfl⟩ := List.mem_map.1 hsite
      exact congrArg Settings.minFillWords ((shared a ha).trans settings.symm)

/-- A region of a fresh table can be parsed. -/
theorem Opened.parsed (opened : w.Opened) {slot : Slot}
    (found : w.heap.supply.slots[i]? = some slot) : slot.region.Parsed least [] := by
  cases opened with
  | new table setup word shared =>
      obtain ⟨r, built, rfl⟩ := Supply.new_slot table found
      obtain ⟨start, -, hr⟩ := Except.bind_eq_ok built
      obtain ⟨-, rfl⟩ := Region.new_eq_ok hr
      exact ⟨Tiles.nil _ _, .inl ⟨rfl, rfl⟩⟩

theorem Opened.undisturbed (opened : w.Opened) :
    w.Undisturbed w.settings.minFillWords w.heap.supply.geometry :=
  ⟨opened.orderly, opened.noRivals, opened.fills, rfl⟩

/-- Run from a fresh heap without rivals, a walk over a region of the table goes over the
spans that were handed out of it since it was last reset, and over one filler at most, which
comes last. Every span that is handed out lies at a word of one of the regions, and none at
address zero. -/
theorem parsability {w : World} (opened : w.Opened) (actions : List Action)
    (tidy : ∀ h ∈ w.history actions, h.action.Tidy h.before ∧ ¬ h.action.Contests) :
    (∀ (i : Nat) (slot : Slot), (w.after actions).heap.supply.slots[i]? = some slot →
        slot.region.Placed w.heap.supply.geometry i ∧
          slot.region.Parsed w.settings.minFillWords (w.allocated i actions)) ∧
      ∀ h ∈ w.history actions, ∀ span, h.handed = some span →
        w.heap.supply.geometry.wordBytes ∣ span.start ∧ span.start ≠ 0 ∧
          ∃ j < h.before.heap.supply.slots.length, w.heap.supply.geometry.Holds j span := by
  have keep (h : Happening) (hh : h ∈ w.history actions)
      (u : h.before.Undisturbed w.settings.minFillWords w.heap.supply.geometry) :
      h.after.Undisturbed w.settings.minFillWords w.heap.supply.geometry :=
    u.perform (tidy h hh).1 (tidy h hh).2
  constructor
  · intro i slot found
    have u := after_invariant keep opened.undisturbed
    refine ⟨u.geometry ▸ u.orderly.order.placed found, ?_⟩
    induction actions using List.reverseRec generalizing slot with
    | nil => exact opened.parsed found
    | append_singleton actions action ih =>
        rw [history_concat] at tidy keep
        have before := fun h hh => tidy h (List.mem_append_left _ hh)
        have earlier := fun h hh => keep h (List.mem_append_left _ hh)
        have last := tidy _ (List.mem_append_right _ List.mem_cons_self)
        have u := after_invariant earlier opened.undisturbed
        rw [after_concat] at found
        obtain ⟨slot', found', walk⟩ :=
          u.orderly.parsed_perform u.noRivals u.fills last.1 last.2 found
        rw [allocated_concat]
        exact walk _ (ih before earlier slot' found' u)
  · intro h hh span handed
    have u := history_invariant keep opened.undisturbed hh
    obtain ⟨j, inside, holds⟩ := u.orderly.holds_perform u.noRivals (tidy h hh).1 handed
    rw [u.geometry] at holds
    obtain ⟨whole, nonzero⟩ := holds.aligned_start opened.orderly.order.sound opened.base
    exact ⟨whole, nonzero, j, inside, holds⟩

/-- A region of a collection that ends in a filler. Another was filled and then recycled. -/
theorem parsability_small :
    let actions : List Action := [.call 1 .start, .call 1 (.claimLocked 5 5),
      .call 1 (.claim 1 1), .call 1 (.retire true), .call 3 .start, .call 3 (.claimLocked 3 4),
      .call 3 (.retire true), .recycle 1]
    small.allocated 0 actions = [⟨4096, 5⟩, ⟨4136, 1⟩] ∧ small.allocated 1 actions = [] ∧
      ∃ slot, (small.after actions).heap.supply.slots[0]? = some slot ∧
        slot.region.fillers = [⟨4144, 2⟩] ∧ slot.region.Parsed 2 (small.allocated 0 actions) := by
  intro actions
  obtain ⟨walk, -⟩ := parsability small_opened actions (by decide +kernel)
  refine ⟨by decide +kernel, by decide +kernel, _, rfl, by decide +kernel, ?_⟩
  exact (walk 0 _ rfl).2

end World

end RegionHeap
