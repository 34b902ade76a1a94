import RegionHeap.Proofs.Arena.Round
import RegionHeap.Proofs.Region.Parsed

/-!
# Walks over the regions of an arena

A deed hands out a span or none. It writes to one region at most, and while nobody competes
it leaves that region such that a walk can go over it: what it hands out follows what was
handed out before, and what it fills comes last.
-/

namespace RegionHeap

/-- The spans that a deed hands out. -/
def Deed.spans : Deed → List Span
  | claim _ span => [span]
  | install _ span => [span]
  | _ => []

namespace Arena

variable {a : Arena} {others : List Nat} {s s' : Store} {d : Deed} {ds : List Deed} {i : Nat}

/-- What a deed writes to the table while nobody competes: nothing, or one slot, whose
region can be parsed afterwards if it could before. -/
inductive Writes (a : Arena) (d : Deed) (s s' : Store) : Prop
  | nothing (same : s'.heap.supply.slots = s.heap.supply.slots) (hands : d.spans = [])
  | slot (j : Nat) (slot slot' : Slot) (found : s.heap.supply.slots[j]? = some slot)
      (set : s'.heap.supply.slots = s.heap.supply.slots.set j slot')
      (holds : ∀ span ∈ d.spans, s.heap.supply.geometry.Holds j span)
      (parsed : ∀ given, slot.region.Parsed a.settings.minFillWords given →
        slot'.region.Parsed a.settings.minFillWords (given ++ d.spans))

/-- Giving a region up writes a filler, or nothing. -/
theorem writes_gaveUp {slot : Slot} (r : a.Ready others s) (noRivals : s.heap.NoRivals)
    (mine : i ∈ s.registers.regions) (found : s.heap.supply.slots[i]? = some slot)
    {filling : Bool}
    (set : s'.heap.supply.slots =
      s.heap.supply.slots.set i (slot.settled a.settings.minFillWords filling))
    (hands : d.spans = []) : a.Writes d s s' := by
  obtain ⟨slot', here, full⟩ := r.slot_of_mem mine
  cases found.symm.trans here
  apply Writes.slot i slot _ found set
  · rw [hands]
    exact nofun
  · intro given parsed
    rw [hands, List.append_nil]
    exact Slot.parsed_settled parsed (r.order.placed found) r.suits.least full
      (noRivals i slot found)
      filling

theorem Does.writes (h : a.Does d s s') (r : a.Ready others s) (noRivals : s.heap.NoRivals) :
    a.Writes d s s' := by
  cases h with
  | @claim _ i words slot mine found pos fits =>
      apply Writes.slot i slot _ found rfl
      · intro span hspan
        rw [List.mem_singleton.1 hspan]
        exact (r.order.placed found).holds pos fits
      · exact fun given parsed => parsed.took pos fits
  | @outrun _ i slot mine found rivals => exact absurd (noRivals i slot found) rivals
  | giveUp active found wasted =>
      exact writes_gaveUp r noRivals (mem_regions_of_active active) found rfl rfl
  | displace kind active retained found foundKept worth better wasted =>
      exact writes_gaveUp r noRivals (mem_regions_of_retained retained) foundKept rfl rfl
  | drop kind idle retained foundKept wasted =>
      exact writes_gaveUp r noRivals (mem_regions_of_retained retained) foundKept rfl rfl
  | @install _ i words slot active granted found pos fits =>
      obtain ⟨slot', here, empty, -⟩ := r.slot_of_grant granted
      cases found.symm.trans here
      have p := r.order.placed found
      apply Writes.slot i slot _ found (List.set_set _)
      · intro span hspan
        rw [List.mem_singleton.1 hspan]
        exact p.holds pos fits
      · intro given parsed
        obtain ⟨rfl, fresh⟩ := parsed.unmark p r.sound empty
        exact fresh.took pos fits
  | @lose _ i words slot active granted found zero =>
      obtain ⟨slot', here, empty, -⟩ := r.slot_of_grant granted
      cases found.symm.trans here
      apply Writes.slot i slot _ found rfl
      · exact nofun
      · intro given parsed
        obtain ⟨rfl, fresh⟩ := parsed.unmark (r.order.placed found) r.sound empty
        exact fresh
  | start | keep | refuse | adopt | note | stop => exact .nothing rfl rfl

/-- What a deed hands out lies in a region of the table. -/
theorem Does.holds (h : a.Does d s s') (r : a.Ready others s) (noRivals : s.heap.NoRivals) :
    ∀ span ∈ d.spans, ∃ j < s.heap.supply.slots.length, s.heap.supply.geometry.Holds j span := by
  intro span hspan
  cases h.writes r noRivals with
  | nothing same hands =>
      rw [hands] at hspan
      cases hspan
  | slot j slot slot' found set holds parsed =>
      exact ⟨j, (List.getElem?_eq_some_iff.1 found).1, holds span hspan⟩

/-- Of what a deed hands out, that which starts in a region goes to the end of a walk over
it. -/
theorem Does.parsed (h : a.Does d s s') (r : a.Ready others s) (noRivals : s.heap.NoRivals)
    {slot' : Slot} (after : s'.heap.supply.slots[i]? = some slot') :
    ∃ slot, s.heap.supply.slots[i]? = some slot ∧
      ∀ given, slot.region.Parsed a.settings.minFillWords given →
        slot'.region.Parsed a.settings.minFillWords
          (given ++ d.spans.filter (s.heap.supply.geometry.covers i)) := by
  cases h.writes r noRivals with
  | nothing same hands =>
      refine ⟨slot', same ▸ after, ?_⟩
      intro given parsed
      rwa [hands, List.filter_nil, List.append_nil]
  | slot j slot slot₁ found set holds parsed =>
      rw [set] at after
      obtain ⟨rfl, rfl⟩ | ⟨ne, before⟩ := Supply.slots_set_cases after
      · have all : d.spans.filter (s.heap.supply.geometry.covers i) = d.spans := by
          apply List.filter_eq_self.2
          exact fun span hspan => ((holds span hspan).covers_iff r.sound).2 rfl
        refine ⟨slot, found, ?_⟩
        rw [all]
        exact parsed
      · have none : d.spans.filter (s.heap.supply.geometry.covers i) = [] := by
          apply List.filter_eq_nil_iff.2
          exact fun span hspan here => ne (((holds span hspan).covers_iff r.sound).1 here)
        refine ⟨slot', before, ?_⟩
        intro given parsed
        rwa [none, List.append_nil]

theorem Does.length (h : a.Does d s s') :
    s'.heap.supply.slots.length = s.heap.supply.slots.length := by
  cases h.touches with
  | none same => rw [same]
  | slot i slot slot' found own set rivals => rw [set, List.length_set]

/-- The same of deeds done one after the other. -/
theorem Deeds.parsed (h : a.Deeds ds s s') (r : a.Ready others s)
    (unowned : AdoptsUnowned others s ds)
    (noRivals : s.heap.NoRivals) {slot' : Slot} (after : s'.heap.supply.slots[i]? = some slot') :
    ∃ slot, s.heap.supply.slots[i]? = some slot ∧
      ∀ given, slot.region.Parsed a.settings.minFillWords given →
        slot'.region.Parsed a.settings.minFillWords
          (given ++ (ds.flatMap Deed.spans).filter (s.heap.supply.geometry.covers i)) := by
  induction h with
  | nil s => exact ⟨slot', after, fun given parsed => by simpa using parsed⟩
  | @cons d ds s s₁ s₂ first rest ih =>
      have r₁ := first.ready r fun j eq => (unowned j (eq ▸ List.mem_cons_self)).2
      obtain ⟨slot₁, found₁, later⟩ := ih r₁ unowned.tail (first.noRivals noRivals) after
      obtain ⟨slot, found, now⟩ := first.parsed r noRivals found₁
      refine ⟨slot, found, ?_⟩
      intro given parsed
      have both := later _ (now given parsed)
      rwa [first.geometry, List.append_assoc, ← List.filter_append, ← List.flatMap_cons] at both

theorem Deeds.holds (h : a.Deeds ds s s') (r : a.Ready others s)
    (unowned : AdoptsUnowned others s ds)
    (noRivals : s.heap.NoRivals) :
    ∀ span ∈ ds.flatMap Deed.spans,
      ∃ j < s.heap.supply.slots.length, s.heap.supply.geometry.Holds j span := by
  induction h with
  | nil s => exact nofun
  | @cons d ds s s₁ s₂ first rest ih =>
      intro span hspan
      have r₁ := first.ready r fun j eq => (unowned j (eq ▸ List.mem_cons_self)).2
      rcases List.mem_append.1 hspan with now | later
      · exact first.holds r noRivals span now
      · have := ih r₁ unowned.tail (first.noRivals noRivals) span later
        rwa [first.geometry, first.length] at this

/-! ## What a call hands out -/

theorem Claiming.spans {min desired : Nat} {o : Except Fault (Option Span)}
    (h : Claiming min desired o ds) : ds.flatMap Deed.spans = o.toOption.join.toList := by
  cases h <;> rfl

theorem Installing.spans {words : Nat} {o : Except Fault (Option Nat)}
    (h : Installing words o ds) :
    ds.flatMap Deed.spans =
      (o.toOption.join.map fun start => ({ start, words } : Span)).toList := by
  cases h <;> rfl

theorem Retiring.spans {filling counted : Bool} {waste : Nat}
    (h : Retiring filling counted waste ds) : ds.flatMap Deed.spans = [] := by
  cases h <;> rfl

theorem Renewal.spans {desired : Nat} {counted : Bool} {o : Except Fault (Option Span)}
    (h : Renewal desired counted o ds) : ds.flatMap Deed.spans = o.toOption.join.toList := by
  cases h with
  | fault e => rfl
  | @renewed waste ds es o retiring installing =>
      rw [List.flatMap_append, retiring.spans, installing.spans, List.nil_append]
      cases o with
      | error e => rfl
      | ok start => cases start <;> rfl

theorem Release.spans {counted : Bool} {o : Except Fault (Option Place)}
    (h : Release counted o ds) : ds.flatMap Deed.spans = [] := by
  cases h with
  | fault e => rfl
  | released place h dropped =>
      obtain rfl | ⟨j, waste, rfl⟩ := dropped <;> simp [h.spans, Deed.spans]

/-- A call hands out what its outcome tells, and nothing else. -/
theorem Course.spans {c : Call} {o : Except Fault Answer} (h : a.Course c o ds) :
    ds.flatMap Deed.spans = (c.span o).toList := by
  cases h with
  | @allocate words o ds h =>
      cases h with
      | fault | refused | outrun => rfl
      | served i span least most =>
          obtain rfl : span.words = words := Nat.le_antisymm most least
          rfl
  | @claim min desired o ds h | @claimRetained min desired o ds h
  | @claimLocked min desired o ds h =>
      rw [h.spans]
      cases o <;> rfl
  | @claimFresh min desired o ds h =>
      rw [h.spans]
      cases o <;> rfl
  | @claimLocked_fresh min desired o ds es h h' =>
      rw [List.flatMap_append, h.spans, h'.spans]
      cases o <;> rfl
  | @claimForced words o ds h | @install words o ds h =>
      rw [h.spans]
      cases o <;> rfl
  | start h | startPlain h => cases h <;> rfl
  | @retire filling o ds h | @retirePlain filling o ds h =>
      have none : ds.flatMap Deed.spans = [] := by
        cases h with
        | fault e => rfl
        | retired h => exact h.spans
      rw [none]
      cases o <;> rfl
  | @release o ds h | @releasePlain o ds h =>
      rw [h.spans]
      cases o <;> rfl
  | adopt h => cases h <;> rfl
  | held | summary => rfl

end Arena

end RegionHeap
