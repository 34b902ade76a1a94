import RegionHeap.Arena.Basic

/-!
# How programs end

A program ends with an outcome in a store. What it says meanwhile does not count:
the judgement holds for every transcript that the program finds, and only asks that
events are added to it. Ends of the parts compose to the end of a sequence.
-/

namespace RegionHeap.Program

variable {α β : Type}

/-- Started in `s`, the program ends with `o` in `s'`, and reports events only. -/
def Ends (x : Program α) (s : Store) (o : Except Fault α) (s' : Store) : Prop :=
  ∀ t, ∃ said : List Event, x.run { s with transcript := t } =
    (o, { s' with transcript := t ++ said.map Entry.event })

theorem Ends.done (a : α) (s : Store) : (Program.done a).Ends s (.ok a) s :=
  fun t => ⟨[], by simp⟩

theorem Ends.pure (a : α) (s : Store) : (Pure.pure a : Program α).Ends s (.ok a) s :=
  Ends.done a s

theorem Ends.fail (e : Fault) (s : Store) : (Program.fail e : Program α).Ends s (.error e) s :=
  fun t => ⟨[], by simp⟩

/-- A sequence goes on where its first part ended. -/
theorem Ends.bind {x : Program α} {f : α → Program β} {s s₁ s₂ : Store} {a : α}
    {o : Except Fault β} (hx : x.Ends s (.ok a) s₁) (hf : (f a).Ends s₁ o s₂) :
    (x >>= f).Ends s o s₂ := by
  intro t
  obtain ⟨said, run⟩ := hx t
  obtain ⟨more, run'⟩ := hf (t ++ said.map Entry.event)
  refine ⟨said ++ more, ?_⟩
  rw [run_bind, run]
  simp only [run', List.map_append, List.append_assoc]

/-- A sequence stops at the fault of its first part. -/
theorem Ends.bind_error {x : Program α} (f : α → Program β) {s s₁ : Store} {e : Fault}
    (hx : x.Ends s (.error e) s₁) : (x >>= f).Ends s (.error e) s₁ := by
  intro t
  obtain ⟨said, run⟩ := hx t
  refine ⟨said, ?_⟩
  rw [run_bind, run]

/-- What a function makes of the value does not matter to the store. -/
theorem Ends.map {x : Program α} (f : α → β) {s s₁ : Store} {o : Except Fault α}
    (hx : x.Ends s o s₁) : (f <$> x).Ends s (o.map f) s₁ := by
  cases o with
  | error e => exact hx.bind_error _
  | ok a => exact hx.bind (Ends.done (f a) s₁)

/-- A step that neither reads nor writes the transcript ends as it performs. -/
theorem Ends.perform {st : Step} {s s' : Store} {answer : st.Answer}
    (h : ∀ t, st.perform { s with transcript := t } = .ok (answer, { s' with transcript := t })) :
    (Program.perform st).Ends s (.ok answer) s' := by
  intro t
  refine ⟨[], ?_⟩
  rw [run_perform, h t]
  simp

theorem Ends.compute {x : Except Fault α} {o : Except Fault α} (h : x = o) (s : Store) :
    (Program.compute x).Ends s o s := by
  subst h
  cases x with
  | ok a => exact Ends.done a s
  | error e => exact Ends.fail e s

theorem Ends.require {p : Prop} [Decidable p] (h : p) (e : Fault) (s : Store) :
    (Program.require p e).Ends s (.ok ()) s := by
  rw [Program.require, if_pos h]
  exact Ends.done () s

theorem Ends.require_not {p : Prop} [Decidable p] (h : ¬ p) (e : Fault) (s : Store) :
    (Program.require p e).Ends s (.error e) s := by
  rw [Program.require, if_neg h]
  exact Ends.fail e s

theorem Ends.active (s : Store) : Program.active.Ends s (.ok s.registers.active) s :=
  Ends.perform fun _ => rfl

theorem Ends.activate (place : Option Place) (s : Store) :
    (Program.activate place).Ends s (.ok ()) { s with registers.active := place } :=
  Ends.perform fun _ => rfl

theorem Ends.retained (s : Store) : Program.retained.Ends s (.ok s.registers.retained) s :=
  Ends.perform fun _ => rfl

theorem Ends.retain (place : Option Place) (s : Store) :
    (Program.retain place).Ends s (.ok ()) { s with registers.retained := place } :=
  Ends.perform fun _ => rfl

theorem Ends.count (s : Store) : Program.count.Ends s (.ok s.registers.count) s :=
  Ends.perform fun _ => rfl

theorem Ends.wasted (s : Store) : Program.wasted.Ends s (.ok s.registers.wasted) s :=
  Ends.perform fun _ => rfl

theorem Ends.waste (bytes : Nat) (s : Store) :
    (Program.waste bytes).Ends s (.ok ())
      { s with registers.wasted := Waste.add s.registers.wasted bytes } :=
  Ends.perform fun _ => rfl

theorem Ends.tell (a : Arena) (moment : Moment) (s : Store) :
    (a.tell moment).Ends s (.ok ()) s :=
  fun t => ⟨[Store.event { s with transcript := t } a.name moment none], rfl⟩

theorem Ends.tellSizes (a : Arena) (moment : Moment) (min desired : Nat)
    (result : Option Span) (s : Store) :
    (a.tellSizes moment min desired result).Ends s (.ok ()) s :=
  fun t => ⟨[Store.event { s with transcript := t } a.name moment (some {
    min
    desired
    actual := (result.map Span.words).getD 0
    result := result.map Span.start })], rfl⟩

theorem Ends.look {place : Place} {slot : Slot} {s : Store}
    (found : s.heap.find place = .ok slot) : (Program.look place).Ends s (.ok slot) s := by
  refine Ends.perform fun t => ?_
  rw [Step.perform_look]
  exact congrArg (Except.map fun slot => (slot, _)) found

theorem Ends.freeBytes {place : Place} {slot : Slot} {s : Store} {o : Except Fault Nat}
    (found : s.heap.find place = .ok slot) (h : slot.region.free = o) :
    (Program.freeBytes place).Ends s o s :=
  (Ends.look found).bind (Ends.compute h s)

theorem Ends.usedBytes {place : Place} {slot : Slot} {s : Store} {o : Except Fault Nat}
    (found : s.heap.find place = .ok slot) (h : slot.region.used = o) :
    (Program.usedBytes place).Ends s o s :=
  (Ends.look found).bind (Ends.compute h s)

theorem Ends.claim {place : Place} {slot after : Slot} {span : Option Span} {s : Store}
    {min desired : Nat} (found : s.heap.find place = .ok slot)
    (claimed : slot.claim min desired = .ok (span, after)) :
    (Program.claim place min desired).Ends s (.ok span)
      { s with heap := s.heap.put place after } :=
  fun t => ⟨[], by rw [run_claim (s := { s with transcript := t }) found claimed]; simp⟩

theorem Ends.claim_error {place : Place} {slot : Slot} {e : Fault} {s : Store}
    {min desired : Nat} (found : s.heap.find place = .ok slot)
    (claimed : slot.claim min desired = .error e) :
    (Program.claim place min desired).Ends s (.error e) s := by
  intro t
  refine ⟨[], ?_⟩
  have found' : ({ s with transcript := t } : Store).heap.find place = .ok slot := found
  rw [Program.claim, run_perform, Step.perform_claim, found']
  simp [Except.bind, claimed, Except.map]

theorem Ends.addFiller {place : Place} {slot : Slot} {filler : Span} {region : Region}
    {s : Store} (found : s.heap.find place = .ok slot)
    (added : slot.region.addFiller filler = .ok region) :
    (Program.perform (.addFiller place filler)).Ends s (.ok ())
      { s with heap := s.heap.put place { slot with region } } := by
  refine Ends.perform fun t => ?_
  have found' : ({ s with transcript := t } : Store).heap.find place = .ok slot := found
  rw [Step.perform, Step.onRegion_eq, found']
  simp [Except.bind, added, Except.map]

theorem Ends.mark {place : Place} {slot : Slot} {s : Store} (address : Nat)
    (found : s.heap.find place = .ok slot) :
    (Program.perform (.mark place address)).Ends s (.ok ())
      { s with heap := s.heap.put place { slot with region := slot.region.mark address } } := by
  refine Ends.perform fun t => ?_
  have found' : ({ s with transcript := t } : Store).heap.find place = .ok slot := found
  rw [Step.perform, Step.onRegion_eq, found']
  rfl

theorem Ends.unmark {place : Place} {slot : Slot} {s : Store}
    (found : s.heap.find place = .ok slot) :
    (Program.perform (.unmark place)).Ends s (.ok ())
      { s with heap := s.heap.put place { slot with region := slot.region.unmark } } := by
  refine Ends.perform fun t => ?_
  have found' : ({ s with transcript := t } : Store).heap.find place = .ok slot := found
  rw [Step.perform, Step.onRegion_eq, found']
  rfl

theorem Ends.unmark_error {place : Place} {e : Fault} {s : Store}
    (missing : s.heap.find place = .error e) :
    (Program.perform (.unmark place)).Ends s (.error e) s := by
  intro t
  refine ⟨[], ?_⟩
  have missing' : ({ s with transcript := t } : Store).heap.find place = .error e := missing
  rw [run_perform, Step.perform, Step.onRegion_eq, missing']
  simp [Except.bind]

theorem Ends.current {a : Arena} {s : Store} {place : Place}
    (h : s.registers.active = some place) : a.current.Ends s (.ok place) s := by
  refine (Ends.active s).bind ?_
  rw [h]
  exact Ends.done place s

theorem Ends.current_none {a : Arena} {s : Store} (h : s.registers.active = none) :
    a.current.Ends s (.error (.notStarted a.name)) s := by
  refine (Ends.active s).bind ?_
  rw [h]
  exact Ends.fail _ s

theorem Ends.held (s : Store) : Arena.held.Ends s (.ok s.registers.held) s := by
  refine (Ends.active s).bind ?_
  unfold Registers.held
  cases s.registers.active with
  | none => exact Ends.done none s
  | some place =>
      cases place with
      | sentinel => exact Ends.done none s
      | table i => exact Ends.done (some (Place.table i)) s

/-- Started in `s`, the program ends with `o` in `s'`, whatever it reports. -/
def Leads (x : Program α) (s : Store) (o : Except Fault α) (s' : Store) : Prop :=
  ∀ t, ∃ said : List Entry, x.run { s with transcript := t } =
    (o, { s' with transcript := t ++ said })

theorem Ends.leads {x : Program α} {s s' : Store} {o : Except Fault α} (h : x.Ends s o s') :
    x.Leads s o s' :=
  fun t => (h t).elim fun _ run => ⟨_, run⟩

theorem Leads.bind {x : Program α} {f : α → Program β} {s s₁ s₂ : Store} {a : α}
    {o : Except Fault β} (hx : x.Leads s (.ok a) s₁) (hf : (f a).Leads s₁ o s₂) :
    (x >>= f).Leads s o s₂ := by
  intro t
  obtain ⟨said, run⟩ := hx t
  obtain ⟨more, run'⟩ := hf (t ++ said)
  refine ⟨said ++ more, ?_⟩
  rw [run_bind, run]
  simp only [run', List.append_assoc]

theorem Leads.bind_error {x : Program α} (f : α → Program β) {s s₁ : Store} {e : Fault}
    (hx : x.Leads s (.error e) s₁) : (x >>= f).Leads s (.error e) s₁ := by
  intro t
  obtain ⟨said, run⟩ := hx t
  refine ⟨said, ?_⟩
  rw [run_bind, run]

theorem Leads.map {x : Program α} (f : α → β) {s s₁ : Store} {o : Except Fault α}
    (hx : x.Leads s o s₁) : (f <$> x).Leads s (o.map f) s₁ := by
  cases o with
  | error e => exact hx.bind_error _
  | ok a => exact hx.bind (Ends.done (f a) s₁).leads

/-- Only the summary at the end of a tenancy is not an event. -/
theorem Leads.summarise (regions bytes regionBytes : Nat) (s : Store) :
    (Program.perform (.summarise regions bytes regionBytes)).Leads s (.ok ()) s :=
  fun _ => ⟨[.summary regions bytes regionBytes], rfl⟩

end RegionHeap.Program
