import RegionHeap.Proofs.Arena.Hiding

/-!
# What an arena says

Apart from the totals of a tenancy, an arena says nothing but events. The totals come last,
when everything else that a release has to do is done, and the regions that they tell are
those that were counted before the release.
-/

namespace RegionHeap

/-- A step that says events at most. -/
def Step.EventsOnly : Step → Prop
  | .summarise .. => False
  | _ => True

/-- A step that says events at most and counts no region. -/
def Step.EventsNoCount : Step → Prop
  | .clearCount | .bumpCount | .summarise .. => False
  | _ => True

theorem Step.Withdraws.eventsNoCount {st : Step} (h : st.Withdraws) : st.EventsNoCount := by
  cases st with
  | clearCount | bumpCount | summarise => exact h
  | _ => exact trivial

theorem Step.EventsNoCount.eventsOnly {st : Step} (h : st.EventsNoCount) : st.EventsOnly := by
  cases st with
  | summarise => exact h
  | _ => exact trivial

namespace Step

variable {st : Step} {s s' : Store} {answer : st.Answer}

theorem EventsOnly.said (h : st.EventsOnly) (performed : st.perform s = .ok (answer, s')) :
    ∃ said : List Event, s'.transcript = s.transcript ++ said.map Entry.event := by
  cases st with
  | summarise => exact h.elim
  | report name moment sizes =>
      cases performed
      exact ⟨[s.event name moment sizes], rfl⟩
  | look | claim | addFiller | mark | unmark =>
      rw [perform_keeps performed trivial]
      exact ⟨[], (List.append_nil _).symm⟩
  | _ =>
      cases performed
      exact ⟨[], (List.append_nil _).symm⟩

theorem EventsNoCount.count (h : st.EventsNoCount) (performed : st.perform s = .ok (answer, s')) :
    s'.registers.count = s.registers.count := by
  cases st with
  | clearCount | bumpCount | summarise => exact h.elim
  | look | claim | addFiller | mark | unmark => rw [perform_keeps performed trivial]
  | _ =>
      cases performed
      rfl

end Step

namespace Program

variable {α β : Type} {x : Program α}

/-- The program says events at most. -/
abbrev EventsOnly (x : Program α) : Prop :=
  x.Only Step.EventsOnly

/-- The program says events at most and counts no region. -/
abbrev EventsNoCount (x : Program α) : Prop :=
  x.Only Step.EventsNoCount

theorem Withdraws.eventsNoCount (h : x.Withdraws) : x.EventsNoCount :=
  h.mono fun _ => Step.Withdraws.eventsNoCount

theorem EventsNoCount.eventsOnly (h : x.EventsNoCount) : x.EventsOnly :=
  h.mono fun _ => Step.EventsNoCount.eventsOnly

theorem Withdraws.eventsOnly (h : x.Withdraws) : x.EventsOnly :=
  h.eventsNoCount.eventsOnly

theorem EventsOnly.map {f : α → β} (h : x.EventsOnly) : (f <$> x).EventsOnly :=
  .bind h fun _ => .pure _

theorem run_map (f : α → β) (x : Program α) (s : Store) :
    (f <$> x).run s = ((x.run s).1.map f, (x.run s).2) := by
  change (x >>= fun a => Program.done (f a)).run s = _
  rw [run_bind]
  cases x.run s with
  | mk result s₁ => cases result <;> rfl

/-- The transcript of a run has events added to it. -/
theorem EventsOnly.run_said (h : x.EventsOnly) (s : Store) :
    ∃ said : List Event, (x.run s).2.transcript = s.transcript ++ said.map Entry.event := by
  refine h.run_invariant (fun t => ∃ said : List Event,
    t.transcript = s.transcript ++ said.map Entry.event) ?_ ⟨[], (List.append_nil _).symm⟩
  rintro st t t' answer eventsOnly ⟨said, before⟩ performed
  obtain ⟨more, after⟩ := eventsOnly.said performed
  exact ⟨said ++ more, by rw [after, before, List.map_append, List.append_assoc]⟩

theorem EventsNoCount.run_count (h : x.EventsNoCount) (s : Store) :
    (x.run s).2.registers.count = s.registers.count := by
  refine h.run_invariant (fun t => t.registers.count = s.registers.count) ?_ rfl
  exact fun st t t' answer eventsNoCount before performed =>
    (eventsNoCount.count performed).trans before

end Program

namespace Arena

open Program

variable (a : Arena)

theorem eventsOnly_tellSizes (moment : Moment) (min desired : Nat) (result : Option Span) :
    (a.tellSizes moment min desired result).EventsOnly :=
  .perform trivial

theorem eventsOnly_allocate (words : Nat) : (a.allocate words).EventsOnly :=
  .bind a.withdraws_current.eventsOnly fun _ => .bind (.perform trivial) fun _ => .pure _

theorem eventsOnly_claim (min desired : Nat) : (a.claim min desired).EventsOnly := by
  refine .bind a.withdraws_current.eventsOnly fun place => .bind (.perform trivial) fun span => ?_
  cases span with
  | none => exact .bind (a.eventsOnly_tellSizes ..) fun _ => .pure _
  | some span => exact .bind (a.eventsOnly_tellSizes ..) fun _ => .pure _

theorem eventsOnly_claimRetained (min desired : Nat) :
    (a.claimRetained min desired).EventsOnly := by
  refine .bind (.perform trivial) fun place => ?_
  cases place with
  | none => exact .pure none
  | some place =>
      refine .bind (.perform trivial) fun span => ?_
      cases span with
      | none => exact .pure none
      | some span => exact .bind (a.eventsOnly_tellSizes ..) fun _ => .pure _

theorem eventsOnly_startPlain : a.startPlain.EventsOnly := by
  refine .bind (a.withdraws_tell _).eventsOnly fun _ => .bind (.perform trivial) fun place => ?_
  cases place with
  | some place => exact .fail _
  | none =>
      exact .bind (.perform trivial) fun _ => .bind (.perform trivial) fun _ =>
        (a.withdraws_tell _).eventsOnly

theorem eventsOnly_start : a.start.EventsOnly := by
  unfold start
  cases a.kind with
  | plain | collector => exact a.eventsOnly_startPlain
  | mutator =>
      refine .bind (.perform trivial) fun _ => .bind (.require _ _) fun _ => ?_
      exact .bind a.eventsOnly_startPlain fun _ => .perform trivial

theorem eventsOnly_publish (place : Place) : (a.publish place).EventsOnly := by
  refine .bind (a.withdraws_tell _).eventsOnly fun _ => .bind (.perform trivial) fun slot => ?_
  refine .bind (.compute _) fun empty => .bind (.require _ _) fun _ => ?_
  exact .bind (.perform trivial) fun _ => .bind (.perform trivial) fun _ =>
    (a.withdraws_tell _).eventsOnly

theorem eventsOnly_installGranted (place : Place) (words : Nat) :
    (a.installGranted place words).EventsOnly := by
  refine .bind (.perform trivial) fun _ => .bind (.perform trivial) fun slot => ?_
  refine .bind (.compute _) fun empty => .bind (.require _ _) fun _ => ?_
  refine .bind (a.withdraws_onInstall place).eventsOnly fun _ => ?_
  refine .bind (.perform trivial) fun span => ?_
  cases span with
  | none => exact .fail _
  | some span =>
      exact .bind (a.eventsOnly_publish place) fun _ =>
        .bind (a.withdraws_tell _).eventsOnly fun _ => .pure _

theorem eventsOnly_install (words : Nat) : (a.install words).EventsOnly := by
  refine .bind a.withdraws_current.eventsOnly fun place => .bind (.require _ _) fun _ => ?_
  refine .bind (a.withdraws_tell _).eventsOnly fun _ => .bind (.perform trivial) fun granted => ?_
  cases granted with
  | none => exact .bind (a.withdraws_tell _).eventsOnly fun _ => .pure _
  | some i => exact .bind (a.eventsOnly_installGranted _ words) fun _ => .pure _

theorem eventsOnly_adopt (place : Place) : (a.adopt place).EventsOnly := by
  refine .bind (a.withdraws_tell _).eventsOnly fun _ =>
    .bind a.withdraws_current.eventsOnly fun _ => ?_
  refine .bind (.perform trivial) fun count => .bind (.require _ _) fun _ => ?_
  refine .bind (a.withdraws_onInstall place).eventsOnly fun _ => ?_
  exact .bind (a.eventsOnly_publish place) fun _ => (a.withdraws_tell _).eventsOnly

theorem eventsOnly_claimFresh (min desired : Nat) : (a.claimFresh min desired).EventsOnly := by
  refine .bind (a.withdraws_retire true).eventsOnly fun _ =>
    .bind (a.eventsOnly_install desired) fun start => ?_
  cases start with
  | none => exact .bind (a.eventsOnly_tellSizes ..) fun _ => .pure _
  | some start => exact .bind (a.eventsOnly_tellSizes ..) fun _ => .pure _

theorem eventsOnly_claimLocked (min desired : Nat) : (a.claimLocked min desired).EventsOnly := by
  refine .bind (a.eventsOnly_claim min desired) fun span => ?_
  cases span with
  | none => exact a.eventsOnly_claimFresh min desired
  | some span => exact .pure _

theorem eventsOnly_claimForced (words : Nat) : (a.claimForced words).EventsOnly := by
  refine .bind (a.eventsOnly_tellSizes ..) fun _ =>
    .bind (a.eventsOnly_install words) fun start => ?_
  cases start with
  | none => exact .bind (a.eventsOnly_tellSizes ..) fun _ => .pure _
  | some start => exact .bind (a.eventsOnly_tellSizes ..) fun _ => .pure _

theorem eventsOnly_summary : a.summary.EventsOnly :=
  .bind (.perform trivial) fun _ => .bind (.perform trivial) fun _ => .compute _

/-- Letting go of the sentinel counts no region either. -/
theorem eventsNoCount_releaseBy {retire : Bool → Program Nat}
    (withdraws : ∀ filling, (retire filling).Withdraws) : (a.releaseBy retire).EventsNoCount := by
  refine .bind (a.withdraws_tell _).eventsNoCount fun _ =>
    .bind a.withdraws_current.eventsNoCount fun _ => ?_
  refine .bind (withdraws false).eventsNoCount fun _ => .bind (.perform trivial) fun left => ?_
  refine .bind (.require _ _) fun _ => .bind (.perform trivial) fun _ => ?_
  exact .bind (a.withdraws_tell _).eventsNoCount fun _ => .pure _

theorem eventsNoCount_releaseRetained : a.releaseRetained.EventsNoCount := by
  refine .bind (.perform trivial) fun place => ?_
  cases place with
  | none => exact .pure ()
  | some place =>
      exact .bind (a.withdraws_giveUp place false).eventsNoCount fun _ =>
        .bind (.perform trivial) fun _ => .perform trivial

/-- Only the release of an arena that keeps regions says more than events. -/
theorem eventsOnly_answer {c : Call} (quiet : c = .release → a.kind ≠ .mutator) :
    (a.answer c).EventsOnly := by
  cases c with
  | start => exact .bind a.eventsOnly_start fun _ => .pure _
  | retire filling => exact (a.withdraws_retire filling).eventsOnly.map
  | release =>
      refine EventsOnly.map ?_
      unfold release
      cases kind : a.kind with
      | plain => exact (a.eventsNoCount_releaseBy a.withdraws_retirePlain).eventsOnly
      | mutator => exact absurd kind (quiet rfl)
      | collector purpose =>
          exact (a.eventsNoCount_releaseBy (a.withdraws_retireTallying purpose)).eventsOnly
  | allocate words => exact (a.eventsOnly_allocate words).map
  | claim min desired => exact (a.eventsOnly_claim min desired).map
  | claimRetained min desired => exact (a.eventsOnly_claimRetained min desired).map
  | claimLocked min desired => exact (a.eventsOnly_claimLocked min desired).map
  | claimFresh min desired => exact (a.eventsOnly_claimFresh min desired).map
  | claimForced words => exact (a.eventsOnly_claimForced words).map
  | install words => exact (a.eventsOnly_install words).map
  | adopt place => exact .bind (a.eventsOnly_adopt place) fun _ => .pure _
  | held => exact withdraws_held.eventsOnly.map
  | summary => exact a.eventsOnly_summary.map
  | startPlain => exact .bind a.eventsOnly_startPlain fun _ => .pure _
  | retirePlain filling => exact (a.withdraws_retirePlain filling).eventsOnly.map
  | releasePlain => exact (a.eventsNoCount_releaseBy a.withdraws_retirePlain).eventsOnly.map

/-- A release of an arena that keeps regions stops at a fault, of which it has said nothing
but events, or reports the totals after everything else. -/
theorem releaseRetaining_said (s : Store) :
    ∃ said : List Event,
      ((∃ fault, (a.releaseRetaining.run s).1 = .error fault) ∧
        (a.releaseRetaining.run s).2.transcript = s.transcript ++ said.map Entry.event) ∨
      ∃ place bytes, (a.releaseRetaining.run s).1 = .ok place ∧
        (a.releaseRetaining.run s).2.transcript = s.transcript ++ said.map Entry.event ++
          [.summary s.registers.count bytes a.settings.regionBytes] := by
  have first := a.eventsNoCount_releaseBy a.withdraws_retireRetaining
  have second := a.eventsNoCount_releaseRetained
  obtain ⟨said, before⟩ := first.eventsOnly.run_said s
  have count := first.run_count s
  rw [releaseRetaining, run_bind]
  cases released : (a.releaseBy a.retireRetaining).run s with
  | mk result s₁ =>
      rw [released] at before count
      cases result with
      | error fault => exact ⟨said, .inl ⟨⟨fault, rfl⟩, before⟩⟩
      | ok place =>
          obtain ⟨more, after⟩ := second.eventsOnly.run_said s₁
          have count' := second.run_count s₁
          simp only [run_bind]
          cases dropped : a.releaseRetained.run s₁ with
          | mk result s₂ =>
              rw [dropped] at after count'
              have both : s₂.transcript = s.transcript ++ (said ++ more).map Entry.event := by
                rw [List.map_append, ← List.append_assoc, ← before]
                exact after
              refine ⟨said ++ more, ?_⟩
              cases result with
              | error fault => exact .inl ⟨⟨fault, rfl⟩, both⟩
              | ok u =>
                  refine .inr ⟨place, s₂.registers.wasted, rfl, ?_⟩
                  change s₂.transcript ++ [Entry.summary s₂.registers.count _ _] = _
                  rw [both, count'.trans count]

/-- What is said on a call are events, apart from the totals at the end of a release. -/
theorem answer_said (c : Call) (s : Store) :
    ∃ said : List Event,
      ((a.answer c).run s).2.transcript = s.transcript ++ said.map Entry.event ∨
      c = .release ∧ a.kind = .mutator ∧ (∃ answer, ((a.answer c).run s).1 = .ok answer) ∧
        ∃ bytes, ((a.answer c).run s).2.transcript = s.transcript ++ said.map Entry.event ++
          [.summary s.registers.count bytes a.settings.regionBytes] := by
  by_cases loud : c = .release ∧ a.kind = .mutator
  · obtain ⟨rfl, kind⟩ := loud
    have same : a.answer .release = Answer.place <$> a.releaseRetaining := by
      simp only [answer, release, kind]
    rw [same, run_map]
    obtain ⟨said, ⟨-, events⟩ | ⟨place, bytes, released, totals⟩⟩ := a.releaseRetaining_said s
    · exact ⟨said, .inl events⟩
    · refine ⟨said, .inr ⟨rfl, kind, ⟨.place place, ?_⟩, bytes, totals⟩⟩
      rw [released]
      rfl
  · have eventsOnly := a.eventsOnly_answer (c := c) fun eq kind => loud ⟨eq, kind⟩
    obtain ⟨said, events⟩ := eventsOnly.run_said s
    exact ⟨said, .inl events⟩

end Arena

end RegionHeap
