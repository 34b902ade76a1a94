import RegionHeap.Proofs.Arena.Handling

/-!
# What an arena reports of sizes

An arena reports transitions, requests for words that were granted, and requests that were
refused; the announcement of a forced request counts among the refusals, as nothing was handed
out yet. A transition is reported without sizes, a grant with the span handed out, a refusal
with sizes that tell of nothing. So the sizes of a report tell which of the three it is.
-/

namespace RegionHeap

namespace Moment

/-- Whether words were handed out just now. -/
def isGrant : Moment → Bool
  | .claimed | .retainedClaimed | .lockedClaimed | .forced => true
  | _ => false

/-- Whether words are asked for and none were handed out. -/
def isDenial : Moment → Bool
  | .claimRefused | .lockedRefused | .forcing | .forceRefused => true
  | _ => false

/-- Whether an arena of this library passes through such a moment. -/
def isKnown : Moment → Bool
  | .other _ => false
  | _ => true

/-- The sizes are such as an arena reports at this moment. -/
structure Fits (moment : Moment) (sizes : Option Sizes) : Prop where
  known : moment.isKnown = true
  grant : moment.isGrant = true ↔ ∃ granted, sizes = some granted ∧ granted.isRefusal = false
  denial : moment.isDenial = true ↔ ∃ denied, sizes = some denied ∧ denied.isRefusal = true

/-- A transition is reported without sizes. -/
theorem Fits.transition {moment : Moment} (known : moment.isKnown = true)
    (noGrant : moment.isGrant = false) (noDenial : moment.isDenial = false) :
    moment.Fits none :=
  ⟨known, by simp [noGrant], by simp [noDenial]⟩

end Moment

/-- The sizes of the event are such as its moment calls for. -/
def Event.Fits (e : Event) : Prop :=
  e.moment.Fits e.sizes

/-- A listener at `debug` hears of everything but the grants, and hears no sizes. -/
theorem Event.Fits.atDetail_debug {e : Event} (fits : e.Fits) :
    e.atDetail .debug = if e.moment.isGrant then none else some e.withoutSizes := by
  unfold atDetail
  cases sizes : e.sizes with
  | none =>
      have noGrant : e.moment.isGrant ≠ true := fun grant => by
        obtain ⟨_, eq, -⟩ := fits.grant.1 grant
        simp [sizes] at eq
      simp [noGrant]
  | some told =>
      cases refusal : told.isRefusal with
      | true =>
          have noGrant : e.moment.isGrant ≠ true := fun grant => by
            obtain ⟨_, eq, granted⟩ := fits.grant.1 grant
            simp [sizes] at eq
            simp [← eq, refusal] at granted
          simp [noGrant, refusal]
      | false =>
          have grant : e.moment.isGrant = true := fits.grant.2 ⟨told, sizes, refusal⟩
          simp [grant, refusal]

/-- A step that reports such sizes only as the moment calls for. -/
def Step.ReportsFit : Step → Prop
  | .report _ moment sizes => moment.Fits sizes
  | _ => True

theorem Step.Handles.reportsFit {place : Place} {st : Step} (h : st.Handles place) :
    st.ReportsFit := by
  cases st with
  | report => exact h.elim
  | _ => exact trivial

/-- What a step adds to the transcript fits, if its report does. -/
theorem Step.ReportsFit.said {st : Step} {s s' : Store} {answer : st.Answer} (h : st.ReportsFit)
    (performed : st.perform s = .ok (answer, s'))
    (before : ∀ e, Entry.event e ∈ s.transcript → e.Fits) :
    ∀ e, Entry.event e ∈ s'.transcript → e.Fits := by
  cases st with
  | report name moment sizes =>
      cases performed
      intro e mem
      rcases List.mem_append.1 mem with old | new
      · exact before e old
      · cases List.mem_singleton.1 new
        exact h
  | summarise =>
      cases performed
      intro e mem
      rcases List.mem_append.1 mem with old | new
      · exact before e old
      · cases List.mem_singleton.1 new
  | look | claim | addFiller | mark | unmark =>
      rw [perform_keeps performed trivial]
      exact before
  | _ =>
      cases performed
      exact before

namespace Program

variable {α β : Type}

/-- The program reports such sizes only as the moments call for. -/
abbrev ReportsFit (x : Program α) : Prop :=
  x.Only Step.ReportsFit

theorem ReportsFit.map {f : α → β} {x : Program α} (h : x.ReportsFit) : (f <$> x).ReportsFit :=
  .bind h fun _ => .pure _

theorem Handles.reportsFit {place : Place} {x : Program α} (h : x.Handles place) : x.ReportsFit :=
  h.mono fun _ => Step.Handles.reportsFit

end Program

namespace Arena

open Program

variable (a : Arena)

theorem reportsFit_tell {moment : Moment} (known : moment.isKnown = true)
    (noGrant : moment.isGrant = false) (noDenial : moment.isDenial = false) :
    (a.tell moment).ReportsFit :=
  .perform (Moment.Fits.transition known noGrant noDenial)

theorem reportsFit_tellGrant {moment : Moment} (grant : moment.isGrant = true) (min desired : Nat)
    (span : Span) : (a.tellSizes moment min desired (some span)).ReportsFit := by
  refine .perform ⟨?_, ?_, ?_⟩
  · cases moment <;> simp_all [Moment.isGrant, Moment.isKnown]
  · simp [grant, Sizes.isRefusal]
  · have noDenial : moment.isDenial = false := by
      cases moment <;> simp_all [Moment.isGrant, Moment.isDenial]
    simp [noDenial, Sizes.isRefusal]

theorem reportsFit_tellDenial {moment : Moment} (denial : moment.isDenial = true)
    (min desired : Nat) : (a.tellSizes moment min desired none).ReportsFit := by
  refine .perform ⟨?_, ?_, ?_⟩
  · cases moment <;> simp_all [Moment.isDenial, Moment.isKnown]
  · have noGrant : moment.isGrant = false := by
      cases moment <;> simp_all [Moment.isGrant, Moment.isDenial]
    simp [noGrant, Sizes.isRefusal]
  · simp [denial, Sizes.isRefusal]

theorem reportsFit_current : a.current.ReportsFit := by
  refine .bind (.perform trivial) fun place => ?_
  cases place with
  | none => exact .fail _
  | some place => exact .pure place

theorem reportsFit_held : Arena.held.ReportsFit := by
  refine .bind (.perform trivial) fun place => ?_
  cases place with
  | none => exact .pure _
  | some place => cases place <;> exact .pure _

theorem reportsFit_giveUp (place : Place) (filling : Bool) : (a.giveUp place filling).ReportsFit :=
  (a.handles_giveUp place filling).reportsFit

theorem reportsFit_retirePlain (filling : Bool) : (a.retirePlain filling).ReportsFit := by
  refine .bind a.reportsFit_current fun place => .bind (a.reportsFit_tell rfl rfl rfl) fun _ => ?_
  split
  · exact .bind (a.reportsFit_tell rfl rfl rfl) fun _ => .pure 0
  · refine .bind (a.reportsFit_giveUp place filling) fun wasted => ?_
    exact .bind (.perform trivial) fun _ =>
      .bind (a.reportsFit_tell rfl rfl rfl) fun _ => .pure wasted

theorem reportsFit_worthRetaining (place : Place) : (a.worthRetaining place).ReportsFit := by
  refine .bind (handles_freeBytes place).reportsFit fun free => ?_
  split
  · exact .pure false
  · refine .bind (.perform trivial) fun kept => ?_
    cases kept with
    | none => exact .pure true
    | some kept => exact .bind (handles_freeBytes kept).reportsFit fun _ => .pure _

theorem reportsFit_retainInstead (place : Place) : (a.retainInstead place).ReportsFit := by
  refine .bind (a.reportsFit_tell rfl rfl rfl) fun _ => .bind (.perform trivial) fun kept => ?_
  cases kept with
  | none => exact .bind (.perform trivial) fun _ => .pure 0
  | some displaced =>
      exact .bind (a.reportsFit_giveUp displaced true) fun _ =>
        .bind (.perform trivial) fun _ => .pure _

theorem reportsFit_retireRetaining (filling : Bool) : (a.retireRetaining filling).ReportsFit := by
  refine .bind a.reportsFit_current fun place => .bind (a.reportsFit_tell rfl rfl rfl) fun _ => ?_
  split
  · exact .bind (.perform trivial) fun _ => .bind (a.reportsFit_tell rfl rfl rfl) fun _ => .pure 0
  · refine .bind (a.reportsFit_worthRetaining place) fun keep => .bind ?_ fun wasted => ?_
    · cases keep with
      | true => exact a.reportsFit_retainInstead place
      | false => exact a.reportsFit_giveUp place filling
    · refine .bind (.perform trivial) fun _ => .bind (.perform trivial) fun _ => ?_
      exact .bind (a.reportsFit_tell rfl rfl rfl) fun _ => .pure wasted

theorem reportsFit_retireTallying (purpose : Purpose) (filling : Bool) :
    (a.retireTallying purpose filling).ReportsFit := by
  refine .bind reportsFit_held fun place => ?_
  cases place with
  | none => exact a.reportsFit_retirePlain filling
  | some place =>
      refine .bind (a.reportsFit_retirePlain filling) fun wasted =>
        .bind (.compute _) fun words => ?_
      exact .bind (.perform trivial) fun _ => .pure wasted

theorem reportsFit_retire (filling : Bool) : (a.retire filling).ReportsFit := by
  unfold retire
  cases a.kind with
  | plain => exact a.reportsFit_retirePlain filling
  | mutator => exact a.reportsFit_retireRetaining filling
  | collector purpose => exact a.reportsFit_retireTallying purpose filling

theorem reportsFit_releaseBy {retire : Bool → Program Nat}
    (reportsFit : (retire false).ReportsFit) :
    (a.releaseBy retire).ReportsFit := by
  refine .bind (a.reportsFit_tell rfl rfl rfl) fun _ => .bind a.reportsFit_current fun place => ?_
  refine .bind reportsFit fun _ => .bind (.perform trivial) fun left => ?_
  refine .bind (.require _ _) fun _ => .bind (.perform trivial) fun _ => ?_
  exact .bind (a.reportsFit_tell rfl rfl rfl) fun _ => .pure _

theorem reportsFit_releaseRetaining : a.releaseRetaining.ReportsFit := by
  refine .bind (a.reportsFit_releaseBy (a.reportsFit_retireRetaining false)) fun released => ?_
  refine .bind ?_ fun _ => .bind (.perform trivial) fun regions => ?_
  · refine .bind (.perform trivial) fun place => ?_
    cases place with
    | none => exact .pure ()
    | some place =>
        exact .bind (a.reportsFit_giveUp place false) fun _ =>
          .bind (.perform trivial) fun _ => .perform trivial
  · exact .bind (.perform trivial) fun bytes => .bind (.perform trivial) fun _ => .pure released

theorem reportsFit_release : a.release.ReportsFit := by
  unfold release
  cases a.kind with
  | plain => exact a.reportsFit_releaseBy (a.reportsFit_retirePlain false)
  | mutator => exact a.reportsFit_releaseRetaining
  | collector purpose => exact a.reportsFit_releaseBy (a.reportsFit_retireTallying purpose false)

theorem reportsFit_startPlain : a.startPlain.ReportsFit := by
  refine .bind (a.reportsFit_tell rfl rfl rfl) fun _ => .bind (.perform trivial) fun place => ?_
  cases place with
  | some place => exact .fail _
  | none =>
      exact .bind (.perform trivial) fun _ => .bind (.perform trivial) fun _ =>
        a.reportsFit_tell rfl rfl rfl

theorem reportsFit_start : a.start.ReportsFit := by
  unfold start
  cases a.kind with
  | plain | collector => exact a.reportsFit_startPlain
  | mutator =>
      refine .bind (.perform trivial) fun _ => .bind (.require _ _) fun _ => ?_
      exact .bind a.reportsFit_startPlain fun _ => .perform trivial

theorem reportsFit_onInstall (place : Place) : (a.onInstall place).ReportsFit :=
  (a.handles_onInstall place).reportsFit

theorem reportsFit_publish (place : Place) : (a.publish place).ReportsFit := by
  refine .bind (a.reportsFit_tell rfl rfl rfl) fun _ => .bind (.perform trivial) fun slot => ?_
  refine .bind (.compute _) fun empty => .bind (.require _ _) fun _ => ?_
  exact .bind (.perform trivial) fun _ => .bind (.perform trivial) fun _ =>
    a.reportsFit_tell rfl rfl rfl

theorem reportsFit_installGranted (place : Place) (words : Nat) :
    (a.installGranted place words).ReportsFit := by
  refine .bind (.perform trivial) fun _ => .bind (.perform trivial) fun slot => ?_
  refine .bind (.compute _) fun empty => .bind (.require _ _) fun _ => ?_
  refine .bind (a.reportsFit_onInstall place) fun _ => .bind (.perform trivial) fun span => ?_
  cases span with
  | none => exact .fail _
  | some span =>
      exact .bind (a.reportsFit_publish place) fun _ =>
        .bind (a.reportsFit_tell rfl rfl rfl) fun _ => .pure _

theorem reportsFit_install (words : Nat) : (a.install words).ReportsFit := by
  refine .bind a.reportsFit_current fun place => .bind (.require _ _) fun _ => ?_
  refine .bind (a.reportsFit_tell rfl rfl rfl) fun _ => .bind (.perform trivial) fun granted => ?_
  cases granted with
  | none => exact .bind (a.reportsFit_tell rfl rfl rfl) fun _ => .pure _
  | some i => exact .bind (a.reportsFit_installGranted _ words) fun _ => .pure _

theorem reportsFit_adopt (place : Place) : (a.adopt place).ReportsFit := by
  refine .bind (a.reportsFit_tell rfl rfl rfl) fun _ => .bind a.reportsFit_current fun _ => ?_
  refine .bind (.perform trivial) fun count => .bind (.require _ _) fun _ => ?_
  refine .bind (a.reportsFit_onInstall place) fun _ => ?_
  exact .bind (a.reportsFit_publish place) fun _ => a.reportsFit_tell rfl rfl rfl

theorem reportsFit_allocate (words : Nat) : (a.allocate words).ReportsFit :=
  .bind a.reportsFit_current fun _ => .bind (.perform trivial) fun _ => .pure _

theorem reportsFit_claim (min desired : Nat) : (a.claim min desired).ReportsFit := by
  refine .bind a.reportsFit_current fun place => .bind (.perform trivial) fun span => ?_
  cases span with
  | none => exact .bind (a.reportsFit_tellDenial rfl ..) fun _ => .pure _
  | some span => exact .bind (a.reportsFit_tellGrant rfl ..) fun _ => .pure _

theorem reportsFit_claimRetained (min desired : Nat) :
    (a.claimRetained min desired).ReportsFit := by
  refine .bind (.perform trivial) fun place => ?_
  cases place with
  | none => exact .pure none
  | some place =>
      refine .bind (.perform trivial) fun span => ?_
      cases span with
      | none => exact .pure none
      | some span => exact .bind (a.reportsFit_tellGrant rfl ..) fun _ => .pure _

theorem reportsFit_claimFresh (min desired : Nat) : (a.claimFresh min desired).ReportsFit := by
  refine .bind (a.reportsFit_retire true) fun _ =>
    .bind (a.reportsFit_install desired) fun start => ?_
  cases start with
  | none => exact .bind (a.reportsFit_tellDenial rfl ..) fun _ => .pure _
  | some start => exact .bind (a.reportsFit_tellGrant rfl ..) fun _ => .pure _

theorem reportsFit_claimLocked (min desired : Nat) : (a.claimLocked min desired).ReportsFit := by
  refine .bind (a.reportsFit_claim min desired) fun span => ?_
  cases span with
  | none => exact a.reportsFit_claimFresh min desired
  | some span => exact .pure _

theorem reportsFit_claimForced (words : Nat) : (a.claimForced words).ReportsFit := by
  refine .bind (a.reportsFit_tellDenial rfl ..) fun _ =>
    .bind (a.reportsFit_install words) fun start => ?_
  cases start with
  | none => exact .bind (a.reportsFit_tellDenial rfl ..) fun _ => .pure _
  | some start => exact .bind (a.reportsFit_tellGrant rfl ..) fun _ => .pure _

/-- Whatever is asked of an arena, it reports such sizes only as the moments call for. -/
theorem reportsFit_answer (c : Call) : (a.answer c).ReportsFit := by
  cases c with
  | start => exact .bind a.reportsFit_start fun _ => .pure _
  | retire filling => exact (a.reportsFit_retire filling).map
  | release => exact a.reportsFit_release.map
  | allocate words => exact (a.reportsFit_allocate words).map
  | claim min desired => exact (a.reportsFit_claim min desired).map
  | claimRetained min desired => exact (a.reportsFit_claimRetained min desired).map
  | claimLocked min desired => exact (a.reportsFit_claimLocked min desired).map
  | claimFresh min desired => exact (a.reportsFit_claimFresh min desired).map
  | claimForced words => exact (a.reportsFit_claimForced words).map
  | install words => exact (a.reportsFit_install words).map
  | adopt place => exact .bind (a.reportsFit_adopt place) fun _ => .pure _
  | held => exact reportsFit_held.map
  | summary =>
      refine ReportsFit.map (.bind (.perform trivial) fun _ => ?_)
      exact .bind (.perform trivial) fun _ => .compute _
  | startPlain => exact .bind a.reportsFit_startPlain fun _ => .pure _
  | retirePlain filling => exact (a.reportsFit_retirePlain filling).map
  | releasePlain => exact (a.reportsFit_releaseBy (a.reportsFit_retirePlain false)).map

end Arena

end RegionHeap
