import RegionHeap.Proofs.Arena.Acquire
import RegionHeap.Proofs.Arena.Return

/-!
# The course of a call

Whatever is asked of an arena that is ready, it comes to an end by deeds of the
arena. `Course` says which deeds can stand behind which outcome.
-/

namespace RegionHeap

/-- The regions that a call has adopted if it ends like this. -/
def Call.adopted : Call → Except Fault Answer → List Nat
  | .adopt (.table i), .ok _ => [i]
  | _, _ => []

theorem Call.adopted_error (c : Call) (fault : Fault) : c.adopted (.error fault) = [] := by
  unfold Call.adopted
  split
  · rename_i eq
    cases eq
  · rfl

namespace Arena

open Program

/-- The deeds behind the outcome of a retirement. -/
inductive Retirement (filling counted : Bool) : Except Fault Nat → List Deed → Prop
  | fault (e : Fault) : Retirement filling counted (.error e) []
  | retired {waste : Nat} {ds : List Deed} (h : Retiring filling counted waste ds) :
      Retirement filling counted (.ok waste) ds

/-- The deeds behind the outcome of a release. -/
inductive Release (counted : Bool) : Except Fault (Option Place) → List Deed → Prop
  | fault (e : Fault) : Release counted (.error e) []
  | released {waste : Nat} {ds es : List Deed} (place : Option Place)
      (h : Retiring false counted waste ds) (dropped : es = [] ∨ ∃ j waste, es = [.drop j waste]) :
      Release counted (.ok place) (ds ++ [.stop] ++ es)

/-- The deeds behind the outcome of a claim of a fresh region. -/
inductive Renewal (desired : Nat) (counted : Bool) :
    Except Fault (Option Span) → List Deed → Prop
  | fault (e : Fault) : Renewal desired counted (.error e) []
  | renewed {waste : Nat} {ds es : List Deed} {o : Except Fault (Option Nat)}
      (retiring : Retiring true counted waste ds) (installing : Installing desired o es) :
      Renewal desired counted
        (o.map fun start => start.map fun start => { start, words := desired }) (ds ++ es)

theorem Retirement.adopts_nothing {filling counted : Bool} {o : Except Fault Nat}
    {ds : List Deed} (h : Retirement filling counted o ds) (i : Nat) : Deed.adopt i ∉ ds := by
  cases h with
  | fault e => simp
  | retired h => exact h.adopts_nothing i

theorem Release.adopts_nothing {counted : Bool} {o : Except Fault (Option Place)}
    {ds : List Deed} (h : Release counted o ds) (i : Nat) : Deed.adopt i ∉ ds := by
  cases h with
  | fault e => simp
  | released place h dropped =>
      have before := h.adopts_nothing i
      obtain rfl | ⟨j, waste, rfl⟩ := dropped <;> simp [before]

/-- No region comes to an arena that is released. -/
theorem Release.gains_nothing {counted : Bool} {o : Except Fault (Option Place)}
    {ds : List Deed} (h : Release counted o ds) :
    ds.flatMap Deed.gained = [] ∧ ∀ i words, Deed.lose i words ∉ ds := by
  cases h with
  | fault e => simp
  | released place h dropped =>
      obtain ⟨gained, kept⟩ := h.gains_nothing
      obtain rfl | ⟨j, waste, rfl⟩ := dropped <;> simp [gained, kept, Deed.gained]

theorem Renewal.adopts_nothing {desired : Nat} {counted : Bool}
    {o : Except Fault (Option Span)} {ds : List Deed} (h : Renewal desired counted o ds)
    (i : Nat) : Deed.adopt i ∉ ds := by
  cases h with
  | fault e => simp
  | renewed retiring installing =>
      simp [retiring.adopts_nothing i, installing.adopts_nothing i]

/-- Whether the arena counts the waste when it retires in its own way. -/
def counts (a : Arena) : Bool := a.kind ≠ .plain

/-- The deeds behind the outcome of a call. -/
inductive Course (a : Arena) : Call → Except Fault Answer → List Deed → Prop
  | start {o : Except Fault Unit} {ds : List Deed} (h : Starting (a.kind = .mutator) o ds) :
      Course a .start (o.map fun _ => .nothing) ds
  | startPlain {o : Except Fault Unit} {ds : List Deed} (h : Starting false o ds) :
      Course a .startPlain (o.map fun _ => .nothing) ds
  | retire {filling : Bool} {o : Except Fault Nat} {ds : List Deed}
      (h : Retirement filling a.counts o ds) : Course a (.retire filling) (o.map .bytes) ds
  | retirePlain {filling : Bool} {o : Except Fault Nat} {ds : List Deed}
      (h : Retirement filling false o ds) : Course a (.retirePlain filling) (o.map .bytes) ds
  | release {o : Except Fault (Option Place)} {ds : List Deed} (h : Release a.counts o ds) :
      Course a .release (o.map .place) ds
  | releasePlain {o : Except Fault (Option Place)} {ds : List Deed} (h : Release false o ds) :
      Course a .releasePlain (o.map .place) ds
  | allocate {words : Nat} {o : Except Fault (Option Span)} {ds : List Deed}
      (h : Claiming words words o ds) :
      Course a (.allocate words) (o.map fun span => .address (span.map Span.start)) ds
  | claim {min desired : Nat} {o : Except Fault (Option Span)} {ds : List Deed}
      (h : Claiming min desired o ds) : Course a (.claim min desired) (o.map .span) ds
  | claimRetained {min desired : Nat} {o : Except Fault (Option Span)} {ds : List Deed}
      (h : Claiming min desired o ds) : Course a (.claimRetained min desired) (o.map .span) ds
  | claimFresh {min desired : Nat} {o : Except Fault (Option Span)} {ds : List Deed}
      (h : Renewal desired a.counts o ds) : Course a (.claimFresh min desired) (o.map .span) ds
  | claimLocked {min desired : Nat} {o : Except Fault (Option Span)} {ds : List Deed}
      (h : Claiming min desired o ds) : Course a (.claimLocked min desired) (o.map .span) ds
  | claimLocked_fresh {min desired : Nat} {o : Except Fault (Option Span)} {ds es : List Deed}
      (h : Claiming min desired (.ok none) ds) (h' : Renewal desired a.counts o es) :
      Course a (.claimLocked min desired) (o.map .span) (ds ++ es)
  | claimForced {words : Nat} {o : Except Fault (Option Nat)} {ds : List Deed}
      (h : Installing words o ds) : Course a (.claimForced words) (o.map .address) ds
  | install {words : Nat} {o : Except Fault (Option Nat)} {ds : List Deed}
      (h : Installing words o ds) : Course a (.install words) (o.map .address) ds
  | adopt {place : Place} {o : Except Fault Unit} {ds : List Deed} (h : Adopting place o ds) :
      Course a (.adopt place) (o.map fun _ => .nothing) ds
  | held (o : Except Fault Answer) : Course a .held o []
  | summary (o : Except Fault Answer) : Course a .summary o []

variable {a : Arena} {others : List Nat} {s : Store}

/-- An adoption stands alone, behind a call for it that has succeeded. -/
theorem Course.of_adopt {c : Call} {o : Except Fault Answer} {ds : List Deed}
    (h : a.Course c o ds) {i : Nat} (hi : Deed.adopt i ∈ ds) :
    ds = [.adopt i] ∧ c = .adopt (.table i) ∧ o = .ok .nothing := by
  cases h with
  | adopt h =>
      cases h with
      | fault => simp at hi
      | noted => simp at hi
      | adopted j =>
          obtain rfl : i = j := by simpa using hi
          exact ⟨rfl, rfl, rfl⟩
  | start h | startPlain h | retire h | retirePlain h | release h | releasePlain h | allocate h
  | claim h | claimRetained h | claimFresh h | claimLocked h | claimForced h | install h =>
      exact absurd hi (h.adopts_nothing i)
  | claimLocked_fresh h h' =>
      exact absurd hi (by simp [h.adopts_nothing i, h'.adopts_nothing i])
  | held | summary => simp at hi

theorem adopted_eq_nil {ds : List Deed} (none : ∀ i, Deed.adopt i ∉ ds) : ds.flatMap Deed.adopted = [] := by
  refine List.flatMap_eq_nil_iff.2 fun d hd => ?_
  cases d with
  | adopt i => exact absurd hd (none i)
  | _ => rfl

/-- A region is adopted by a call for it that succeeds, and by no other. -/
theorem Course.adopted {c : Call} {o : Except Fault Answer} {ds : List Deed}
    (h : a.Course c o ds) : ds.flatMap Deed.adopted = c.adopted o := by
  by_cases none : ∀ i, Deed.adopt i ∉ ds
  · rw [adopted_eq_nil none]
    cases h with
    | adopt h =>
        cases h with
        | adopted i => exact absurd List.mem_cons_self (none i)
        | fault => exact (Call.adopted_error _ _).symm
        | noted => exact (Call.adopted_error _ _).symm
    | _ => rfl
  · obtain ⟨i, hi⟩ := Classical.not_forall_not.1 none
    obtain ⟨rfl, rfl, rfl⟩ := h.of_adopt hi
    rfl

theorem Retires.endsBy {x : Program Nat} {filling counted : Bool}
    (h : a.Retires x s filling counted) : a.EndsBy x s (Retirement filling counted) := by
  by_cases idle : s.registers.active = none
  · exact ⟨_, s, [], h.idle idle, .nil s, .fault _⟩
  · obtain ⟨waste, s', ds, ends, deeds, how, -⟩ := h.busy idle
    exact ⟨_, s', ds, ends, deeds, .retired how⟩

theorem Releases.endsBy {x : Program (Option Place)} {counted : Bool}
    (h : a.Releases x s counted) : a.EndsBy x s (Release counted) := by
  by_cases idle : s.registers.active = none
  · exact ⟨_, s, [], h.idle idle, .nil s, .fault _⟩
  · obtain ⟨s', waste, ds, ends, deeds, how, -⟩ := h.busy idle
    refine ⟨_, s', ds ++ [.stop] ++ [], ends, ?_, .released _ how (.inl rfl)⟩
    rwa [List.append_nil]

/-- A claim of a fresh region ends as its installation does. -/
theorem claimFresh_ends {s₁ s₂ : Store} {waste min desired : Nat} {o : Except Fault (Option Nat)}
    (retired : (a.retire true).Ends s (.ok waste) s₁)
    (installed : (a.install desired).Ends s₁ o s₂) :
    (a.claimFresh min desired).Ends s
      (o.map fun start => start.map fun start => { start, words := desired }) s₂ := by
  refine retired.bind ?_
  cases o with
  | error e => exact installed.bind_error _
  | ok start =>
      refine installed.bind ?_
      cases start with
      | none => exact (Ends.tellSizes a _ _ _ _ s₂).bind (Ends.pure _ s₂)
      | some start => exact (Ends.tellSizes a _ _ _ _ s₂).bind (Ends.pure _ s₂)

theorem claimFresh_endsBy (r : a.Ready others s) (min desired : Nat) :
    a.EndsBy (a.claimFresh min desired) s (Renewal desired a.counts) := by
  by_cases idle : s.registers.active = none
  · exact ⟨_, s, [], ((retire_retires r.able true).idle idle).bind_error _, .nil s, .fault _⟩
  · obtain ⟨waste, s₁, ds, retired, deeds, how, -⟩ := (retire_retires r.able true).busy idle
    have r₁ := deeds.ready r (unowned_of_not_mem how.adopts_nothing)
    obtain ⟨o, s₂, es, installed, deeds', how'⟩ := install_endsBy r₁ desired
    exact ⟨_, s₂, ds ++ es, claimFresh_ends retired installed, deeds.append deeds',
      .renewed how how'⟩

/-- An arena that was started claims words of a fresh region without a fault. -/
theorem claimFresh_succeedsBy (r : a.Ready others s) (busy : s.registers.active ≠ none)
    (min : Nat) {desired : Nat} (pos : 0 < desired) :
    a.SucceedsBy (a.claimFresh min desired) s (Renewal desired a.counts) := by
  obtain ⟨waste, s₁, ds, retired, deeds, how, left⟩ := (retire_retires r.able true).busy busy
  have r₁ := deeds.ready r (unowned_of_not_mem how.adopts_nothing)
  obtain ⟨start, s₂, es, installed, deeds', how'⟩ := install_succeedsBy r₁ left pos
  exact ⟨_, s₂, ds ++ es, claimFresh_ends retired installed, deeds.append deeds',
    .renewed how how'⟩

/-- A forced claim ends as its installation does. -/
theorem claimForced_ends {s' : Store} {words : Nat} {o : Except Fault (Option Nat)}
    (installed : (a.install words).Ends s o s') : (a.claimForced words).Ends s o s' := by
  refine (Ends.tellSizes a _ _ _ _ s).bind ?_
  cases o with
  | error e => exact installed.bind_error _
  | ok start =>
      refine installed.bind ?_
      cases start with
      | none => exact (Ends.tellSizes a _ _ _ _ s').bind (Ends.pure _ s')
      | some start => exact (Ends.tellSizes a _ _ _ _ s').bind (Ends.pure _ s')

theorem claimForced_endsBy (r : a.Ready others s) (words : Nat) :
    a.EndsBy (a.claimForced words) s (Installing words) := by
  obtain ⟨o, s', ds, installed, deeds, how⟩ := install_endsBy r words
  exact ⟨o, s', ds, claimForced_ends installed, deeds, how⟩

theorem claimForced_succeedsBy (r : a.Ready others s)
    (active : s.registers.active = some .sentinel) {words : Nat} (pos : 0 < words) :
    a.SucceedsBy (a.claimForced words) s (Installing words) := by
  obtain ⟨start, s', ds, installed, deeds, how⟩ := install_succeedsBy r active pos
  exact ⟨start, s', ds, claimForced_ends installed, deeds, how⟩

/-- What stands behind a claim under the lock. -/
def Locked (a : Arena) (min desired : Nat) (o : Except Fault (Option Span)) (ds : List Deed) :
    Prop :=
  Claiming min desired o ds ∨ ∃ before after, ds = before ++ after ∧
    Claiming min desired (.ok none) before ∧ Renewal desired a.counts o after

theorem claimLocked_endsBy (r : a.Ready others s) (min desired : Nat) :
    a.EndsBy (a.claimLocked min desired) s (a.Locked min desired) := by
  obtain ⟨o, s₁, ds, ends, deeds, how⟩ := claimActive_endsBy r.able min desired
  cases o with
  | error e => exact ⟨_, s₁, ds, ends.bind_error _, deeds, .inl how⟩
  | ok span =>
      cases span with
      | some span => exact ⟨_, s₁, ds, ends.bind (Ends.pure _ s₁), deeds, .inl how⟩
      | none =>
          have r₁ := deeds.ready r (unowned_of_not_mem how.adopts_nothing)
          obtain ⟨o, s₂, es, ends', deeds', how'⟩ := claimFresh_endsBy r₁ min desired
          exact ⟨o, s₂, ds ++ es, ends.bind ends', deeds.append deeds',
            .inr ⟨ds, es, rfl, how, how'⟩⟩

/-- No claim stops an arena. -/
theorem Claiming.busy {min desired : Nat} {o : Except Fault (Option Span)} {ds : List Deed}
    (how : Claiming min desired o ds) {s' : Store} (deeds : a.Deeds ds s s')
    (busy : s.registers.active ≠ none) : s'.registers.active ≠ none := by
  cases how with
  | fault | refused =>
      cases deeds
      exact busy
  | outrun | served =>
      cases deeds with
      | cons first rest =>
          cases rest
          cases first
          exact busy

/-- An arena that was started claims under the lock without a fault. -/
theorem claimLocked_succeedsBy (r : a.Ready others s) (busy : s.registers.active ≠ none)
    {min desired : Nat} (le : min ≤ desired) (pos : 0 < desired) :
    a.SucceedsBy (a.claimLocked min desired) s (a.Locked min desired) := by
  obtain ⟨span, s₁, ds, ends, deeds, how⟩ := claimActive_succeedsBy r.able busy le
  cases span with
  | some span => exact ⟨_, s₁, ds, ends.bind (Ends.pure _ s₁), deeds, .inl how⟩
  | none =>
      have r₁ := deeds.ready r (unowned_of_not_mem how.adopts_nothing)
      obtain ⟨span, s₂, es, ends', deeds', how'⟩ :=
        claimFresh_succeedsBy r₁ (how.busy deeds busy) min pos
      exact ⟨span, s₂, ds ++ es, ends.bind ends', deeds.append deeds',
        .inr ⟨ds, es, rfl, how, how'⟩⟩

theorem start_endsBy (a : Arena) (s : Store) :
    a.EndsBy a.start s (Starting (a.kind = .mutator)) := by
  unfold start
  cases a.kind with
  | plain => exact startPlain_endsBy
  | mutator => exact startRetaining_endsBy
  | collector purpose => exact startPlain_endsBy

/-- An arena that is idle and keeps nothing starts in the way of its kind. -/
theorem start_succeedsBy (idle : s.registers.active = none) (none : s.registers.retained = none) :
    a.SucceedsBy a.start s (Starting (a.kind = .mutator)) := by
  unfold start
  cases a.kind with
  | plain => exact startPlain_succeedsBy idle
  | mutator => exact startRetaining_succeedsBy idle none
  | collector purpose => exact startPlain_succeedsBy idle

theorem release_endsBy (r : a.Able s) (kind : a.kind ≠ .mutator) :
    a.EndsBy a.release s (Release a.counts) :=
  (release_releases r kind).endsBy

/-- The report on a tenancy is a fault only if the totals are no words. -/
theorem summary_ends (s : Store) : a.summary.Ends s
    (Summary.new s.registers.count s.registers.wasted a.settings.regionBytes) s :=
  (Ends.count s).bind ((Ends.wasted s).bind (Ends.compute rfl s))

/-- A call that names no region, or one that there is, runs its course. Only the
release of an arena that keeps regions reports more than events. -/
theorem answer_endsBy (r : a.Ready others s) (c : Call)
    (named : ∀ place, c.place? = some place → ∃ slot, s.heap.find place = .ok slot)
    (quiet : c = .release → a.kind ≠ .mutator) :
    a.EndsBy (a.answer c) s (Course a c) := by
  cases c with
  | start =>
      refine ((start_endsBy a s).map fun _ => Answer.nothing).mono ?_
      rintro _ ds ⟨o, rfl, how⟩
      exact .start how
  | startPlain =>
      refine (startPlain_endsBy.map fun _ => Answer.nothing).mono ?_
      rintro _ ds ⟨o, rfl, how⟩
      exact .startPlain how
  | retire filling =>
      refine ((retire_retires r.able filling).endsBy.map Answer.bytes).mono ?_
      rintro _ ds ⟨o, rfl, how⟩
      exact .retire how
  | retirePlain filling =>
      refine ((retirePlain_retires r.able filling).endsBy.map Answer.bytes).mono ?_
      rintro _ ds ⟨o, rfl, how⟩
      exact .retirePlain how
  | release =>
      refine ((release_endsBy r.able (quiet rfl)).map Answer.place).mono ?_
      rintro _ ds ⟨o, rfl, how⟩
      exact .release how
  | releasePlain =>
      have released := (releaseBy_releases (retirePlain_retires r.able false)).endsBy
      refine (released.map Answer.place).mono ?_
      rintro _ ds ⟨o, rfl, how⟩
      exact .releasePlain how
  | allocate words =>
      refine ((allocate_endsBy r.able words).map Answer.address).mono ?_
      rintro _ ds ⟨_, rfl, o, rfl, how⟩
      cases o with
      | error e => exact .allocate how
      | ok span => exact .allocate how
  | claim min desired =>
      refine ((claimActive_endsBy r.able min desired).map Answer.span).mono ?_
      rintro _ ds ⟨o, rfl, how⟩
      exact .claim how
  | claimRetained min desired =>
      refine ((claimRetained_endsBy r.able min desired).map Answer.span).mono ?_
      rintro _ ds ⟨o, rfl, how⟩
      exact .claimRetained how
  | claimFresh min desired =>
      refine ((claimFresh_endsBy r min desired).map Answer.span).mono ?_
      rintro _ ds ⟨o, rfl, how⟩
      exact .claimFresh how
  | claimLocked min desired =>
      refine ((claimLocked_endsBy r min desired).map Answer.span).mono ?_
      rintro _ ds ⟨o, rfl, how | ⟨before, after, rfl, none, how⟩⟩
      · exact .claimLocked how
      · exact .claimLocked_fresh none how
  | claimForced words =>
      refine ((claimForced_endsBy r words).map Answer.address).mono ?_
      rintro _ ds ⟨o, rfl, how⟩
      exact .claimForced how
  | install words =>
      refine ((install_endsBy r words).map Answer.address).mono ?_
      rintro _ ds ⟨o, rfl, how⟩
      exact .install how
  | adopt place =>
      obtain ⟨slot, found⟩ := named place rfl
      refine ((adopt_endsBy r.able found).map fun _ => Answer.nothing).mono ?_
      rintro _ ds ⟨o, rfl, how⟩
      exact .adopt how
  | held =>
      exact ⟨_, s, [], (Ends.held s).map Answer.place, .nil s, .held _⟩
  | summary =>
      exact ⟨_, s, [], (summary_ends s).map Answer.summary, .nil s, .summary _⟩

/-- The same of every call, whatever it reports. -/
theorem answer_leads (r : a.Ready others s) (c : Call)
    (named : ∀ place, c.place? = some place → ∃ slot, s.heap.find place = .ok slot) :
    ∃ o s' ds, (a.answer c).Leads s o s' ∧ a.Deeds ds s s' ∧ Course a c o ds := by
  by_cases quiet : c = .release → a.kind ≠ .mutator
  · obtain ⟨o, s', ds, ends, deeds, how⟩ := answer_endsBy r c named quiet
    exact ⟨o, s', ds, ends.leads, deeds, how⟩
  · obtain ⟨rfl, kind⟩ : c = .release ∧ a.kind = .mutator :=
      ⟨Classical.byContradiction fun ne => quiet fun eq => absurd eq ne,
        Classical.byContradiction fun ne => quiet fun _ => ne⟩
    have releases : a.release = a.releaseRetaining := by
      simp only [Arena.release, kind]
    have counts : a.counts = true := by
      simp [Arena.counts, kind]
    by_cases idle : s.registers.active = none
    · have fails : a.release.Ends s (.error (.notStarted a.name)) s := by
        rw [releases]
        exact releaseRetaining_fails r.able kind idle
      exact ⟨_, s, [], (fails.map Answer.place).leads, .nil s, .release (.fault _)⟩
    · obtain ⟨s', waste, ds, es, leads, deeds, how, dropped, -⟩ :=
        releaseRetaining_leads r.able kind idle
      rw [← releases] at leads
      exact ⟨_, s', _, leads.map Answer.place, deeds,
        .release (.released _ (counts ▸ how) dropped)⟩

end Arena

end RegionHeap
