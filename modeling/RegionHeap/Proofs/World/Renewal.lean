import RegionHeap.Proofs.World.Agreement
import RegionHeap.Proofs.World.Tenure

/-!
# Tenancies

A tenancy of an arena lasts from its start to its release. The release gives up both what the
arena allocates from and what it has put aside, and then every region installed during the
tenancy has been handed back once. Nothing of the tenancy is left in the registers after the
next start, so that nobody can tell the arena from a new one.
-/

namespace RegionHeap

/-- An arena with true registers that holds nothing starts with the registers of a new one. -/
theorem Arena.RegistersTrue.start_anew {a : Arena} {s : Store} (regs : a.RegistersTrue s)
    (notes : s.registers.NotesActiveOnly) (idle : s.registers.active = none)
    (nothing : s.registers.retained = none) :
    ∃ s', a.start.Ends s (.ok ()) s' ∧ s'.heap = s.heap ∧
      s'.registers = { active := some .sentinel } := by
  obtain ⟨_, s', ds, ends, deeds, how⟩ := a.start_succeedsBy idle nothing
  cases how
  cases deeds with
  | cons first rest =>
      cases rest
      have begins := first.begins regs
      have baseline : s.registers.baseline = 0 := notes (by simp [idle])
      have wasted : (if (a.kind = .mutator : Bool) then 0 else s.registers.wasted) = 0 := by
        by_cases kind : a.kind = .mutator
        · simp [kind]
        · simp [kind, regs.wasteless kind]
      refine ⟨s', ends, begins.heap, ?_⟩
      simp only [begins.registers, nothing, baseline, wasted]

namespace World

variable {w : World} {k : Nat} {c : Call} {site : Site} {actions : List Action}

/-- The world with a new arena at a position. -/
def withNew (w : World) (k : Nat) (a : Arena) : World :=
  { w with sites := w.sites.set k { arena := a } }

section
variable (here : w.sites[k]? = some site) (quiet : w.diagnostics.logLevel.keepsDebug = false)
include here quiet

/-- While the log keeps no totals, a call brings what its program brings. -/
theorem call_of_leads (unnamed : c.place? = none) {o : Except Fault Answer} {s : Store}
    (leads : (site.arena.answer c).Leads (w.store site) o s) :
    ∃ diagnostics, w.call k c = (o, { w with
      heap := s.heap
      sites := w.sites.set k { site with registers := s.registers }
      diagnostics }) := by
  obtain ⟨said, run⟩ := leads []
  have run : (site.arena.answer c).run (w.store site) = (o, { s with transcript := said }) := run
  refine ⟨(w.diagnostics.noteAll said).2, ?_⟩
  rw [call_run (siteFor_eq_ok here unnamed) quiet, run]

/-- An arena that was started answers its release, and holds nothing any more. -/
theorem call_release (able : site.arena.Able (w.store site))
    (busy : site.registers.active ≠ none) :
    (w.call k .release).1 = .ok (.place site.registers.held) ∧
      ∃ registers, (w.call k .release).2.sites[k]? = some { site with registers } ∧
        registers.active = none ∧ registers.retained = none := by
  obtain ⟨s, leads, active, retained⟩ := Arena.release_leads able busy
  have answers : (site.arena.answer .release).Leads (w.store site)
      (.ok (.place site.registers.held)) s := leads.map Answer.place
  obtain ⟨diagnostics, eq⟩ := call_of_leads here quiet rfl answers
  rw [eq]
  have there : k < w.sites.length := (List.getElem?_eq_some_iff.1 here).1
  exact ⟨rfl, s.registers, List.getElem?_set_self there, active, retained⟩

/-- An arena that holds nothing starts with the registers of a new one. -/
theorem call_start (regs : site.arena.RegistersTrue (w.store site))
    (notes : site.registers.NotesActiveOnly) (idle : site.registers.active = none)
    (nothing : site.registers.retained = none) :
    ∃ diagnostics, w.call k .start = (.ok .nothing, { w with
      sites := w.sites.set k { site with registers := { active := some .sentinel } }
      diagnostics }) := by
  obtain ⟨s, ends, heap, registers⟩ := regs.start_anew notes idle nothing
  have answers : (site.arena.answer .start).Ends (w.store site) (.ok .nothing) s :=
    ends.map fun _ => Answer.nothing
  obtain ⟨diagnostics, eq⟩ := call_of_leads here quiet rfl answers.leads
  rw [heap, registers] at eq
  exact ⟨diagnostics, eq⟩

end

/-- An arena that starts holds nothing but the sentinel then, if it is started in its own
way. -/
theorem RegistersTrue.begins_empty (regs : w.RegistersTrue) {action : Action} {site' : Site}
    (here : w.sites[k]? = some site)
    (leaves : Happening.Leaves { before := w, action } k site site')
    (inKind : site.arena.kind = .mutator → action ≠ .call k .startPlain)
    (starts : Happening.starts { before := w, action } k = true) :
    site'.registers.regions = [] := by
  obtain ⟨c, rfl, start, active, kept, anew⟩ := leaves.begins starts
  have none : site.registers.retained = none := by
    by_cases kind : site.arena.kind = .mutator
    · cases c with
      | start => exact anew (by rw [kind]; rfl)
      | startPlain => exact absurd rfl (inKind kind)
      | _ => cases start
    · have agree := (regs.sites (List.mem_of_getElem? here)).agree
      exact Classical.byContradiction fun kept => kind (agree.keeper kept)
  simp [Registers.regions, active, kept, none]

/-- Every region that the arena at a position has installed since it started was handed back
once, or is held, if it was started in its own way only. -/
def Matched (w : World) (k : Nat) (actions : List Action) (site : Site) : Prop :=
  (site.arena.kind = .mutator → .call k .startPlain ∉ actions) →
    (w.sinceStart k (fun h => h.installs k) actions).Perm
      (w.sinceStart k (fun h => h.handBacks k) actions ++ site.registers.regions)

open scoped List in
theorem RegistersTrue.matched (regs : w.RegistersTrue) (new : ∀ site ∈ w.sites, site.registers = {})
    (spares : ∀ h ∈ w.history actions, h.action.SparesHeld h.before)
    (here : (w.after actions).sites[k]? = some site) : w.Matched k actions site := by
  refine regs.tenure_induction (P := w.Matched k) (fun first _ => ?_) ?_ spares here
  · rw [new _ (List.mem_of_getElem? first)]
    exact .refl _
  · intro actions action old site stands there leaves before inKind
    rw [leaves.arena] at inKind
    have held := before fun kind mem => inKind kind (List.mem_append_left _ mem)
    rw [sinceStart_concat, sinceStart_concat]
    by_cases starts : Happening.starts { before := w.after actions, action } k = true
    · have empty := stands.begins_empty there leaves
        (fun kind eq => inKind kind (List.mem_append_right _ (eq ▸ List.mem_cons_self))) starts
      rw [if_pos starts, if_pos starts, empty]
      exact .refl _
    · rw [if_neg starts, if_neg starts]
      let latest : Happening := { before := w.after actions, action }
      let installed := w.sinceStart k (fun h => h.installs k) actions
      let returned := w.sinceStart k (fun h => h.handBacks k) actions
      calc installed ++ latest.installs k
        _ ~ returned ++ old.registers.regions ++ latest.installs k := held.append_right _
        _ ~ returned ++ (latest.installs k ++ old.registers.regions) := by
          rw [List.append_assoc]
          exact List.perm_append_comm.append_left _
        _ ~ returned ++ (latest.handBacks k ++ site.registers.regions) :=
          leaves.matched.append_left _
        _ = returned ++ latest.handBacks k ++ site.registers.regions :=
          (List.append_assoc ..).symm

/-- The arena at a position starts, and cannot be told from a new arena that starts in its
place. -/
structure StartsAnew (w : World) (k : Nat) (a : Arena) : Prop where
  start : (w.call k .start).1 = .ok .nothing
  new : ((w.withNew k a).call k .start).1 = .ok .nothing
  registers : (w.call k .start).2.sites[k]? =
    some { arena := a, registers := { active := some .sentinel } }
  agree : (w.call k .start).2.Agree ((w.withNew k a).call k .start).2

/-- An arena that holds nothing and has nothing noted starts anew. -/
theorem RegistersTrue.startsAnew (regs : w.RegistersTrue) (notes : w.NotesActiveOnly)
    (quiet : w.diagnostics.logLevel.keepsDebug = false) (here : w.sites[k]? = some site)
    (idle : site.registers.active = none)
    (nothing : site.registers.retained = none) : w.StartsAnew k site.arena := by
  have stands := regs.sites (List.mem_of_getElem? here)
  have there : k < w.sites.length := (List.getElem?_eq_some_iff.1 here).1
  have hereNew : (w.withNew k site.arena).sites[k]? = some { arena := site.arena } :=
    List.getElem?_set_self there
  have standsNew :
      site.arena.RegistersTrue ((w.withNew k site.arena).store { arena := site.arena }) :=
    .new stands.suits stands.allPlaced
  have noted := notes (List.mem_of_getElem? here)
  obtain ⟨heard, eq⟩ := call_start here quiet stands noted idle nothing
  obtain ⟨heardNew, eqNew⟩ := call_start hereNew quiet standsNew (fun _ => rfl) rfl rfl
  have level : (w.call k .start).2.diagnostics.logLevel = w.diagnostics.logLevel :=
    w.perform_logLevel (.call k .start)
  have levelNew : ((w.withNew k site.arena).call k .start).2.diagnostics.logLevel =
      w.diagnostics.logLevel := (w.withNew k site.arena).perform_logLevel (.call k .start)
  refine ⟨congrArg Prod.fst eq, congrArg Prod.fst eqNew, ?_, ⟨?_, ?_, ?_⟩⟩
  · rw [eq]
    exact List.getElem?_set_self there
  · rw [eq, eqNew]
    refine ⟨rfl, rfl, ?_⟩
    simp only [withNew, List.set_set]
  · rw [level]
    exact quiet
  · rw [levelNew]
    exact quiet

/-- Whatever happened to a world whose regions are not reset while they are held, and whose
sentinel, if some of it was handed out before, is not adopted while a collection holds it: an
arena that was started answers its release with the region that was active, and holds nothing any
more. Each region that it has installed since its start was handed back once. It starts anew
then, and whatever is done later comes to the same as with a new arena in its place. -/
theorem renewal {w : World} (opened : w.Opened)
    (quiet : w.diagnostics.logLevel.keepsDebug = false) (actions : List Action)
    (spares : ∀ h ∈ w.history actions, h.action.SparesHeld h.before)
    (clear : ∀ h ∈ w.history actions, ¬ h.action.AdoptsUsedSentinel h.before)
    {k : Nat} {site : Site} (here : (w.after actions).sites[k]? = some site)
    (busy : site.registers.active ≠ none)
    (inKind : site.arena.kind = .mutator → .call k .startPlain ∉ actions) :
    let now := w.after actions
    let released := (now.call k .release).2
    (now.call k .release).1 = .ok (.place site.registers.held) ∧
      (∃ registers, released.sites[k]? = some { site with registers } ∧
        registers.active = none ∧ registers.retained = none) ∧
      (w.sinceStart k (fun h => h.installs k) (actions ++ [.call k .release])).Perm
        (w.sinceStart k (fun h => h.handBacks k) (actions ++ [.call k .release])) ∧
      released.StartsAnew k site.arena ∧
      ∀ later, List.Forall₂ Happening.Same ((released.call k .start).2.history later)
        (((released.withNew k site.arena).call k .start).2.history later) := by
  intro now released
  have start := opened.registersTrue
  have spared : ∀ h ∈ w.history (actions ++ [.call k .release]), h.action.SparesHeld h.before := by
    rw [history_concat]
    intro h mem
    rcases List.mem_append.1 mem with old | new
    · exact spares h old
    · rw [List.mem_singleton.1 new]
      trivial
  have cleared : ∀ h ∈ w.history (actions ++ [.call k .release]),
      ¬ h.action.AdoptsUsedSentinel h.before := by
    rw [history_concat]
    intro h mem
    rcases List.mem_append.1 mem with old | new
    · exact clear h old
    · rw [List.mem_singleton.1 new]
      exact id
  have last : w.after (actions ++ [.call k .release]) = released := by
    rw [after_concat]
    rfl
  have silent : now.diagnostics.logLevel.keepsDebug = false := by
    rw [w.after_logLevel actions]
    exact quiet
  have silent' : released.diagnostics.logLevel.keepsDebug = false := by
    rw [← last, w.after_logLevel]
    exact quiet
  have regs : now.RegistersTrue := (start.after spares).1
  have regs' : released.RegistersTrue := last ▸ (start.after spared).1
  have notes : released.NotesActiveOnly := last ▸ start.after_notes spared opened.notes cleared
  obtain ⟨answered, registers, left, idle, nothing⟩ :=
    call_release here silent (regs.sites (List.mem_of_getElem? here)).toAble busy
  have anew := regs'.startsAnew notes silent' left idle nothing
  refine ⟨answered, ⟨registers, left, idle, nothing⟩, ?_, anew,
    fun later => anew.agree.history_same later⟩
  change released.sites[k]? = _ at left
  rw [← last] at left
  have matched := start.matched (fun _ mem => opened.registers mem) spared left
    (by simpa using inKind)
  have none : registers.regions = [] := by simp [Registers.regions, idle, nothing]
  simpa [none] using matched

/-- An arena keeps a region while it allocates from another one. Both are handed back by its
release. -/
theorem renewal_small :
    let actions : List Action := [.call 1 .start, .call 0 .start, .call 0 (.claimLocked 5 5),
      .call 1 (.claimForced 3), .call 0 (.claimLocked 5 5), .call 0 (.claimRetained 1 2)]
    let site : Site := { arena := .mutator 0 .small, registers :=
      { active := some (.table 2), count := 2, retained := some (.table 0) } }
    let now := small.after actions
    let released := (now.call 0 .release).2
    now.sites[0]? = some site ∧
      (now.call 0 .release).1 = .ok (.place (some (.table 2))) ∧
      [0, 2].Perm (small.sinceStart 0 (fun h => h.handBacks 0) (actions ++ [.call 0 .release])) ∧
      released.StartsAnew 0 site.arena := by
  intro actions site now released
  have here : now.sites[0]? = some site := by decide +kernel
  have installed : small.sinceStart 0 (fun h => h.installs 0)
      (actions ++ [.call 0 .release]) = [0, 2] := by decide +kernel
  obtain ⟨answered, -, matched, anew, -⟩ := renewal small_opened rfl actions
    (by decide +kernel) (by decide +kernel) here (by simp [site]) (by decide +kernel)
  rw [installed] at matched
  exact ⟨here, answered, matched, anew⟩

end World

end RegionHeap
