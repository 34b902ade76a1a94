import RegionHeap.Proofs.World.Registers

/-!
# Broken contracts

A call that breaks the contract of its arena finds this out at some point on its way: before or
after events were reported, before or after notes were taken of a region, on the fast path or
below the slow one. Wherever it is found out, nothing has been changed. Whoever listens may have
heard events, and that is all.

There is one exception, for heaps over a sentinel of which something was handed out before they
were set up. An arena of a collection notes the bytes of a region before it turns out that the
region cannot be adopted, and over such a sentinel these notes may differ from those before.
-/

namespace RegionHeap

namespace World

variable {w : World} {k : Nat} {c : Call} {site : Site} {fault : Fault}

/-- What becomes of the arenas on a call that breaks the contract of the one at position `k`. -/
inductive LeftByBreach (w : World) (k : Nat) (c : Call) : Fault → List Site → Prop
  | same (fault : Fault) : LeftByBreach w k c fault w.sites
  /-- Over a sentinel that is in use, a collection has noted the bytes of the sentinel, or of an
  empty region, before it turned out that they cannot be adopted. -/
  | noted {site : Site} {place : Place} {slot : Slot} {bytes : Nat}
      (here : w.sites[k]? = some site) (purpose : site.arena.purpose ≠ none)
      (active : site.registers.active = some .sentinel) (inUse : w.heap.sentinel.load ≠ 0)
      (adopts : c = .adopt place) (found : w.heap.find place = .ok slot)
      (used : slot.region.used = .ok bytes) (empty : place ≠ .sentinel → bytes = 0) :
      LeftByBreach w k c (.emptyPublication site.arena.name)
        (w.sites.set k { site with registers := { site.registers with baseline := bytes } })

theorem set_self (here : w.sites[k]? = some site) : w.sites.set k site = w.sites := by
  obtain ⟨inside, rfl⟩ := List.getElem?_eq_some_iff.1 here
  exact List.set_getElem_self inside

/-- A collection's notes have changed only over a sentinel that is in use. -/
theorem LeftByBreach.of_noted {place : Place} {slot : Slot} {bytes : Nat}
    (here : w.sites[k]? = some site) (notes : w.heap.sentinel.load = 0 → w.NotesActiveOnly)
    (active : site.registers.active = some .sentinel) (adopts : c = .adopt place)
    (found : w.heap.find place = .ok slot) (used : slot.region.used = .ok bytes)
    (empty : place ≠ .sentinel → bytes = 0) :
    w.LeftByBreach k c (.emptyPublication site.arena.name) (w.sites.set k
      { site with registers := (site.arena.noted bytes (w.store site)).registers }) := by
  have still {registers : Registers} (same : registers = site.registers) :
      w.LeftByBreach k c (.emptyPublication site.arena.name)
        (w.sites.set k { site with registers }) := by
    rw [same, set_self here]
    exact .same _
  change w.LeftByBreach k c _ (w.sites.set k { site with registers :=
    { site.registers with baseline := site.arena.noting bytes site.registers.baseline } })
  by_cases none : site.arena.purpose = Option.none
  · rw [Arena.noting_of_no_purpose none]
    exact still rfl
  · rw [Arena.noting_of_purpose none]
    by_cases inUse : w.heap.sentinel.load = 0
    · have before : site.registers.baseline = 0 :=
        notes inUse (List.mem_of_getElem? here) (by simp [active])
      rw [Arena.adopted_bytes_eq_zero found used empty inUse, ← before]
      exact still rfl
    · exact .noted here none active inUse adopts found used empty

/-- A call that breaks a contract leaves the world as it is, apart from what was heard and
what was noted. -/
theorem RegistersTrue.call_breach (regs : w.RegistersTrue)
    (notes : w.heap.sentinel.load = 0 → w.NotesActiveOnly)
    (failed : (w.call k c).1 = .error fault) (breach : fault.isBreach = true) :
    ∃ (said : List Event) (sites : List Site), (w.call k c).2 =
        { w with sites, diagnostics := said.foldl Diagnostics.hear w.diagnostics } ∧
      w.LeftByBreach k c fault sites := by
  rcases regs.call_cases k c with ⟨other, eq⟩ | ⟨site, granted, o, s, ex⟩
  · refine ⟨[], w.sites, ?_, .same fault⟩
    rw [eq]
    rfl
  · rcases ex.outcome with same | ⟨v, rfl, rfl, overflow⟩
    · obtain rfl : o = .error fault := same.symm.trans failed
      have here := ex.here
      have leaves := call_leaves ex.reached
      obtain ⟨said, run⟩ := ex.run
      obtain ⟨events, spoken | ⟨-, -, ⟨v, answered⟩, -⟩⟩ :=
        site.arena.answer_said c (w.store site)
      · have heard := w.diagnostics.noteAll_append events []
        have spoken : ((site.arena.answer c).run (w.store site)).2.transcript =
            events.map Entry.event := spoken
        rw [spoken, run] at leaves
        rw [List.append_nil] at heard
        have left {sites : List Site} (heap : s.heap = w.heap)
            (set : w.sites.set k { site with registers := s.registers } = sites) :
            (w.call k c).2 =
              { w with sites, diagnostics := events.foldl Diagnostics.hear w.diagnostics } := by
          rw [leaves, heard, ← set]
          simp only [heap, Diagnostics.noteAll]
        cases ex.exchange with
        | failed noBreach trades =>
            rw [noBreach] at breach
            cases breach
        | stays e nothing => exact ⟨events, w.sites, left rfl (set_self here), .same fault⟩
        | noted adopts found used active empty =>
            exact ⟨events, _, left rfl rfl,
              .of_noted here notes active adopts found used empty⟩
      · rw [run] at answered
        cases answered
    · rw [overflow] at failed
      cases failed
      cases breach

/-- Whatever happened before, calls that were faults included, a call that breaks the contract of
its arena changes nothing: not what any arena holds or has counted, no region, nothing of the
supply and no tally. It may have been heard of. Only what a collection has noted over a sentinel
that is in use may have changed, on a call that was to adopt this sentinel or an empty region. -/
theorem integrity {w : World} (opened : w.Opened) (actions : List Action)
    (spares : ∀ h ∈ w.history actions, h.action.SparesHeld h.before)
    (k : Nat) (c : Call) (fault : Fault) :
    let now := w.after actions
    (now.call k c).1 = .error fault → fault.isBreach = true →
      ∃ (said : List Event) (sites : List Site), (now.call k c).2 =
          { now with sites, diagnostics := said.foldl Diagnostics.hear now.diagnostics } ∧
        now.LeftByBreach k c fault sites := by
  intro now failed breach
  have regs := opened.registersTrue
  obtain ⟨stands, same⟩ : now.RegistersTrue ∧ now.heap.sentinel = w.heap.sentinel :=
    regs.after spares
  refine stands.call_breach (fun unused => ?_) failed breach
  rw [same] at unused
  exact regs.after_notes spares opened.notes (regs.clear_of_unused spares unused)

/-! ## A sentinel that is in use -/

/-- A region of four words, all of which were handed out. -/
def fourWordsUsed : Region where
  index := RegionIndex.sentinel
  bottom := 256
  top := 288
  limit := 288
  wordBytes := 8
  marker := none
  fillers := []

/-- The arena of a collection on four small regions, over a sentinel that is in use. -/
def smallOverUsed : World :=
  .new { sentinel := fourWordsUsed, settings := .small } .small [.survivor 0 .small] {}

theorem smallOverUsed_opened : smallOverUsed.Opened := by
  have table : Supply.new .small 4 = .ok .small := by decide +kernel
  have setup : Basis.setup (.region fourWordsUsed) .small =
      .ok { sentinel := fourWordsUsed, settings := .small } := by decide +kernel
  exact .new table setup rfl (by simp [Arena.survivor])

/-- A collection that was told to adopt the sentinel has noted its bytes. They are gone when it
is told to adopt an empty region. -/
theorem integrity_over_used :
    let now := smallOverUsed.after [.call 0 .start, .call 0 (.adopt .sentinel)]
    (now.call 0 (.adopt (.table 0))).1 = .error (.emptyPublication "Survivor GC Alloc Region") ∧
      ∃ (said : List Event) (sites : List Site), (now.call 0 (.adopt (.table 0))).2 =
          { now with sites, diagnostics := said.foldl Diagnostics.hear now.diagnostics } ∧
        now.LeftByBreach 0 (.adopt (.table 0)) (.emptyPublication "Survivor GC Alloc Region")
          sites := by
  intro now
  have failed : (now.call 0 (.adopt (.table 0))).1 =
      .error (.emptyPublication "Survivor GC Alloc Region") := by decide +kernel
  exact ⟨failed, integrity smallOverUsed_opened _ (by decide +kernel) 0 _ _ failed rfl⟩

/-- A sentinel of which four words were handed out is accepted. A collection that is told to adopt
it breaks its contract, and has noted the 32 bytes all the same. -/
theorem adopted_sentinel_noted :
    let now := smallOverUsed.after [.call 0 .start]
    let breach : Fault := .emptyPublication "Survivor GC Alloc Region"
    (do let r ← Region.new RegionIndex.sentinel 256 4 8; r.claim 4 4) =
        .ok (some { start := 256, words := 4 }, fourWordsUsed) ∧
      smallOverUsed.Opened ∧
      (∀ h ∈ smallOverUsed.history [.call 0 .start], h.action.SparesHeld h.before) ∧
      (now.call 0 (.adopt .sentinel)).1 = .error breach ∧ breach.isBreach = true ∧
      now.sites.map (fun site => site.registers.baseline) = [0] ∧
      (now.call 0 (.adopt .sentinel)).2.sites.map (fun site => site.registers.baseline) = [32] :=
  ⟨by decide +kernel, smallOverUsed_opened, by decide +kernel, by decide +kernel, rfl,
    by decide +kernel, by decide +kernel⟩

end World

end RegionHeap
