import RegionHeap.Proofs.Arena.Exchange
import RegionHeap.Proofs.Region.Work
import RegionHeap.Proofs.World.Opened
import RegionHeap.Proofs.World.Said

/-!
# Worlds with true registers

As long as nobody resets a region that an arena holds, the registers of every arena are true, in
whatever order calls of all kinds come, and whichever of them are faults. The arenas of
collections note bytes of an active region only, as long as they do not hold a sentinel that is
in use when they are asked to adopt it.
-/

namespace RegionHeap

/-- The action is done by one thread and resets no region that an arena holds. -/
def Action.SparesHeld (w : World) : Action → Prop
  | .recycle i => i ∉ w.held
  | .onRegion i c => c = .reset → i ∉ w.held
  | .drain .. => False
  | .call .. | .exhaust | .request .. | .takeBack .. | .takeBackFrom .. | .addRival ..
  | .onTallies _ | .isSentinel _ | .read _ | .hangUp | .clearRecord => True

instance (w : World) : DecidablePred (Action.SparesHeld w)
  | .recycle i => inferInstanceAs (Decidable (i ∉ w.held))
  | .onRegion i c => inferInstanceAs (Decidable (c = .reset → i ∉ w.held))
  | .drain .. => .isFalse id
  | .call .. | .exhaust | .request .. | .takeBack .. | .takeBackFrom .. | .addRival ..
  | .onTallies _ | .isSentinel _ | .read _ | .hangUp | .clearRecord => .isTrue trivial

/-- A collection's arena that holds the sentinel is asked to adopt it, although some of it was
handed out before the heap was set up. -/
def Action.AdoptsUsedSentinel (w : World) : Action → Prop
  | .call k (.adopt .sentinel) => w.heap.sentinel.load ≠ 0 ∧ ∃ site ∈ w.sites[k]?,
      site.arena.purpose ≠ none ∧ site.registers.active = some .sentinel
  | _ => False

instance (w : World) (action : Action) : Decidable (action.AdoptsUsedSentinel w) := by
  unfold Action.AdoptsUsedSentinel
  split <;> infer_instance

namespace World

/-- Every region is in its place, and the registers of every arena are true. -/
structure RegistersTrue (w : World) : Prop where
  allPlaced : w.heap.AllPlaced
  sites : ∀ {site : Site}, site ∈ w.sites → site.arena.RegistersTrue (w.store site)

/-- A call that has reached its arena, with what the arena was granted and what it leaves. -/
structure Exchanged (w : World) (k : Nat) (c : Call) (site : Site) (granted : List Nat)
    (o : Except Fault Answer) (s : Store) : Prop where
  reached : w.siteFor k c = .ok site
  exchange : site.arena.Exchange c (w.store site) granted o s
  run : ∃ said, (site.arena.answer c).run (w.store site) = (o, { s with transcript := said })

variable {w : World} {k : Nat} {c : Call} {site : Site} {granted : List Nat}
  {o : Except Fault Answer} {s : Store}

namespace Exchanged

theorem here (ex : w.Exchanged k c site granted o s) : w.sites[k]? = some site :=
  (siteFor_ok ex.reached).1

theorem heap (ex : w.Exchanged k c site granted o s) : (w.call k c).2.heap = s.heap := by
  obtain ⟨said, run⟩ := ex.run
  exact (call_eq ex.reached run).1

theorem sites (ex : w.Exchanged k c site granted o s) :
    (w.call k c).2.sites = w.sites.set k { site with registers := s.registers } := by
  obtain ⟨said, run⟩ := ex.run
  exact (call_eq ex.reached run).2.1

theorem here_after (ex : w.Exchanged k c site granted o s) :
    (w.call k c).2.sites[k]? = some { site with registers := s.registers } := by
  rw [ex.sites]
  exact List.getElem?_set_self (List.getElem?_eq_some_iff.1 ex.here).1

theorem sites_of_ne (ex : w.Exchanged k c site granted o s) {j : Nat} (ne : j ≠ k) :
    (w.call k c).2.sites[j]? = w.sites[j]? := by
  rw [ex.sites, List.getElem?_set_ne (Ne.symm ne)]

/-- What the call brings is what its program brings, unless totals are no words. -/
theorem outcome (ex : w.Exchanged k c site granted o s) :
    (w.call k c).1 = o ∨
      ∃ v, o = .ok v ∧ c = .release ∧ (w.call k c).1 = .error .productOverflow := by
  obtain ⟨said, run⟩ := ex.run
  have brings := call_outcome ex.reached
  obtain ⟨events, spoken | ⟨rfl, -, ⟨v, answered⟩, bytes, totals⟩⟩ :=
    site.arena.answer_said c (w.store site)
  · have spoken : ((site.arena.answer c).run (w.store site)).2.transcript =
        events.map Entry.event := spoken
    rw [spoken, Diagnostics.noteAll_events, run] at brings
    exact .inl brings
  · have totals : ((site.arena.answer .release).run (w.store site)).2.transcript =
        events.map Entry.event ++ [.summary site.registers.count bytes
          site.arena.settings.regionBytes] := totals
    rw [totals, Diagnostics.noteAll_totals, run] at brings
    rw [run] at answered
    split at brings
    · rename_i fault eq
      split at eq
      · cases eq
        exact .inr ⟨v, answered, rfl, brings⟩
      · cases eq
    · exact .inl brings

end Exchanged

/-- A call does not reach its arena, or comes to an exchange. -/
theorem RegistersTrue.call_cases (regs : w.RegistersTrue) (k : Nat) (c : Call) :
    (∃ fault, w.call k c = (.error fault, w)) ∨
      ∃ site granted o s, w.Exchanged k c site granted o s := by
  cases reached : w.siteFor k c with
  | error fault => exact .inl ⟨fault, by simp [World.call, reached]⟩
  | ok site =>
      obtain ⟨here, named⟩ := siteFor_ok reached
      obtain ⟨granted, o, s, leads, exchange⟩ :=
        Arena.answer_exchange (regs.sites (List.mem_of_getElem? here)) c named
      obtain ⟨said, run⟩ := leads []
      exact .inr ⟨site, granted, o, s, reached, exchange, said, run⟩

/-- An action that is no call does not matter to those who hold regions, if it spares them. -/
theorem spares_of_not_call (allPlaced : w.heap.AllPlaced) {action : Action}
    (spares : action.SparesHeld w)
    (other : ∀ k c, action ≠ .call k c) :
    w.heap.Spares w.held (w.perform action).2.heap ∧ (w.perform action).2.sites = w.sites := by
  have onSupply {f : Supply → Except Fault Supply} (keeps : ∀ supply, f w.heap.supply = .ok supply →
      w.heap.Spares w.held { w.heap with supply }) :
      w.heap.Spares w.held (w.onSupply f).2.heap ∧ (w.onSupply f).2.sites = w.sites := by
    unfold World.onSupply
    cases done : f w.heap.supply with
    | ok supply => exact ⟨keeps supply done, rfl⟩
    | error fault => exact ⟨.congr allPlaced rfl rfl rfl, rfl⟩
  cases action with
  | call k c => exact absurd rfl (other k c)
  | drain => exact spares.elim
  | exhaust =>
      refine onSupply fun supply done => ?_
      cases done
      exact .congr allPlaced rfl rfl rfl
  | recycle i =>
      refine onSupply fun supply done => ?_
      obtain ⟨slot, found, done⟩ := Except.bind_eq_ok done
      cases done
      have here := Supply.slot_eq_ok_iff.1 found
      exact .set allPlaced here rfl rfl rfl (allPlaced.placed here).reset
        fun held => absurd held spares
  | addRival i words =>
      refine onSupply fun supply done => ?_
      obtain ⟨slot, found, done⟩ := Except.bind_eq_ok done
      cases done
      have here := Supply.slot_eq_ok_iff.1 found
      have p := allPlaced.placed here
      exact .set allPlaced here rfl rfl rfl p fun _ => Nat.le_refl _
  | takeBack i bytes =>
      refine onSupply fun supply done => ?_
      obtain ⟨slot, -, done⟩ := Except.bind_eq_ok done
      cases done
      exact .congr allPlaced rfl rfl rfl
  | takeBackFrom purpose i bytes =>
      refine onSupply fun supply done => ?_
      obtain ⟨slot, -, done⟩ := Except.bind_eq_ok done
      cases done
      exact .congr allPlaced rfl rfl rfl
  | onRegion i command =>
      simp only [World.perform, World.onRegion]
      split
      · exact ⟨.congr allPlaced rfl rfl rfl, rfl⟩
      · rename_i slot found
        have here := Supply.slot_eq_ok_iff.1 found
        have p := allPlaced.placed here
        refine ⟨?_, rfl⟩
        by_cases resets : command = .reset
        · subst resets
          exact .set allPlaced here rfl rfl rfl p.reset fun held => absurd held (spares rfl)
        · obtain ⟨placed, more⟩ :=
            (Region.Placed.keptByWork allPlaced.sound i slot.region.load).respond
              ⟨p, Nat.le_refl _⟩ resets
          exact .set allPlaced here rfl rfl rfl placed fun _ => more
  | read max =>
      simp only [World.perform, World.read]
      split
      · exact ⟨.congr allPlaced rfl rfl rfl, rfl⟩
      · exact ⟨.congr allPlaced rfl rfl rfl, rfl⟩
  | request | onTallies | isSentinel | hangUp | clearRecord =>
      exact ⟨.congr allPlaced rfl rfl rfl, rfl⟩

/-- The sentinel and the arenas are as good as before. -/
theorem RegistersTrue.perform (regs : w.RegistersTrue) {action : Action}
    (spares : action.SparesHeld w) :
    (w.perform action).2.RegistersTrue ∧ (w.perform action).2.heap.sentinel = w.heap.sentinel := by
  by_cases isCall : ∃ k c, action = .call k c
  · obtain ⟨k, c, rfl⟩ := isCall
    change (w.call k c).2.RegistersTrue ∧ (w.call k c).2.heap.sentinel = w.heap.sentinel
    rcases regs.call_cases k c with ⟨fault, eq⟩ | ⟨site, granted, o, s, ex⟩
    · rw [eq]
      exact ⟨regs, rfl⟩
    · obtain ⟨stands, worked⟩ :=
        ex.exchange.registersTrue (regs.sites (List.mem_of_getElem? ex.here))
      have sentinel : (w.call k c).2.heap.sentinel = w.heap.sentinel := by
        rw [ex.heap]
        exact worked.sentinel
      refine ⟨⟨?_, ?_⟩, sentinel⟩
      · rw [ex.heap]
        exact worked.allPlaced regs.allPlaced
      · intro other mem
        have still : s.heap.Worked (w.call k c).2.heap := by
          rw [ex.heap]
          exact .refl stands.allPlaced
        rw [← ex.heap] at worked
        rw [ex.sites] at mem
        rcases List.mem_or_eq_of_mem_set mem with old | rfl
        · exact (regs.sites old).moved worked rfl
        · exact stands.moved still rfl
  · have other : ∀ k c, action ≠ .call k c := fun k c eq => isCall ⟨k, c, eq⟩
    obtain ⟨spared, sites⟩ := spares_of_not_call regs.allPlaced spares other
    refine ⟨⟨spared.allPlaced, ?_⟩, spared.sentinel⟩
    intro site mem
    rw [sites] at mem
    refine (regs.sites mem).spared (spared.fewer fun i mine => ?_) rfl
    exact List.mem_flatMap.2 ⟨site, mem, mine⟩

/-- Every arena has noted bytes of an active region only. -/
def NotesActiveOnly (w : World) : Prop :=
  ∀ {site : Site}, site ∈ w.sites → site.registers.NotesActiveOnly

/-- Notes are taken of active regions only, unless a sentinel that is in use is to be adopted. -/
theorem RegistersTrue.perform_notes (regs : w.RegistersTrue) (before : w.NotesActiveOnly)
    {action : Action}
    (spares : action.SparesHeld w) (clear : ¬ action.AdoptsUsedSentinel w) :
    (w.perform action).2.NotesActiveOnly := by
  intro other mem
  by_cases isCall : ∃ k c, action = .call k c
  · obtain ⟨k, c, rfl⟩ := isCall
    change other ∈ (w.call k c).2.sites at mem
    rcases regs.call_cases k c with ⟨fault, eq⟩ | ⟨site, granted, o, s, ex⟩
    · rw [eq] at mem
      exact before mem
    · rw [ex.sites] at mem
      rcases List.mem_or_eq_of_mem_set mem with old | rfl
      · exact before old
      · have mine := List.mem_of_getElem? ex.here
        refine ex.exchange.notes (regs.sites mine) (before mine) ?_
        rintro rfl purpose active
        exact Classical.byContradiction fun used =>
          clear ⟨used, site, ex.here, purpose, active⟩
  · have other : ∀ k c, action ≠ .call k c := fun k c eq => isCall ⟨k, c, eq⟩
    rw [(spares_of_not_call regs.allPlaced spares other).2] at mem
    exact before mem

/-- Worlds are opened with true registers. -/
theorem Opened.registersTrue (opened : w.Opened) : w.RegistersTrue where
  allPlaced := opened.orderly.order.allPlaced
  sites := by
    intro site mem
    unfold store
    rw [opened.registers mem]
    exact .new (opened.suits mem) opened.orderly.order.allPlaced

/-- What happens leaves the registers true and the sentinel as it was. -/
theorem RegistersTrue.happening {h : Happening} (regs : h.before.RegistersTrue) {sentinel : Region}
    (same : h.before.heap.sentinel = sentinel) (spares : h.action.SparesHeld h.before) :
    h.after.RegistersTrue ∧ h.after.heap.sentinel = sentinel := by
  obtain ⟨next, kept⟩ := regs.perform spares
  exact ⟨next, kept.trans same⟩

section
variable (regs : w.RegistersTrue) {actions : List Action}
  (spares : ∀ h ∈ w.history actions, h.action.SparesHeld h.before)
include regs spares

/-- The registers stay true as long as what happens spares the regions that are held. -/
theorem RegistersTrue.after :
    (w.after actions).RegistersTrue ∧ (w.after actions).heap.sentinel = w.heap.sentinel :=
  after_invariant (P := fun later => later.RegistersTrue ∧ later.heap.sentinel = w.heap.sentinel)
    (fun h mem ⟨stands, same⟩ => stands.happening same (spares h mem)) ⟨regs, rfl⟩

/-- A sentinel of which nothing was handed out is never in use when it is to be adopted. -/
theorem RegistersTrue.clear_of_unused (unused : w.heap.sentinel.load = 0) :
    ∀ h ∈ w.history actions, ¬ h.action.AdoptsUsedSentinel h.before := by
  intro h mem
  obtain ⟨-, same⟩ := history_invariant
    (P := fun later => later.RegistersTrue ∧ later.heap.sentinel = w.heap.sentinel)
    (fun h mem ⟨stands, same⟩ => stands.happening same (spares h mem)) ⟨regs, rfl⟩ mem
  unfold Action.AdoptsUsedSentinel
  split
  · rintro ⟨used, -⟩
    rw [same] at used
    exact used unused
  · exact id

/-- The arenas of a world note bytes of active regions only, as long as what happens spares the
regions that are held, and no sentinel that is in use is to be adopted. -/
theorem RegistersTrue.after_notes (before : w.NotesActiveOnly)
    (clear : ∀ h ∈ w.history actions, ¬ h.action.AdoptsUsedSentinel h.before) :
    (w.after actions).NotesActiveOnly :=
  (after_invariant (P := fun later => later.RegistersTrue ∧ later.NotesActiveOnly)
    (fun h mem ⟨stands, notes⟩ => ⟨(stands.perform (spares h mem)).1,
      stands.perform_notes notes (spares h mem) (clear h mem)⟩) ⟨regs, before⟩).2

end

/-- Nothing has been noted in a world that was just opened. -/
theorem Opened.notes (opened : w.Opened) : w.NotesActiveOnly := by
  intro site mem _
  rw [opened.registers mem]

end World

end RegionHeap
