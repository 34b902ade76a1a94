import RegionHeap.Proofs.Arena.Entries
import RegionHeap.Proofs.Arena.Report
import RegionHeap.Proofs.Race.Keeping
import RegionHeap.Proofs.World.Indifference

/-!
# What is said during an action

A call and a race leave the diagnostics behind as they are once they have taken note of what
was said meanwhile. That is a list of events; only a release may add the totals of its
tenancy, as the last thing.
-/

namespace RegionHeap

namespace Diagnostics

variable {d : Diagnostics} {detail : Detail} {events : List Event}

/-- Events are taken note of one after the other. -/
theorem noteAll_append (d : Diagnostics) (said : List Event) (rest : List Entry) :
    d.noteAll (said.map Entry.event ++ rest) = (said.foldl hear d).noteAll rest := by
  induction said generalizing d with
  | nil => rfl
  | cons e said ih => exact ih (d.hear e)

/-- A recorder keeps what it hears, in order, and stays a recorder. -/
theorem hear_recorder (listens : d.listener = .recorder detail events) (said : List Event) :
    (said.foldl hear d).listener =
      .recorder detail (events ++ said.filterMap fun e => e.atDetail detail) := by
  induction said generalizing d events with
  | nil => simp [listens]
  | cons e said ih =>
      have first : (d.hear e).listener =
          .recorder detail (events ++ (e.atDetail detail).toList) := by
        unfold hear Diagnostics.detail
        rw [listens]
        cases e.atDetail detail with
        | none => simp [listens]
        | some kept => simp [deliver, listens]
      rw [List.foldl_cons, ih first, List.filterMap_cons]
      cases e.atDetail detail <;> simp

/-- Totals do not change who listens, whether or not they are a fault. -/
theorem noteAll_summary_listener (d : Diagnostics) (regions bytes regionBytes : Nat) :
    (d.noteAll [.summary regions bytes regionBytes]).2.listener = d.listener := by
  simp only [noteAll, note]
  cases d.logLevel.keepsDebug with
  | false => rfl
  | true =>
      cases Summary.new regions bytes regionBytes with
      | error fault => rfl
      | ok summary => rfl

end Diagnostics

/-- The entries are these events, and possibly the totals of a tenancy at the end. -/
inductive Entry.Tells (said : List Event) : List Entry → Prop
  | events : Tells said (said.map Entry.event)
  | totals (regions bytes regionBytes : Nat) :
      Tells said (said.map Entry.event ++ [.summary regions bytes regionBytes])

namespace Entry.Tells

variable {said : List Event} {entries : List Entry}

theorem mem (h : Tells said entries) {e : Event} (spoken : e ∈ said) : .event e ∈ entries := by
  cases h with
  | events => exact List.mem_map_of_mem spoken
  | totals => exact List.mem_append_left _ (List.mem_map_of_mem spoken)

theorem heardAt (h : Tells said entries) (detail : Detail) :
    Diagnostics.heardAt detail entries = said.filterMap fun e => e.atDetail detail := by
  cases h with
  | events => simp [Diagnostics.heardAt, List.filterMap_map, event?]
  | totals => simp [Diagnostics.heardAt, List.filterMap_map, event?]

/-- What a recorder keeps of the entries are its share of the events. -/
theorem recorder (h : Tells said entries) {d : Diagnostics} {detail : Detail} {events : List Event}
    (listens : d.listener = .recorder detail events) :
    (d.noteAll entries).2.listener =
      .recorder detail (events ++ said.filterMap fun e => e.atDetail detail) := by
  cases h with
  | events =>
      have noted := d.noteAll_append said []
      rw [List.append_nil] at noted
      rw [noted]
      exact Diagnostics.hear_recorder listens said
  | totals =>
      rw [d.noteAll_append said, Diagnostics.noteAll_summary_listener]
      exact Diagnostics.hear_recorder listens said

end Entry.Tells

namespace Arena

/-- What is said on a call, and that its sizes are such as the moments call for. -/
theorem answer_tells (a : Arena) (c : Call) (s : Store) (silent : s.transcript = []) :
    ∃ said : List Event, Entry.Tells said ((a.answer c).run s).2.transcript ∧
      ∀ e ∈ said, e.Fits := by
  have reportsFit : ∀ e, Entry.event e ∈ ((a.answer c).run s).2.transcript → e.Fits := by
    refine (a.reportsFit_answer c).run_invariant
      (fun t => ∀ e, Entry.event e ∈ t.transcript → e.Fits)
      (fun st s s' answer reportsFit before performed => reportsFit.said performed before) ?_
    simp [silent]
  obtain ⟨said, events | ⟨-, -, -, bytes, totals⟩⟩ := a.answer_said c s
  · rw [silent, List.nil_append] at events
    have tells : Entry.Tells said ((a.answer c).run s).2.transcript := events ▸ .events
    exact ⟨said, tells, fun e mem => reportsFit e (tells.mem mem)⟩
  · rw [silent, List.nil_append] at totals
    have tells : Entry.Tells said ((a.answer c).run s).2.transcript := totals ▸ .totals ..
    exact ⟨said, tells, fun e mem => reportsFit e (tells.mem mem)⟩

end Arena

namespace Race

/-- What threads say while they share an arena. -/
theorem drain_tells (a : Arena) (s : Store) (silent : s.transcript = []) (threads words : Nat) :
    ∃ said : List Event,
      ((Shared.new a s threads).drain words).store.transcript = said.map Entry.event ∧
        ∀ e ∈ said, e.Fits := by
  have keeping : Keeping a (fun st => st.EventsOnly ∧ st.ReportsFit) fun t => ∃ said : List Event,
      t.transcript = said.map Entry.event ∧ ∀ e ∈ said, e.Fits := by
    refine ⟨fun wish => ?_, fun wish => ?_, ?_, fun holds accessed => ?_⟩
    · refine .and (.bind (a.eventsOnly_claim ..) fun span => ?_)
        (.bind (a.reportsFit_claim ..) fun span => ?_)
      · cases span with
        | some span => exact .pure _
        | none =>
            dsimp only
            split
            · exact a.eventsOnly_claimRetained ..
            · exact .pure _
      · cases span with
        | some span => exact .pure _
        | none =>
            dsimp only
            split
            · exact a.reportsFit_claimRetained ..
            · exact .pure _
    · exact .and (a.eventsOnly_claimLocked ..) (a.reportsFit_claimLocked ..)
    · rintro st s s' answer ⟨eventsOnly, reportsFit⟩ ⟨said, before, fits⟩ performed
      obtain ⟨more, after⟩ := eventsOnly.said performed
      have all : s'.transcript = (said ++ more).map Entry.event := by
        rw [after, before, List.map_append]
      refine ⟨said ++ more, all, fun e mem => ?_⟩
      refine reportsFit.said performed (fun e mem => ?_) e (all ▸ List.mem_map_of_mem mem)
      rw [before] at mem
      obtain ⟨_, old, eq⟩ := List.mem_map.1 mem
      cases eq
      exact fits e old
    · rw [Flight.access_keeps accessed]
      exact holds
  exact Shared.drain_keeps keeping ⟨[], by simp [silent], by simp⟩ threads words

end Race

namespace World

variable {w w' : World} {k : Nat} {c : Call} {site : Site}

/-- What a call leaves behind: the heap and the registers of its arena as its program leaves
them, and diagnostics that have taken note of what was said. -/
theorem call_leaves (reached : w.siteFor k c = .ok site) :
    (w.call k c).2 =
      { w with
        heap := ((site.arena.answer c).run (w.store site)).2.heap
        sites := w.sites.set k
          { site with registers := ((site.arena.answer c).run (w.store site)).2.registers }
        diagnostics := (w.diagnostics.noteAll
          ((site.arena.answer c).run (w.store site)).2.transcript).2 } := by
  simp only [World.call, reached, absorb]
  generalize (site.arena.answer c).run (w.store site) = run
  cases noted : w.diagnostics.noteAll run.2.transcript with
  | mk fault diagnostics => cases fault <;> rfl

/-- A recorder goes on with what was said during a call. -/
theorem call_recorder (reached : w.siteFor k c = .ok site) {detail : Detail} {events : List Event}
    (listens : w.diagnostics.listener = .recorder detail events) :
    (w.call k c).2.diagnostics.listener =
      .recorder detail (events ++ Diagnostics.heardAt detail
        ((site.arena.answer c).run (w.store site)).2.transcript) := by
  obtain ⟨said, tells, -⟩ := site.arena.answer_tells c (w.store site) rfl
  rw [call_leaves reached, tells.heardAt]
  exact tells.recorder listens

/-- What is neither a call nor a race, and does not concern who listens, is not heard of. -/
theorem perform_apart {action : Action} (single : action.single = true)
    (other : ∀ k c, action ≠ .call k c) (reads : ∀ max, action ≠ .read max)
    (stays : action ≠ .hangUp) (keeps : action ≠ .clearRecord) :
    (w.perform action).2.diagnostics = w.diagnostics := by
  cases action with
  | call k c => exact absurd rfl (other k c)
  | drain i threads words => cases single
  | read max => exact absurd rfl (reads max)
  | hangUp => exact absurd rfl stays
  | clearRecord => exact absurd rfl keeps
  | recycle | takeBack | takeBackFrom | addRival =>
      simp only [World.perform, onSupply]
      split <;> rfl
  | onRegion i command =>
      simp only [World.perform, World.onRegion]
      split <;> rfl
  | exhaust | request | onTallies | isSentinel => rfl

/-- What is neither a call nor a race is not heard. -/
theorem silent_recorder {action : Action} (single : action.single = true)
    (other : ∀ k c, action ≠ .call k c) (keeps : action ≠ .clearRecord) {detail : Detail}
    {events : List Event} (listens : w.diagnostics.listener = .recorder detail events) :
    (w.perform action).2.diagnostics.listener = .recorder detail events := by
  cases action with
  | read max => simp [World.perform, World.read, Diagnostics.channel?, listens]
  | hangUp => simp [World.perform, Diagnostics.mapChannel, listens]
  | clearRecord => exact absurd rfl keeps
  | _ =>
      rw [perform_apart single other (by simp) (by simp) (by simp)]
      exact listens

/-- What a race leaves behind. -/
theorem drain_leaves (reached : w.site k = .ok site) (threads words : Nat) :
    (w.drain k threads words).2 =
      (w.absorb k site
        ((Race.Shared.new site.arena (w.store site) threads).drain words).store).2 := by
  simp only [World.drain, reached]
  generalize (Race.Shared.new site.arena (w.store site) threads).drain words = race
  cases absorbed : w.absorb k site race.store with
  | mk fault after =>
      cases fault with
      | some fault => rfl
      | none => cases race.fault? <;> rfl

end World

end RegionHeap
