import RegionHeap.Proofs.Arena.Faithful
import RegionHeap.Proofs.World.Said
import RegionHeap.Proofs.World.Each

/-!
# A faithful record

Somebody listens to an arena from the start, at `debug` or `trace`. Then the last event that
was heard of it always tells how many regions the arena has counted and what it holds, and so
do all events together: the publications since it was last started are the count, up to
the width of a counter. It does not matter whether calls were faults, which procedures of
other kinds of arenas were called, or what happened beside the calls.

An arena is told by its position and not by its name, as arenas may share a name.
-/

namespace RegionHeap

/-- Whether the action is a call on the arena at this position. -/
def Action.calls (k : Nat) : Action → Bool
  | .call i _ => i == k
  | _ => false

/-- The world with a new recorder, at a level of detail, in place of whoever listens. -/
def World.recording (detail : Detail) (w : World) : World :=
  { w with diagnostics := { w.diagnostics with listener := .recorder detail [] } }

/-- What a recorder at a level of detail keeps of what happened. -/
def Happening.heard (detail : Detail) (h : Happening) : List Event :=
  ((h.before.recording detail).perform h.action).2.diagnostics.recorded

/-- What was heard of the arena at a position, at a level of detail. -/
def World.heardOf (w : World) (detail : Detail) (k : Nat) (actions : List Action) : List Event :=
  ((w.history actions).filter fun h => h.action.calls k).flatMap (Happening.heard detail)

/-- The events tell truly what an arena with these registers has counted and what it holds. -/
structure Registers.Told (events : List Event) (r : Registers) : Prop where
  /-- The last event is up to date. -/
  last : ∀ e, events.getLast? = some e → e.count = r.count ∧ e.holding.Names r.active
  /-- The regions published since the last start have been counted. -/
  published : Event.publications events % Nat.pow 2 32 = r.count

namespace Happening

variable {detail : Detail} {w : World} {k : Nat} {c : Call}

theorem heard_eq {h : Happening} {events : List Event}
    (listens : ((h.before.recording detail).perform h.action).2.diagnostics.listener =
      .recorder detail events) : h.heard detail = events := by
  unfold heard Diagnostics.recorded
  rw [listens]

theorem heard_call {site : Site} (reached : w.siteFor k c = .ok site) :
    Happening.heard detail { before := w, action := .call k c } =
      Diagnostics.heardAt detail ((site.arena.answer c).run (w.store site)).2.transcript :=
  heard_eq (World.call_recorder (w := w.recording detail) reached rfl)

theorem heard_refused {fault : Fault} (refused : w.siteFor k c = .error fault) :
    Happening.heard detail { before := w, action := .call k c } = [] := by
  have same : (w.recording detail).siteFor k c = .error fault := refused
  apply heard_eq
  simp only [World.perform, World.call, same]
  rfl

theorem heard_silent {action : Action} (single : action.single = true)
    (other : ∀ k c, action ≠ .call k c) :
    Happening.heard detail { before := w, action } = [] := by
  apply heard_eq
  by_cases clears : action = .clearRecord
  · subst clears
    rfl
  · exact World.silent_recorder single other clears rfl

end Happening

namespace World

variable {w w' : World} {detail : Detail} {k : Nat}

theorem heardOf_concat (actions : List Action) (action : Action) :
    w.heardOf detail k (actions ++ [action]) =
      w.heardOf detail k actions ++
        if action.calls k then Happening.heard detail { before := w.after actions, action }
        else [] := by
  unfold heardOf
  rw [history_concat, List.filter_append, List.flatMap_append]
  cases calls : action.calls k <;> simp [calls]

/-- A recorder keeps what is heard of one action after the other. -/
theorem recorded_eq_heard (alike : w.Alike w') {events : List Event}
    (listens : w'.diagnostics.listener = .recorder detail events) {actions : List Action}
    (single : ∀ action ∈ actions, action.single = true) (keeps : .clearRecord ∉ actions) :
    (w'.after actions).diagnostics.recorded =
      events ++ (w.history actions).flatMap (Happening.heard detail) := by
  induction actions generalizing w w' events with
  | nil => simp [Diagnostics.recorded, listens]
  | cons action rest ih =>
      have alone := single action List.mem_cons_self
      have next := (alike.parallel alone).after
      rw [List.mem_cons, not_or] at keeps
      have goesOn : (w'.perform action).2.diagnostics.listener =
          .recorder detail (events ++ Happening.heard detail { before := w, action }) := by
        by_cases isCall : ∃ k c, action = .call k c
        · obtain ⟨k, c, rfl⟩ := isCall
          cases reached : w.siteFor k c with
          | error fault =>
              have refused := alike.siteFor.trans reached
              rw [Happening.heard_refused reached, List.append_nil]
              simp only [World.perform, World.call, refused]
              exact listens
          | ok site =>
              rw [Happening.heard_call reached, ← alike.store]
              exact call_recorder (alike.siteFor.trans reached) listens
        · have other : ∀ k c, action ≠ .call k c := fun k c eq => isCall ⟨k, c, eq⟩
          rw [Happening.heard_silent alone other, List.append_nil]
          exact silent_recorder alone other (Ne.symm keeps.1) listens
      rw [after_cons, history_cons, List.flatMap_cons, ← List.append_assoc]
      exact ih next goesOn (fun a ha => single a (List.mem_cons_of_mem _ ha)) keeps.2

/-- The reports of the arena at a position are faithful, and regions are told by their
positions. -/
structure Faithful (w : World) (detail : Detail) (k : Nat) (events : List Event) : Prop where
  numbered : w.heap.Each w.heap.supply.slots.length Region.Numbered
  site : ∀ site, w.sites[k]? = some site → (w.store site).Faithful detail events

theorem Opened.faithful_at_start (opened : w.Opened) (detail : Detail) (k : Nat) :
    w.Faithful detail k [] := by
  have each := opened.placed_after []
  have word {i : Nat} {r : Region} (p : r.Placed w.heap.supply.geometry i) : r.Numbered i :=
    ⟨⟨Nat.pos_of_ne_zero (p.word_ne opened.fresh.sound), p.bottom_le, p.le_limit, p.inside⟩,
      p.index⟩
  have numbered : w.heap.Each w.heap.supply.slots.length Region.Numbered :=
    ⟨rfl, fun found => word (each.holds found)⟩
  refine ⟨numbered, ?_⟩
  intro site here
  have registers := opened.registers (List.mem_of_getElem? here)
  refine ⟨⟨⟨numbered, ?_⟩, ?_⟩, ?_⟩
  · intro i active
    change site.registers.active = some (.table i) at active
    rw [registers] at active
    cases active
  · change 0 % Nat.pow 2 32 = site.registers.count
    rw [registers]
  · intro e last
    cases last

/-- An action that is no call on the arena leaves its registers as they are. -/
theorem sites_of_not_calls {action : Action} (single : action.single = true)
    (other : action.calls k = false) :
    (w.perform action).2.sites[k]? = w.sites[k]? := by
  cases action with
  | drain => cases single
  | call i c =>
      change (w.call i c).2.sites[k]? = _
      cases reached : w.siteFor i c with
      | error fault => simp only [World.call, reached]
      | ok site =>
          have ne : i ≠ k := by simpa [Action.calls] using other
          rw [call_leaves reached]
          exact List.getElem?_set_ne ne
  | recycle | takeBack | takeBackFrom | addRival =>
      simp only [World.perform, onSupply]
      split <;> rfl
  | onRegion i command =>
      simp only [World.perform, World.onRegion]
      split <;> rfl
  | read max =>
      simp only [World.perform, World.read]
      split <;> rfl
  | exhaust | request | onTallies | isSentinel | hangUp | clearRecord => rfl

theorem Faithful.perform {events : List Event} (h : w.Faithful detail k events)
    (listens : detail ≠ .off) {action : Action} (single : action.single = true) :
    (w.perform action).2.Faithful detail k (events ++
      if action.calls k then Happening.heard detail { before := w, action } else []) := by
  have each := perform_each Region.Numbered.keptByWork
    (fun _ _ => Region.Numbered.reset) h.numbered action
  have numbered : (w.perform action).2.heap.Each (w.perform action).2.heap.supply.slots.length
      Region.Numbered := each.length.symm ▸ each
  -- The arena goes on with these registers, and what was said is over.
  have goesOn {s : Store} {said : List Event} {site : Site} (faithful : s.Faithful detail events)
      (heard : s.heard detail events = events ++ said) (registers : site.registers = s.registers)
      (length : s.heap.supply.slots.length = w.heap.supply.slots.length) :
      ((w.perform action).2.store site).Faithful detail (events ++ said) := by
    have after : ((w.perform action).2.store site).heard detail (events ++ said) =
        s.heard detail events := by
      rw [heard]
      simp [Store.heard, World.store, Diagnostics.heardAt]
    refine ⟨⟨⟨numbered, ?_⟩, ?_⟩, ?_⟩
    · intro i active
      change i < (w.perform action).2.heap.supply.slots.length
      rw [each.length, ← length]
      refine faithful.there i ?_
      rw [← registers]
      exact active
    · rw [after]
      exact faithful.counted.trans (congrArg Registers.count registers).symm
    · rw [after]
      intro e last
      have told := faithful.last e last
      rw [← registers] at told
      exact told
  have stays {site : Site} (here : w.sites[k]? = some site) :
      ((w.perform action).2.store site).Faithful detail (events ++ []) := by
    refine goesOn (h.site site here) ?_ rfl rfl
    simp [Store.heard, World.store, Diagnostics.heardAt]
  refine ⟨numbered, ?_⟩
  intro site here
  cases calls : action.calls k with
  | false => exact stays (sites_of_not_calls single calls ▸ here)
  | true =>
      obtain ⟨c, rfl⟩ : ∃ c, action = .call k c := by
        cases action with
        | call i c => exact ⟨c, by rw [eq_of_beq calls]⟩
        | _ => cases calls
      rw [if_pos rfl]
      change (w.call k c).2.sites[k]? = some site at here
      cases reached : w.siteFor k c with
      | error fault =>
          rw [Happening.heard_refused reached]
          simp only [World.call, reached] at here
          exact stays here
      | ok old =>
          have before := (siteFor_ok reached).1
          have inside := (List.getElem?_eq_some_iff.1 before).1
          have left := call_leaves reached
          rw [Happening.heard_call reached]
          rw [left, List.getElem?_set_self inside] at here
          cases here
          have kept := old.arena.keepsFaithful_answer listens c (w.store old) (h.site old before)
          refine goesOn kept rfl rfl ?_
          have length := each.length
          simp only [World.perform, left] at length
          exact length

theorem Opened.faithful_after (opened : w.Opened) (listens : detail ≠ .off) (k : Nat)
    {actions : List Action} (single : ∀ action ∈ actions, action.single = true) :
    (w.after actions).Faithful detail k (w.heardOf detail k actions) := by
  induction actions using List.reverseRecOn with
  | nil => exact opened.faithful_at_start detail k
  | append_singleton actions action ih =>
      have before := ih fun a mem => single a (List.mem_append_left _ mem)
      have alone := single action (List.mem_append_right _ List.mem_cons_self)
      rw [after_concat, heardOf_concat]
      exact before.perform listens alone

/-- Whatever is done one after the other to a world that was opened, and whatever of it is a
fault: what was heard of an arena, at `debug` or `trace`, tells truly what the arena has counted
and what it holds. -/
theorem faithful (opened : w.Opened) (listens : detail ≠ .off) {actions : List Action}
    (single : ∀ action ∈ actions, action.single = true) {site : Site}
    (here : (w.after actions).sites[k]? = some site) :
    site.registers.Told (w.heardOf detail k actions) := by
  have told := (opened.faithful_after listens k single).site site here
  have heard : ((w.after actions).store site).heard detail (w.heardOf detail k actions) =
      w.heardOf detail k actions := by
    simp [Store.heard, World.store, Diagnostics.heardAt]
  have last := told.last
  have counted := told.counted
  rw [heard] at last counted
  exact ⟨last, counted⟩

/-- An arena that is started twice. The second time is a fault, and still the last event tells
that the arena has counted one region. -/
theorem faithful_small :
    let actions : List Action := [.call 0 .start, .call 0 (.claimLocked 5 5), .call 0 .start]
    let site : Site := { arena := .mutator 0 .small
                         registers := { active := some (.table 0), count := 1 } }
    (small.after actions).sites[0]? = some site ∧
      ((small.heardOf .debug 0 actions).getLast?.map fun e => (e.moment, e.count)) =
        some (.starting, 1) ∧
      site.registers.Told (small.heardOf .debug 0 actions) :=
  ⟨by decide +kernel, by decide +kernel,
    faithful small_opened (by decide) (by decide) (by decide +kernel)⟩

end World

end RegionHeap
