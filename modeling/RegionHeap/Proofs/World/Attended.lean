import RegionHeap.Proofs.World.Agreement

/-!
# Worlds that are listened to

The diagnostics of a world are told of a call when the call is over. Those who listen hear of
everything at once, though. So the reader of a channel may take events out, or go away, between
any two entries of one call; and what several arenas say, if threads of their own work with them,
may mix in any way.

In an attended world what an arena has said waits to be heard, one entry after the other, and
anything may come in between. The histories of a world are the runs of an attended world in
which everything is heard before the next action.
-/

namespace RegionHeap

/-- Take note of one entry. An entry that is a fault is not noted. -/
def Diagnostics.heed (d : Diagnostics) (entry : Entry) : Diagnostics :=
  match d.note entry with
  | .ok noted => noted
  | .error _ => d

/-- The position of the arena that is at work, if the action puts one to work. -/
def Action.arena? : Action → Option Nat
  | .call i _ | .drain i _ _ => some i
  | _ => none

/-- What puts no arena to work is neither a race nor a call. -/
theorem Action.single_of_arena? {action : Action} (idle : action.arena? = none) :
    action.single = true ∧ ∀ k c, action ≠ .call k c := by
  cases action with
  | call | drain => cases idle
  | _ => exact ⟨rfl, by simp⟩

/-- A world, and what its arenas have said that was not heard yet. -/
structure Attended where
  world : World
  /-- What the arena at a position has said, first things first. -/
  unheard : Nat → List Entry := fun _ => []

namespace Attended

/-- What can happen next. -/
inductive Move
  /-- An action is carried out. What arenas say meanwhile will be heard later. -/
  | act (action : Action)
  /-- Threads share the arena at a position and make moves. -/
  | share (arena threads : Nat) (moves : List Race.SharedMove)
  /-- The next entry of the arena at a position is heard. -/
  | hear (arena : Nat)
  deriving DecidableEq

/-- The arena at a position has said something and leaves the world like this. -/
def leave (m : Attended) (arena : Nat) (said : List Entry) (left : World) : Attended where
  world := { left with diagnostics := m.world.diagnostics }
  unheard := Function.update m.unheard arena (m.unheard arena ++ said)

/-- Make a move. Where nothing waits to be heard, nothing is heard. -/
def move (m : Attended) : Move → Attended
  | .act action =>
      match action.arena? with
      | some arena =>
          m.leave arena (Happening.said { before := m.world, action }) (m.world.perform action).2
      | none => { m with world := (m.world.perform action).2 }
  | .share arena threads moves =>
      match m.world.site arena with
      | .error _ => m
      | .ok site =>
          let store := ((Race.Shared.new site.arena (m.world.store site) threads).moves moves).store
          m.leave arena store.transcript (m.world.absorb arena site store).2
  | .hear arena =>
      match m.unheard arena with
      | [] => m
      | entry :: rest =>
          { world := { m.world with diagnostics := m.world.diagnostics.heed entry }
            unheard := Function.update m.unheard arena rest }

/-- Make moves in order. -/
def moves (m : Attended) (ms : List Move) : Attended :=
  ms.foldl move m

@[simp] theorem moves_nil (m : Attended) : m.moves [] = m := rfl

@[simp] theorem moves_cons (m : Attended) (first : Move) (rest : List Move) :
    m.moves (first :: rest) = (m.move first).moves rest := rfl

theorem moves_append (m : Attended) (ms ns : List Move) :
    m.moves (ms ++ ns) = (m.moves ms).moves ns := by
  simp [moves]

end Attended

namespace Diagnostics

/-- Taking note of everything that was said on one occasion is taking note of one entry after
the other, as only the last one may be a fault. -/
theorem noteAll_eq_heed {said : List Event} {entries : List Entry}
    (tells : Entry.Tells said entries) (d : Diagnostics) :
    (d.noteAll entries).2 = entries.foldl heed d := by
  have events (said : List Event) (d : Diagnostics) :
      (said.map Entry.event).foldl heed d = said.foldl hear d := by
    rw [List.foldl_map]
    rfl
  cases tells with
  | events =>
      have noted := d.noteAll_append said []
      rw [List.append_nil] at noted
      rw [noted, events]
      rfl
  | totals regions bytes regionBytes =>
      rw [noteAll_append, List.foldl_append, events]
      simp only [noteAll, List.foldl_cons, List.foldl_nil, heed]
      cases (said.foldl hear d).note (.summary regions bytes regionBytes) <;> rfl

end Diagnostics

/-- What is said on one occasion are events, and possibly the totals of a tenancy at the end. -/
theorem Happening.said_tells (h : Happening) : ∃ said, Entry.Tells said h.said := by
  rcases h with ⟨w, action⟩
  cases action with
  | call k c =>
      simp only [Happening.said]
      cases w.siteFor k c with
      | error fault => exact ⟨[], .events⟩
      | ok site =>
          obtain ⟨said, tells, -⟩ := site.arena.answer_tells c (w.store site) rfl
          exact ⟨said, tells⟩
  | drain k threads words =>
      simp only [Happening.said]
      cases w.site k with
      | error fault => exact ⟨[], .events⟩
      | ok site =>
          obtain ⟨said, spoken, -⟩ :=
            Race.drain_tells site.arena (w.store site) rfl threads words
          dsimp only
          rw [spoken]
          exact ⟨said, .events⟩
  | _ => exact ⟨[], .events⟩

namespace World

/-- An action that puts an arena to work leaves diagnostics that have taken note of what was
said. -/
theorem perform_diagnostics {w : World} {action : Action} {arena : Nat}
    (works : action.arena? = some arena) :
    (w.perform action).2.diagnostics =
      (w.diagnostics.noteAll (Happening.said { before := w, action })).2 := by
  cases action with
  | call k c =>
      change (w.call k c).2.diagnostics = _
      simp only [Happening.said]
      cases reached : w.siteFor k c with
      | error fault => simp only [World.call, reached, Diagnostics.noteAll]
      | ok site => rw [call_leaves reached]
  | drain k threads words =>
      change (w.drain k threads words).2.diagnostics = _
      simp only [Happening.said]
      cases reached : w.site k with
      | error fault => simp only [World.drain, reached, Diagnostics.noteAll]
      | ok site =>
          rw [drain_leaves reached]
          rfl
  | _ => cases works

/-- Whatever is done, it leaves the same behind, whoever listens. -/
theorem Alike.perform {w w' : World} (alike : w.Alike w') (action : Action) :
    (w.perform action).2.Alike (w'.perform action).2 := by
  cases single : action.single with
  | true => exact (alike.parallel single).after
  | false =>
      cases action with
      | drain k threads words => exact (alike.drain k threads words).2
      | _ => cases single

end World

namespace Attended

variable {m m' : Attended}

/-! ## The histories of a world -/

/-- An arena is heard until nothing of it is left unheard. -/
theorem moves_hear (m : Attended) (arena : Nat) :
    m.moves (List.replicate (m.unheard arena).length (.hear arena)) =
      { world := { m.world with
          diagnostics := (m.unheard arena).foldl Diagnostics.heed m.world.diagnostics }
        unheard := Function.update m.unheard arena [] } := by
  rcases m with ⟨w, unheard⟩
  dsimp only
  induction entries : unheard arena generalizing w unheard with
  | nil =>
      have same : Function.update unheard arena [] = unheard := by
        rw [← entries, Function.update_eq_self]
      simp [same]
  | cons entry rest ih =>
      have first : ({ world := w, unheard } : Attended).move (.hear arena) =
          { world := { w with diagnostics := w.diagnostics.heed entry }
            unheard := Function.update unheard arena rest } := by
        simp only [move, entries]
      rw [List.length_cons, List.replicate_succ, moves_cons, first,
        ih _ _ (Function.update_self ..), Function.update_idem]
      rfl

/-- An action that is heard of before anything else happens does what it does to the world. -/
theorem moves_perform (w : World) (action : Action) :
    ∃ ms : List Move, ({ world := w } : Attended).moves ms = { world := (w.perform action).2 } ∧
      ∀ other, .act other ∈ ms ↔ other = action := by
  cases works : action.arena? with
  | none =>
      refine ⟨[.act action], ?_, by simp⟩
      simp only [moves_cons, moves_nil, move, works]
  | some arena =>
      obtain ⟨events, tells⟩ := Happening.said_tells { before := w, action }
      generalize said : Happening.said { before := w, action } = entries at tells
      have left : ({ world := w } : Attended).move (.act action) =
          { world := { (w.perform action).2 with diagnostics := w.diagnostics }
            unheard := Function.update (fun _ => []) arena entries } := by
        simp only [move, works, leave, said, List.nil_append]
      have heard := moves_hear (({ world := w } : Attended).move (.act action)) arena
      rw [left] at heard
      simp only [Function.update_self, Function.update_idem] at heard
      refine ⟨.act action :: List.replicate entries.length (.hear arena), ?_, by simp⟩
      rw [moves_cons, left, heard, ← Diagnostics.noteAll_eq_heed tells, ← said,
        ← World.perform_diagnostics works]
      simp only [Function.update_eq_self]

/-- What is done to a world is done to it if it is listened to, in the same order and by the same
actions. -/
theorem moves_after (w : World) (actions : List Action) :
    ∃ ms : List Move, ({ world := w } : Attended).moves ms = { world := w.after actions } ∧
      ∀ action, .act action ∈ ms ↔ action ∈ actions := by
  induction actions generalizing w with
  | nil => exact ⟨[], rfl, by simp⟩
  | cons action rest ih =>
      obtain ⟨first, performed, mem⟩ := moves_perform w action
      obtain ⟨more, ended, mem'⟩ := ih (w.perform action).2
      refine ⟨first ++ more, ?_, by simp [mem, mem']⟩
      rw [moves_append, performed, ended, World.after_cons]

/-! ## The same moves in two worlds -/

/-- The same is done to two worlds, and the same of it was not heard yet. -/
structure Alike (m m' : Attended) : Prop where
  world : m.world.Alike m'.world
  unheard : m'.unheard = m.unheard

theorem Alike.leave (alike : m.Alike m') (arena : Nat) (said : List Entry) {left left' : World}
    (h : left.Alike left') : (m.leave arena said left).Alike (m'.leave arena said left') := by
  constructor
  · exact ⟨h.settings, h.heap, h.sites⟩
  · simp only [Attended.leave, alike.unheard]

/-- It does not matter for a move who listens. -/
theorem Alike.move (alike : m.Alike m') (next : Move) : (m.move next).Alike (m'.move next) := by
  cases next with
  | act action =>
      have left := alike.world.perform action
      simp only [Attended.move]
      cases action.arena? with
      | none => exact ⟨left, alike.unheard⟩
      | some arena =>
          rw [alike.world.said action]
          exact alike.leave arena _ left
  | share arena threads moves =>
      simp only [Attended.move, alike.world.site]
      cases m.world.site arena with
      | error fault => exact alike
      | ok site =>
          simp only [alike.world.store]
          apply alike.leave
          refine ⟨alike.world.settings, rfl, ?_⟩
          simp only [World.absorb, alike.world.sites]
  | hear arena =>
      simp only [Attended.move, alike.unheard]
      cases m.unheard arena with
      | nil => exact alike
      | cons entry rest =>
          constructor
          · exact ⟨alike.world.settings, alike.world.heap, alike.world.sites⟩
          · rfl

end Attended

end RegionHeap
