import RegionHeap.World.Action

/-!
# Histories of a world

A history lists what happened to a world in order, each action with the world that
it found. What an action keeps wherever it happens holds at the end of the history.
-/

namespace RegionHeap

/-- An action with the world that it finds. -/
structure Happening where
  before : World
  action : Action

namespace Happening

/-- What the action brings. -/
def outcome (h : Happening) : Except Fault Outcome :=
  (h.before.perform h.action).1

/-- The world that the action leaves. -/
def after (h : Happening) : World :=
  (h.before.perform h.action).2

end Happening

namespace World

/-- What happens to a world when the actions are carried out in order. -/
def history (w : World) : List Action → List Happening
  | [] => []
  | action :: rest => { before := w, action } :: (w.perform action).2.history rest

@[simp] theorem history_nil (w : World) : w.history [] = [] := rfl

@[simp] theorem history_cons (w : World) (action : Action) (rest : List Action) :
    w.history (action :: rest) =
      { before := w, action } :: (w.perform action).2.history rest := rfl

theorem history_append (w : World) (first second : List Action) :
    w.history (first ++ second) = w.history first ++ (w.after first).history second := by
  induction first generalizing w with
  | nil => rfl
  | cons action rest ih => simp [ih]

theorem history_concat (w : World) (actions : List Action) (action : Action) :
    w.history (actions ++ [action]) =
      w.history actions ++ [{ before := w.after actions, action }] := by
  rw [history_append]
  rfl

theorem after_concat (w : World) (actions : List Action) (action : Action) :
    w.after (actions ++ [action]) = ((w.after actions).perform action).2 := by
  rw [after_append]
  rfl

/-- What everything that happens keeps holds at the end. -/
theorem after_invariant {P : World → Prop} {w : World} {actions : List Action}
    (keep : ∀ h ∈ w.history actions, P h.before → P h.after) (start : P w) :
    P (w.after actions) := by
  induction actions generalizing w with
  | nil => exact start
  | cons action rest ih =>
      rw [history_cons] at keep
      exact ih (fun h hh => keep h (List.mem_cons_of_mem _ hh))
        (keep _ List.mem_cons_self start)

/-- What everything that happens keeps is found whenever something happens. -/
theorem history_invariant {P : World → Prop} {w : World} {actions : List Action}
    (keep : ∀ h ∈ w.history actions, P h.before → P h.after) (start : P w) {h : Happening}
    (mem : h ∈ w.history actions) : P h.before := by
  induction actions generalizing w with
  | nil => cases mem
  | cons action rest ih =>
      rw [history_cons] at keep mem
      have next : P (w.perform action).2 := keep _ List.mem_cons_self start
      have later := fun h hh => keep h (List.mem_cons_of_mem _ hh)
      rcases List.mem_cons.1 mem with eq | mem
      · rw [eq]
        exact start
      · exact ih later next mem

end World

end RegionHeap
