import RegionHeap.Proofs.Arena.Books
import RegionHeap.Proofs.World.Opened

/-!
# Ownership of regions

Every region that an arena has come by is either still held or was handed back, and
was handed back once for each time it came. The books are kept by the supply, which
records requests and returns, and by the history, which knows the adoptions.
-/

namespace RegionHeap

namespace Arena

variable {a : Arena} {s s' : Store} {ds : List Deed}

/-- The books of the supply and the arena for region `i`: what came in on the left, what
went out and what is there on the right. -/
def Balanced (i : Nat) (adopted : Nat) (s s' : Store) : Prop :=
  s'.heap.supply.granted.count i + adopted + s.heap.supply.returned.count i +
      s.registers.regions.count i =
    s.heap.supply.granted.count i + s'.heap.supply.returned.count i +
      s'.registers.regions.count i

/-- Deeds keep the books in balance, unless a region was requested for no words. -/
theorem Deeds.balanced (h : a.Deeds ds s s') (i : Nat)
    (asked : ∀ q ∈ s'.heap.supply.requests, 0 < q.words) :
    Balanced i ((ds.flatMap Deed.adopted).count i) s s' := by
  have kept := h.lose_not_mem (Nat.zero_le _) asked
  have gained := (gained_perm kept).count_eq i
  have granted := congrArg (List.count i) h.granted
  have returned := h.returned.count_eq i
  have regions := h.regions.count_eq i
  simp only [List.count_append] at gained granted returned regions
  unfold Balanced
  omega

end Arena

/-- The regions adopted by what happens. -/
def Happening.adopted (h : Happening) : List Nat :=
  match h.action with
  | .call k c => c.adopted (h.before.call k c).1
  | _ => []

theorem Happening.adopted_of_not_call {w : World} {action : Action}
    (other : ∀ k c, action ≠ .call k c) : Happening.adopted { before := w, action } = [] := by
  cases action with
  | call k c => exact absurd rfl (other k c)
  | _ => rfl

namespace World

variable {w : World}

/-- The regions adopted in the course of the actions, once for each time. -/
def adopted (w : World) (actions : List Action) : List Nat :=
  (w.history actions).flatMap Happening.adopted

/-- The books of a world for region `i`: what the arenas have come by on the left, what
they have handed back and what they hold on the right. -/
def Balanced (w : World) (i : Nat) (adopted : Nat) (w' : World) : Prop :=
  w'.heap.supply.granted.count i + adopted + w.heap.supply.returned.count i + w.held.count i =
    w.heap.supply.granted.count i + w'.heap.supply.returned.count i + w'.held.count i

/-- What the deeds of a call adopt can be told from its outcome. -/
theorem Ran.adopted {k : Nat} {c : Call} {site : Site} {s : Store} {o : Except Fault Answer}
    {ds : List Deed} (ran : w.Ran k c site s o ds) :
    c.adopted (w.call k c).1 = ds.flatMap Deed.adopted := by
  rw [ran.course.adopted]
  by_cases adopts : ∃ place, c = .adopt place
  · obtain ⟨place, rfl⟩ := adopts
    rw [ran.outcome nofun]
  · cases c with
    | adopt place => exact absurd ⟨place, rfl⟩ adopts
    | _ => rfl

theorem Orderly.call_balanced (o : w.Orderly) (k : Nat) (c : Call)
    (asked : ∀ q ∈ (w.call k c).2.heap.supply.requests, 0 < q.words) (i : Nat) :
    w.Balanced i ((c.adopted (w.call k c).1).count i) (w.call k c).2 := by
  rcases o.call_cases k c with ⟨fault, eq⟩ | ⟨site, s, result, ds, ran⟩
  · rw [eq, Call.adopted_error]
    simp [Balanced]
  · have balanced := ran.deeds.balanced i (ran.heap ▸ asked)
    have before := (held_perm ran.here).count_eq i
    have after := ran.held_perm.count_eq i
    unfold Arena.Balanced at balanced
    simp only [List.count_append] at before after
    unfold Balanced
    rw [ran.heap, after, before, ran.adopted]
    have same : (w.store site).heap = w.heap := rfl
    have mine : (w.store site).registers = site.registers := rfl
    rw [same, mine] at balanced
    omega

theorem SameBooks.granted {w' : World} (same : w.SameBooks w') :
    w'.heap.supply.granted = w.heap.supply.granted := by
  rw [Supply.granted, same.requests]
  rfl

theorem SameBooks.balanced {w' : World} (same : w.SameBooks w') (i : Nat) :
    w.Balanced i 0 w' := by
  simp [Balanced, Supply.returned, same.granted, same.mutatorReturns, same.collectorReturns,
    same.held]

/-- What happens to an orderly world keeps its books in balance. -/
theorem Orderly.balanced (o : w.Orderly) {action : Action} (tidy : action.Tidy w)
    (asked : ∀ q ∈ (w.perform action).2.heap.supply.requests, 0 < q.words) (i : Nat) :
    w.Balanced i ((Happening.adopted { before := w, action }).count i) (w.perform action).2 := by
  by_cases isCall : ∃ k c, action = .call k c
  · obtain ⟨k, c, rfl⟩ := isCall
    exact o.call_balanced k c asked i
  · have other : ∀ k c, action ≠ .call k c := fun k c eq => isCall ⟨k, c, eq⟩
    rw [Happening.adopted_of_not_call other]
    exact (sameBooks_of_not_call tidy other).balanced i

theorem adopted_concat (w : World) (actions : List Action) (action : Action) :
    w.adopted (actions ++ [action]) =
      w.adopted actions ++ Happening.adopted { before := w.after actions, action } := by
  simp [adopted, history_concat]

/-- The books are in balance from the opening on. -/
theorem Opened.balanced (opened : w.Opened) {actions : List Action}
    (tidy : ∀ h ∈ w.history actions, h.action.Tidy h.before ∧ ¬ h.action.Contests)
    (asked : ∀ q ∈ (w.after actions).heap.supply.requests, 0 < q.words) (i : Nat) :
    w.Balanced i ((w.adopted actions).count i) (w.after actions) := by
  induction actions using List.reverseRec with
  | nil => simp [Balanced, adopted]
  | append_singleton actions action ih =>
      rw [history_concat] at tidy
      rw [after_concat] at asked ⊢
      have before := fun h hh => tidy h (List.mem_append_left _ hh)
      have last : action.Tidy (w.after actions) :=
        (tidy _ (List.mem_append_right _ List.mem_cons_self)).1
      obtain ⟨order, -⟩ := opened.orderly_after before
      have one := ih before fun q hq => asked q ((order.requests last).subset hq)
      have more := order.balanced last asked i
      rw [adopted_concat]
      unfold Balanced at one more ⊢
      simp only [List.count_append]
      omega

/-- Run from a fresh heap without rivals, every region has come to the arenas as often as
it was handed back, and once more while it is held. It is free once, or held once by one
arena, or neither. -/
theorem ownership {w : World} (opened : w.Opened) (actions : List Action)
    (tidy : ∀ h ∈ w.history actions, h.action.Tidy h.before ∧ ¬ h.action.Contests)
    (asked : ∀ q ∈ (w.after actions).heap.supply.requests, 0 < q.words) (i : Nat) :
    (w.after actions).heap.supply.granted.count i + (w.adopted actions).count i =
        (w.after actions).heap.supply.returned.count i + (w.after actions).held.count i ∧
      (w.after actions).heap.supply.free.count i + (w.after actions).held.count i ≤ 1 := by
  obtain ⟨order, -⟩ := opened.orderly_after tidy
  have balanced := opened.balanced tidy asked i
  have granted : w.heap.supply.granted = [] := by
    simp [Supply.granted, opened.fresh.requests]
  have returned : w.heap.supply.returned = [] := by
    simp [Supply.returned, opened.fresh.mutatorReturns, opened.fresh.collectorReturns]
  unfold Balanced at balanced
  rw [opened.held, granted, returned] at balanced
  refine ⟨by simpa using balanced, ?_⟩
  rw [← List.count_append]
  exact List.nodup_iff_count_le_one.1 order.order.nodup i

/-- A region that is kept, displaced and recycled, and one that is adopted. -/
theorem ownership_small :
    let actions : List Action := [.call 0 .start, .call 1 .start, .call 0 (.claimLocked 6 6),
      .call 0 (.claimLocked 3 3), .call 0 (.retire true), .call 0 .release, .recycle 0,
      .call 1 (.adopt (.table 1)), .call 1 (.claim 1 2)]
    let now := small.after actions
    now.heap.supply.granted.count 1 + (small.adopted actions).count 1 =
        now.heap.supply.returned.count 1 + now.held.count 1 ∧
      now.heap.supply.free.count 1 + now.held.count 1 ≤ 1 :=
  ownership small_opened _ (by decide +kernel) (by decide +kernel) 1

end World

end RegionHeap
