import RegionHeap.Arena.Call
import RegionHeap.Proofs.Program.Only

/-!
# Handling one region

To give a region up, an arena looks at it, fills it, marks it and hands it back. It touches no
other region meanwhile, none of its registers but the baseline, and says nothing. The same
goes for taking note of a region that is about to become active.
-/

namespace RegionHeap

/-- A step on the region at this place, or one that hands a region back, or on the baseline. -/
def Step.Handles (place : Place) : Step → Prop
  | .look p | .claim p _ _ | .addFiller p _ | .mark p _ | .unmark p => p = place
  | .takeBack .. | .takeBackFrom .. | .loadBaseline | .storeBaseline _ => True
  | _ => False

namespace Program

/-- The program works on the region at this place at most. -/
abbrev Handles {α : Type} (place : Place) (x : Program α) : Prop :=
  x.Only (Step.Handles place)

theorem handles_freeBytes (place : Place) : (freeBytes place).Handles place :=
  .bind (.perform rfl) fun _ => .compute _

theorem handles_usedBytes (place : Place) : (usedBytes place).Handles place :=
  .bind (.perform rfl) fun _ => .compute _

end Program

namespace Arena

open Program

variable (a : Arena)

theorem handles_fill (place : Place) (patience words : Nat) :
    (a.fill place patience words).Handles place := by
  induction patience generalizing words with
  | zero =>
      unfold fill
      split
      · exact .pure 0
      · exact .fail _
  | succ patience ih =>
      unfold fill
      split
      · exact .pure 0
      · refine .bind (.perform rfl) fun span => ?_
        cases span with
        | some span =>
            exact .bind (.perform rfl) fun _ => .bind (.perform rfl) fun _ => .compute _
        | none => exact .bind (handles_freeBytes place) fun _ => .bind (.compute _) ih

theorem handles_settle (place : Place) (filling : Bool) :
    (a.settle place filling).Handles place := by
  unfold settle
  split
  · refine .bind (.perform rfl) fun slot => .bind (.compute _) fun free => ?_
    refine .bind (.compute _) fun words => .bind (a.handles_fill place _ words) fun filler => ?_
    refine .bind (handles_freeBytes place) fun residual => .bind (.compute _) fun _ => ?_
    exact .bind (.require _ _) fun _ => .bind (.compute _) fun _ => .pure _
  · exact .bind (handles_freeBytes place) fun _ => .pure _

theorem handles_handBack (place : Place) (region used : Nat) :
    (a.handBack region used).Handles place := by
  unfold handBack
  cases a.kind with
  | plain | mutator => exact .perform trivial
  | collector purpose =>
      refine .bind (.perform trivial) fun before => .bind (.require _ _) fun _ => ?_
      exact .bind (.perform trivial) fun _ => .perform trivial

theorem handles_giveUp (place : Place) (filling : Bool) :
    (a.giveUp place filling).Handles place := by
  refine .bind (.perform rfl) fun slot => .bind (.compute _) fun empty => ?_
  refine .bind (.require _ _) fun _ => .bind (a.handles_settle place filling) fun settled => ?_
  refine .bind (handles_usedBytes place) fun used => .bind (.compute _) fun live => ?_
  exact .bind (a.handles_handBack place _ live) fun _ => .pure _

theorem handles_onInstall (place : Place) : (a.onInstall place).Handles place := by
  unfold onInstall
  cases a.kind with
  | plain | mutator => exact .pure ()
  | collector purpose => exact .bind (handles_usedBytes place) fun _ => .perform trivial

end Arena

end RegionHeap
