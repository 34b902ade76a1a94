import RegionHeap.Proofs.Arena.Handling

/-!
# Giving up hides

Whatever an arena does to give a region up, it lets nobody allocate from a region of the
table meanwhile: the only place that it makes active is the sentinel. Nor does it count a
region or report the totals of its tenancy.
-/

namespace RegionHeap

/-- A step that lets nobody allocate from a region of the table. -/
def Step.Hides : Step → Prop
  | .storeActive place => place = some .sentinel
  | _ => True

/-- A step that an arena can take while it gives a region up. -/
def Step.Withdraws : Step → Prop
  | .storeActive place => place = some .sentinel
  | .clearCount | .bumpCount | .summarise .. => False
  | _ => True

theorem Step.Handles.withdraws {place : Place} {st : Step} (h : st.Handles place) :
    st.Withdraws := by
  cases st with
  | storeActive | clearCount | bumpCount | summarise => exact h.elim
  | _ => exact trivial

theorem Step.Withdraws.hides {st : Step} (h : st.Withdraws) : st.Hides := by
  cases st with
  | storeActive place => exact h
  | _ => exact trivial

namespace Program

/-- The program lets nobody allocate from a region of the table. -/
abbrev Hides {α : Type} (x : Program α) : Prop :=
  x.Only Step.Hides

/-- The program takes such steps only as an arena can take while it gives a region up. -/
abbrev Withdraws {α : Type} (x : Program α) : Prop :=
  x.Only Step.Withdraws

theorem Withdraws.hides {α : Type} {x : Program α} (h : x.Withdraws) : x.Hides :=
  h.mono fun _ => Step.Withdraws.hides

theorem Handles.withdraws {α : Type} {place : Place} {x : Program α} (h : x.Handles place) :
    x.Withdraws :=
  h.mono fun _ => Step.Handles.withdraws

end Program

namespace Arena

open Program

variable (a : Arena)

theorem withdraws_tell (moment : Moment) : (a.tell moment).Withdraws :=
  .perform trivial

theorem withdraws_current : a.current.Withdraws := by
  refine .bind (.perform trivial) fun place => ?_
  cases place with
  | none => exact .fail _
  | some place => exact .pure place

theorem withdraws_held : Arena.held.Withdraws := by
  refine .bind (.perform trivial) fun place => ?_
  cases place with
  | none => exact .pure _
  | some place => cases place <;> exact .pure _

theorem withdraws_giveUp (place : Place) (filling : Bool) : (a.giveUp place filling).Withdraws :=
  (a.handles_giveUp place filling).withdraws

theorem withdraws_retirePlain (filling : Bool) : (a.retirePlain filling).Withdraws := by
  refine .bind a.withdraws_current fun place => .bind (a.withdraws_tell _) fun _ => ?_
  split
  · exact .bind (a.withdraws_tell _) fun _ => .pure 0
  · refine .bind (a.withdraws_giveUp place filling) fun wasted => ?_
    exact .bind (.perform rfl) fun _ => .bind (a.withdraws_tell _) fun _ => .pure wasted

theorem withdraws_worthRetaining (place : Place) : (a.worthRetaining place).Withdraws := by
  refine .bind (handles_freeBytes place).withdraws fun free => ?_
  split
  · exact .pure false
  · refine .bind (.perform trivial) fun kept => ?_
    cases kept with
    | none => exact .pure true
    | some kept => exact .bind (handles_freeBytes kept).withdraws fun _ => .pure _

theorem withdraws_retainInstead (place : Place) : (a.retainInstead place).Withdraws := by
  refine .bind (a.withdraws_tell _) fun _ => .bind (.perform trivial) fun kept => ?_
  cases kept with
  | none => exact .bind (.perform trivial) fun _ => .pure 0
  | some displaced =>
      exact .bind (a.withdraws_giveUp displaced true) fun _ => .bind (.perform trivial) fun _ => .pure _

theorem withdraws_retireRetaining (filling : Bool) : (a.retireRetaining filling).Withdraws := by
  refine .bind a.withdraws_current fun place => .bind (a.withdraws_tell _) fun _ => ?_
  split
  · exact .bind (.perform trivial) fun _ => .bind (a.withdraws_tell _) fun _ => .pure 0
  · refine .bind (a.withdraws_worthRetaining place) fun keep => .bind ?_ fun wasted => ?_
    · cases keep with
      | true => exact a.withdraws_retainInstead place
      | false => exact a.withdraws_giveUp place filling
    · refine .bind (.perform rfl) fun _ => .bind (.perform trivial) fun _ => ?_
      exact .bind (a.withdraws_tell _) fun _ => .pure wasted

theorem withdraws_retireTallying (purpose : Purpose) (filling : Bool) :
    (a.retireTallying purpose filling).Withdraws := by
  refine .bind withdraws_held fun place => ?_
  cases place with
  | none => exact a.withdraws_retirePlain filling
  | some place =>
      refine .bind (a.withdraws_retirePlain filling) fun wasted => .bind (.compute _) fun words => ?_
      exact .bind (.perform trivial) fun _ => .pure wasted

theorem withdraws_onInstall (place : Place) : (a.onInstall place).Withdraws :=
  (a.handles_onInstall place).withdraws

theorem withdraws_retire (filling : Bool) : (a.retire filling).Withdraws := by
  unfold retire
  cases a.kind with
  | plain => exact a.withdraws_retirePlain filling
  | mutator => exact a.withdraws_retireRetaining filling
  | collector purpose => exact a.withdraws_retireTallying purpose filling

end Arena

end RegionHeap
