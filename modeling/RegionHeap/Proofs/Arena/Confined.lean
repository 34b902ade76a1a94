import RegionHeap.Proofs.Arena.Handling
import RegionHeap.Proofs.Program.Confined

/-!
# Arenas keep to their regions

Whatever an arena is asked for without a request for a region and without naming one, it
touches no regions but those that it holds.
-/

namespace RegionHeap

variable {ps : Nat → Prop}

theorem Step.Handles.confined {i : Nat} {st : Step} (h : st.Handles (.table i)) (mine : ps i) :
    st.Confined ps := by
  have inside : Place.Inside ps (some (.table i)) := by
    intro p eq
    cases eq
    exact ⟨i, rfl, mine⟩
  cases st with
  | look | claim =>
      cases h
      exact inside.among
  | addFiller | mark | unmark =>
      cases h
      exact inside
  | takeBack | takeBackFrom | loadBaseline | storeBaseline => exact trivial
  | _ => exact h.elim

/-- The program keeps to regions at such positions. -/
abbrev Program.Keeping {α : Type} (ps : Nat → Prop) (x : Program α) : Prop :=
  x.Confined ps fun _ => True

theorem Program.Handles.keeping {α : Type} {x : Program α} {i : Nat} (h : x.Handles (.table i))
    (mine : ps i) : x.Keeping ps :=
  .of_only (h.mono fun _ handles => handles.confined mine)

/-- What is asked of an arena without requesting a region and without naming one. -/
def Call.isLocal : Call → Bool
  | .claimLocked .. | .claimFresh .. | .claimForced _ | .install _ | .adopt _ => false
  | _ => true

namespace Arena

open Program

variable (a : Arena)

theorem keeping_tell (moment : Moment) : (a.tell moment).Keeping ps :=
  .perform trivial

theorem keeping_tellSizes (moment : Moment) (min desired : Nat) (result : Option Span) :
    (a.tellSizes moment min desired result).Keeping ps :=
  .perform trivial

theorem confined_current : a.current.Confined ps fun place => Place.Among ps (some place) := by
  refine .bind (.perform trivial) fun place among => ?_
  cases place with
  | none => exact .fail _
  | some place => exact .pure among

theorem keeping_held : Arena.held.Keeping ps := by
  refine .bind (.perform trivial) fun place _ => ?_
  cases place with
  | none => exact .pure trivial
  | some place => cases place <;> exact .pure trivial

theorem keeping_allocate (words : Nat) : (a.allocate words).Keeping ps := by
  refine .bind a.confined_current fun place among => ?_
  exact .bind (.perform among) fun _ _ => .pure trivial

theorem keeping_claim (min desired : Nat) : (a.claim min desired).Keeping ps := by
  refine .bind a.confined_current fun place among => ?_
  refine .bind (.perform among) fun span _ => ?_
  cases span with
  | none => exact .bind (a.keeping_tellSizes ..) fun _ _ => .pure trivial
  | some span => exact .bind (a.keeping_tellSizes ..) fun _ _ => .pure trivial

theorem keeping_claimRetained (min desired : Nat) :
    (a.claimRetained min desired).Keeping ps := by
  refine .bind (.perform trivial) fun place inside => ?_
  cases place with
  | none => exact .pure trivial
  | some place =>
      refine .bind (.perform inside.among) fun span _ => ?_
      cases span with
      | none => exact .pure trivial
      | some span => exact .bind (a.keeping_tellSizes ..) fun _ _ => .pure trivial

theorem keeping_summary : a.summary.Keeping ps :=
  .bind (.perform trivial) fun _ _ => .bind (.perform trivial) fun _ _ => .compute _

theorem keeping_startPlain : a.startPlain.Keeping ps := by
  refine .bind (a.keeping_tell _) fun _ _ => .bind (.perform trivial) fun place _ => ?_
  cases place with
  | some place => exact .fail _
  | none =>
      refine .bind (.perform nofun) fun _ _ => .bind (.perform trivial) fun _ _ => ?_
      exact a.keeping_tell _

theorem keeping_start : a.start.Keeping ps := by
  unfold start
  cases a.kind with
  | plain | collector => exact a.keeping_startPlain
  | mutator =>
      refine .bind (.perform trivial) fun kept _ => .bind (.require _ _) fun _ _ => ?_
      exact .bind a.keeping_startPlain fun _ _ => .perform trivial

theorem keeping_retirePlain (filling : Bool) : (a.retirePlain filling).Keeping ps := by
  refine .bind a.confined_current fun place among => .bind (a.keeping_tell _) fun _ _ => ?_
  cases place with
  | sentinel => exact .bind (a.keeping_tell _) fun _ _ => .pure trivial
  | table i =>
      refine .bind ((a.handles_giveUp _ filling).keeping (among i rfl)) fun wasted _ => ?_
      refine .bind (.perform nofun) fun _ _ => ?_
      exact .bind (a.keeping_tell _) fun _ _ => .pure trivial

theorem keeping_worthRetaining {i : Nat} (mine : ps i) :
    (a.worthRetaining (.table i)).Keeping ps := by
  refine .bind ((handles_freeBytes _).keeping mine) fun free _ => ?_
  split
  · exact .pure trivial
  · refine .bind (.perform trivial) fun kept inside => ?_
    cases kept with
    | none => exact .pure trivial
    | some kept =>
        obtain ⟨j, rfl, mine'⟩ := inside kept rfl
        exact .bind ((handles_freeBytes _).keeping mine') fun _ _ => .pure trivial

theorem keeping_retainInstead {i : Nat} (mine : ps i) :
    (a.retainInstead (.table i)).Keeping ps := by
  have inside : Place.Inside ps (some (.table i)) := by
    intro p eq
    cases eq
    exact ⟨i, rfl, mine⟩
  refine .bind (a.keeping_tell _) fun _ _ => .bind (.perform trivial) fun kept kept_inside => ?_
  cases kept with
  | none => exact .bind (.perform inside) fun _ _ => .pure trivial
  | some displaced =>
      obtain ⟨j, rfl, mine'⟩ := kept_inside displaced rfl
      refine .bind ((a.handles_giveUp _ true).keeping mine') fun wasted _ => ?_
      exact .bind (.perform inside) fun _ _ => .pure trivial

theorem keeping_retireRetaining (filling : Bool) : (a.retireRetaining filling).Keeping ps := by
  refine .bind a.confined_current fun place among => .bind (a.keeping_tell _) fun _ _ => ?_
  cases place with
  | sentinel =>
      refine .bind (.perform trivial) fun _ _ => ?_
      exact .bind (a.keeping_tell _) fun _ _ => .pure trivial
  | table i =>
      have mine := among i rfl
      refine .bind (a.keeping_worthRetaining mine) fun keep _ => ?_
      have disposed : (if keep then a.retainInstead (.table i)
          else a.giveUp (.table i) filling).Keeping ps := by
        cases keep with
        | true => exact a.keeping_retainInstead mine
        | false => exact (a.handles_giveUp _ filling).keeping mine
      refine .bind disposed fun wasted _ => .bind (.perform nofun) fun _ _ => ?_
      refine .bind (.perform trivial) fun _ _ => ?_
      exact .bind (a.keeping_tell _) fun _ _ => .pure trivial

theorem keeping_retireTallying (purpose : Purpose) (filling : Bool) :
    (a.retireTallying purpose filling).Keeping ps := by
  refine .bind keeping_held fun place _ => ?_
  cases place with
  | none => exact a.keeping_retirePlain filling
  | some place =>
      refine .bind (a.keeping_retirePlain filling) fun wasted _ => ?_
      refine .bind (.compute _) fun words _ => ?_
      exact .bind (.perform trivial) fun _ _ => .pure trivial

theorem keeping_retire (filling : Bool) : (a.retire filling).Keeping ps := by
  unfold retire
  cases a.kind with
  | plain => exact a.keeping_retirePlain filling
  | mutator => exact a.keeping_retireRetaining filling
  | collector purpose => exact a.keeping_retireTallying purpose filling

theorem keeping_releaseBy {retire : Bool → Program Nat} (keeping : (retire false).Keeping ps) :
    (a.releaseBy retire).Keeping ps := by
  refine .bind (a.keeping_tell _) fun _ _ => .bind a.confined_current fun place _ => ?_
  refine .bind keeping fun _ _ => .bind (.perform trivial) fun left _ => ?_
  refine .bind (.require _ _) fun _ _ => .bind (.perform nofun) fun _ _ => ?_
  exact .bind (a.keeping_tell _) fun _ _ => .pure trivial

theorem keeping_releaseRetained : a.releaseRetained.Keeping ps := by
  refine .bind (.perform trivial) fun kept inside => ?_
  cases kept with
  | none => exact .pure trivial
  | some kept =>
      obtain ⟨i, rfl, mine⟩ := inside kept rfl
      refine .bind ((a.handles_giveUp _ false).keeping mine) fun bytes _ => ?_
      exact .bind (.perform trivial) fun _ _ => .perform nofun

theorem keeping_releaseRetaining : a.releaseRetaining.Keeping ps := by
  refine .bind (a.keeping_releaseBy (a.keeping_retireRetaining false)) fun released _ => ?_
  refine .bind a.keeping_releaseRetained fun _ _ => .bind (.perform trivial) fun regions _ => ?_
  refine .bind (.perform trivial) fun bytes _ => ?_
  exact .bind (.perform trivial) fun _ _ => .pure trivial

theorem keeping_release : a.release.Keeping ps := by
  unfold release
  cases a.kind with
  | plain => exact a.keeping_releaseBy (a.keeping_retirePlain false)
  | mutator => exact a.keeping_releaseRetaining
  | collector purpose => exact a.keeping_releaseBy (a.keeping_retireTallying purpose false)

/-- A call that requests no region and names none stays with the regions of the arena. -/
theorem keeping_answer {c : Call} (stays : c.isLocal = true) : (a.answer c).Keeping ps := by
  cases c with
  | start => exact .bind a.keeping_start fun _ _ => .pure trivial
  | retire filling => exact (a.keeping_retire filling).map
  | release => exact a.keeping_release.map
  | allocate words => exact (a.keeping_allocate words).map
  | claim min desired => exact (a.keeping_claim min desired).map
  | claimRetained min desired => exact (a.keeping_claimRetained min desired).map
  | held => exact keeping_held.map
  | summary => exact a.keeping_summary.map
  | startPlain => exact .bind a.keeping_startPlain fun _ _ => .pure trivial
  | retirePlain filling => exact (a.keeping_retirePlain filling).map
  | releasePlain => exact (a.keeping_releaseBy (a.keeping_retirePlain false)).map
  | claimLocked | claimFresh | claimForced | install | adopt => cases stays

end Arena

end RegionHeap
