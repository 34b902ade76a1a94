import RegionHeap.Arena.Call
import RegionHeap.Proofs.Program.Lockstep

/-!
# Arenas in lockstep

An arena of application threads and a plain one go in lockstep as long as no region has enough
room to be put aside. Both take the same steps in the same order, apart from those by which the
first counts its waste and looks for a region that it put aside.
-/

namespace RegionHeap

namespace Arena

open Program

/-- A mutator arena and a plain one that differ in nothing else but their names. -/
structure Twins (a b : Arena) : Prop where
  mutator : a.kind = .mutator
  plain : b.kind = .plain
  node : b.node = a.node
  settings : b.settings = a.settings

variable {a b : Arena} {least : Nat}

theorem lockstep_tell (a b : Arena) (moment : Moment) :
    Lockstep least (a.tell moment) (b.tell moment) :=
  .report a.name b.name moment none

theorem lockstep_tellSizes (a b : Arena) (moment : Moment) (min desired : Nat)
    (result : Option Span) :
    Lockstep least (a.tellSizes moment min desired result)
      (b.tellSizes moment min desired result) :=
  .report a.name b.name moment _

theorem lockstep_current (a b : Arena) : Lockstep least a.current b.current := by
  refine .bind .active fun place => ?_
  cases place with
  | none => exact .fail rfl
  | some place => exact .pure place

theorem lockstep_held : Lockstep least held held := by
  refine .bind .active fun place => ?_
  cases place with
  | none => exact .pure none
  | some place => cases place <;> exact .pure _

theorem lockstep_allocate (a b : Arena) (words : Nat) :
    Lockstep least (a.allocate words) (b.allocate words) :=
  .bind (lockstep_current a b) fun place => .bind (.claim place words words) fun _ => .pure _

theorem lockstep_claim (a b : Arena) (min desired : Nat) :
    Lockstep least (a.claim min desired) (b.claim min desired) := by
  refine .bind (lockstep_current a b) fun place => .bind (.claim place min desired) fun span => ?_
  cases span with
  | none => exact .bind (lockstep_tellSizes a b _ _ _ _) fun _ => .pure _
  | some span => exact .bind (lockstep_tellSizes a b _ _ _ _) fun _ => .pure _

theorem lockstep_startPlain (a b : Arena) : Lockstep least a.startPlain b.startPlain := by
  refine .bind (lockstep_tell a b _) fun _ => .bind .active fun place => ?_
  cases place with
  | none => exact .bind (.activate _) fun _ => .bind .clearCount fun _ => lockstep_tell a b _
  | some place => exact .fail rfl

theorem lockstep_releaseBy (a b : Arena) {retire retire' : Bool → Program Nat}
    (retires : ∀ filling, Lockstep least (retire filling) (retire' filling)) :
    Lockstep least (a.releaseBy retire) (b.releaseBy retire') := by
  refine .bind (lockstep_tell a b _) fun _ => .bind (lockstep_current a b) fun place => ?_
  refine .bind (retires false) fun _ => .bind .active fun left => .bind (.require _ rfl) fun _ => ?_
  exact .bind (.activate none) fun _ => .bind (lockstep_tell a b _) fun _ => .pure _

theorem lockstep_publish (a b : Arena) (place : Place) :
    Lockstep least (a.publish place) (b.publish place) := by
  refine .bind (lockstep_tell a b _) fun _ => .bind (.look place) fun slot => ?_
  refine .bind (.compute _) fun empty => .bind (.require _ rfl) fun _ => ?_
  exact .bind (.activate _) fun _ => .bind .bumpCount fun _ => lockstep_tell a b _

/-- Nothing is claimed where nothing was put aside. -/
theorem lockstep_claimRetained (a b : Arena) (min desired : Nat) :
    Lockstep least (a.claimRetained min desired) (b.claimRetained min desired) := by
  intro s t like
  have aside (c : Arena) {u : Store} (none : u.registers.retained = none) :
      (c.claimRetained min desired).run u = (.ok .none, u) := by
    rw [Arena.claimRetained, run_bind, run_retained, none]
    rfl
  rw [aside a like.retained, aside b like.retained']
  exact ⟨.refl _, like⟩

/-- No region of the table has enough room to be put aside. -/
theorem worthRetaining_run (threshold : least ≤ a.settings.minRetainBytes) {s : Store}
    (narrow : s.heap.NarrowerThan least) {i : Nat} {slot : Slot}
    (found : s.heap.find (.table i) = .ok slot) :
    (a.worthRetaining (.table i)).run s = (.ok false, s) := by
  obtain ⟨bytes, free, few⟩ := (narrow.find found).free_eq
  have less : bytes < a.settings.minRetainBytes := Nat.lt_of_lt_of_le few threshold
  rw [worthRetaining, run_bind, run_freeBytes, found]
  simp only [Bind.bind, Except.bind, free, if_pos less]
  rfl

namespace Twins

variable (twins : a.Twins b)
include twins

/-! ## Giving regions up -/

theorem fill (place : Place) (patience words : Nat) :
    Lockstep least (a.fill place patience words) (b.fill place patience words) := by
  induction patience generalizing words with
  | zero =>
      unfold Arena.fill
      rw [twins.settings]
      split
      · exact .pure 0
      · exact .fail rfl
  | succ patience ih =>
      unfold Arena.fill
      rw [twins.settings]
      split
      · exact .pure 0
      · refine .bind (.claim place words words) fun span => ?_
        cases span with
        | some span =>
            exact .bind (.onHeap trivial) fun _ => .bind (.onHeap trivial) fun _ => .compute _
        | none => exact .bind (.freeBytes place) fun _ => .bind (.compute _) ih

theorem fillUp (place : Place) : Lockstep least (a.fillUp place) (b.fillUp place) := by
  unfold Arena.fillUp
  rw [twins.settings]
  refine .bind (.look place) fun slot => .bind (.compute _) fun free => ?_
  refine .bind (.compute _) fun words => .bind (twins.fill place _ words) fun filler => ?_
  refine .bind (.freeBytes place) fun residual => .bind (.compute _) fun _ => ?_
  exact .bind (.require _ rfl) fun _ => .bind (.compute _) fun _ => .pure _

theorem handBack (region used : Nat) :
    Lockstep least (a.handBack region used) (b.handBack region used) := by
  unfold Arena.handBack
  rw [twins.mutator, twins.plain]
  exact .onHeap trivial

theorem giveUp (place : Place) (filling : Bool) :
    Lockstep least (a.giveUp place filling) (b.giveUp place filling) := by
  have settle : Lockstep least (a.settle place filling) (b.settle place filling) := by
    unfold Arena.settle
    split
    · exact twins.fillUp place
    · exact .bind (.freeBytes place) fun _ => .pure _
  refine .bind (.look place) fun slot => .bind (.compute _) fun empty => ?_
  refine .bind (.require _ rfl) fun _ => .bind settle fun settled => ?_
  refine .bind (.usedBytes place) fun used => .bind (.compute _) fun live => ?_
  exact .bind (twins.handBack _ live) fun _ => .pure _

theorem retirePlain (filling : Bool) :
    Lockstep least (a.retirePlain filling) (b.retirePlain filling) := by
  refine .bind (lockstep_current a b) fun place => .bind (lockstep_tell a b _) fun _ => ?_
  split
  · exact .bind (lockstep_tell a b _) fun _ => .pure 0
  · refine .bind (twins.giveUp place filling) fun wasted => .bind (.activate _) fun _ => ?_
    exact .bind (lockstep_tell a b _) fun _ => .pure wasted

theorem releasePlain : Lockstep least a.releasePlain b.releasePlain :=
  lockstep_releaseBy a b twins.retirePlain

/-- A region that is not worth to be put aside is given up, also by the mutator arena. -/
theorem giveUpUnlessWorth (threshold : least ≤ a.settings.minRetainBytes) {place : Place}
    (ne : place ≠ .sentinel) (filling : Bool) :
    Lockstep least
      (a.worthRetaining place >>= fun keep =>
        if keep then a.retainInstead place else a.giveUp place filling)
      (b.giveUp place filling) := by
  cases place with
  | sentinel => exact absurd rfl ne
  | table i =>
      intro s t like
      cases found : s.heap.find (.table i) with
      | error fault =>
          -- Both look at the region first, and find that there is none.
          have left : (a.worthRetaining (.table i)).run s = (.error fault, s) := by
            rw [worthRetaining, run_bind, run_freeBytes, found]
            rfl
          have right : (b.giveUp (.table i) filling).run t = (.error fault, t) := by
            rw [Arena.giveUp, run_bind, run_look, like.heap, found]
          rw [run_bind, left, right]
          exact ⟨.refl _, like⟩
      | ok slot =>
          rw [run_bind, worthRetaining_run threshold like.narrow found]
          exact twins.giveUp (.table i) filling s t like

theorem retireRetaining (threshold : least ≤ a.settings.minRetainBytes) (filling : Bool) :
    Lockstep least (a.retireRetaining filling) (b.retirePlain filling) := by
  refine .bind (lockstep_current a b) fun place => .bind (lockstep_tell a b _) fun _ => ?_
  by_cases empty : place = .sentinel
  · rw [if_pos empty, if_pos empty]
    exact .skip (by trivial) fun _ => .bind (lockstep_tell a b _) fun _ => .pure 0
  · rw [if_neg empty, if_neg empty, ← Program.bind_assoc]
    refine .bind (twins.giveUpUnlessWorth threshold empty filling) fun wasted => ?_
    refine .bind (.activate _) fun _ => .skip (by trivial) fun _ => ?_
    exact .bind (lockstep_tell a b _) fun _ => .pure wasted

theorem retire (threshold : least ≤ a.settings.minRetainBytes) (filling : Bool) :
    Lockstep least (a.retire filling) (b.retire filling) := by
  unfold Arena.retire
  rw [twins.mutator, twins.plain]
  exact twins.retireRetaining threshold filling

/-- There is nothing to hand back beside the active region. -/
theorem release (threshold : least ≤ a.settings.minRetainBytes) :
    Lockstep least a.release b.release := by
  unfold Arena.release
  rw [twins.mutator, twins.plain]
  dsimp only
  rw [← bind_done b.releasePlain]
  refine .bind (lockstep_releaseBy a b (twins.retireRetaining threshold)) fun released => ?_
  rw [releaseRetained, Program.bind_assoc]
  refine .skip_retained (.skip (by trivial) fun _ => .skip (by trivial) fun _ => ?_)
  exact .skip (by trivial) fun _ => .pure released

/-! ## Starting and installing -/

theorem start : Lockstep least a.start b.start := by
  unfold Arena.start
  rw [twins.mutator, twins.plain]
  dsimp only
  rw [← bind_done b.startPlain]
  refine .skip_retained ?_
  change Lockstep least (a.startPlain >>= fun _ => perform .clearWasted) _
  refine .bind (lockstep_startPlain a b) fun u => ?_
  rw [← bind_done (perform .clearWasted)]
  exact .skip (by trivial) fun _ => .pure u

theorem onInstall (place : Place) : Lockstep least (a.onInstall place) (b.onInstall place) := by
  unfold Arena.onInstall
  rw [twins.mutator, twins.plain]
  exact .pure ()

theorem installGranted (place : Place) (words : Nat) :
    Lockstep least (a.installGranted place words) (b.installGranted place words) := by
  refine .bind (.onHeap trivial) fun _ => .bind (.look place) fun slot => ?_
  refine .bind (.compute _) fun empty => .bind (.require _ rfl) fun _ => ?_
  refine .bind (twins.onInstall place) fun _ => .bind (.claim place words words) fun span => ?_
  cases span with
  | none => exact .fail rfl
  | some span =>
      exact .bind (lockstep_publish a b place) fun _ =>
        .bind (lockstep_tell a b _) fun _ => .pure _

/-- Both ask the supply for the same. -/
theorem install (words : Nat) : Lockstep least (a.install words) (b.install words) := by
  have purpose : b.purpose = a.purpose := by
    rw [Arena.purpose, Arena.purpose, twins.mutator, twins.plain]
  unfold Arena.install
  rw [purpose, twins.node]
  refine .bind (lockstep_current a b) fun place => .bind (.require _ rfl) fun _ => ?_
  refine .bind (lockstep_tell a b _) fun _ => .bind (.onHeap trivial) fun granted => ?_
  cases granted with
  | none => exact .bind (lockstep_tell a b _) fun _ => .pure none
  | some i => exact .bind (twins.installGranted (.table i) words) fun start => .pure (some start)

theorem adopt (place : Place) : Lockstep least (a.adopt place) (b.adopt place) := by
  refine .bind (lockstep_tell a b _) fun _ => .bind (lockstep_current a b) fun current => ?_
  refine .bind .count fun count => .bind (.require _ rfl) fun _ => ?_
  refine .bind (twins.onInstall place) fun _ => .bind (lockstep_publish a b place) fun _ => ?_
  exact lockstep_tell a b _

/-! ## Calls -/

theorem claimFresh (threshold : least ≤ a.settings.minRetainBytes) (min desired : Nat) :
    Lockstep least (a.claimFresh min desired) (b.claimFresh min desired) := by
  refine .bind (twins.retire threshold true) fun _ => .bind (twins.install desired) fun start => ?_
  cases start with
  | none => exact .bind (lockstep_tellSizes a b _ _ _ _) fun _ => .pure _
  | some start => exact .bind (lockstep_tellSizes a b _ _ _ _) fun _ => .pure _

theorem claimLocked (threshold : least ≤ a.settings.minRetainBytes) (min desired : Nat) :
    Lockstep least (a.claimLocked min desired) (b.claimLocked min desired) := by
  refine .bind (lockstep_claim a b min desired) fun span => ?_
  cases span with
  | none => exact twins.claimFresh threshold min desired
  | some span => exact .pure _

theorem claimForced (words : Nat) :
    Lockstep least (a.claimForced words) (b.claimForced words) := by
  refine .bind (lockstep_tellSizes a b _ _ _ _) fun _ => .bind (twins.install words) fun start => ?_
  cases start with
  | none => exact .bind (lockstep_tellSizes a b _ _ _ _) fun _ => .pure _
  | some start => exact .bind (lockstep_tellSizes a b _ _ _ _) fun _ => .pure _

/-- Whatever the two are asked, apart from the totals, they go in lockstep. -/
theorem answer (threshold : least ≤ a.settings.minRetainBytes) {c : Call} (other : c ≠ .summary) :
    Lockstep least (a.answer c) (b.answer c) := by
  cases c with
  | start => exact .bind twins.start fun _ => .pure _
  | retire filling => exact (twins.retire threshold filling).map _
  | release => exact (twins.release threshold).map _
  | allocate words => exact (lockstep_allocate a b words).map _
  | claim min desired => exact (lockstep_claim a b min desired).map _
  | claimRetained min desired => exact (lockstep_claimRetained a b min desired).map _
  | claimLocked min desired => exact (twins.claimLocked threshold min desired).map _
  | claimFresh min desired => exact (twins.claimFresh threshold min desired).map _
  | claimForced words => exact (twins.claimForced words).map _
  | install words => exact (twins.install words).map _
  | adopt place => exact .bind (twins.adopt place) fun _ => .pure _
  | held => exact lockstep_held.map _
  | summary => exact absurd rfl other
  | startPlain => exact .bind (lockstep_startPlain a b) fun _ => .pure _
  | retirePlain filling => exact (twins.retirePlain filling).map _
  | releasePlain => exact twins.releasePlain.map _

end Twins

end Arena

end RegionHeap
