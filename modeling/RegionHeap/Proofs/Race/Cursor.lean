import RegionHeap.Proofs.Race.Flight
import RegionHeap.Proofs.Region.Bounds
import RegionHeap.Region.Command

/-!
# Moves at a cursor

Every move of a race at a cursor is one of four: nothing comes of it, a thread starts a
claim, a thread accesses the cursor and has to try again, or a thread is answered what the
region answers a claim at that moment. So the cursor stays in bounds whatever threads do, and
nobody is stopped.
-/

namespace RegionHeap

namespace Race

/-- A claimant is not stopped, and claims no more than it desires. -/
def Claimant.NotStopped : Claimant → Prop
  | .idle _ => True
  | .claiming min desired _ => min ≤ desired
  | .stopped _ => False

/-- A claim that is started is for no more than is desired. -/
def CursorMove.Proper : CursorMove → Prop
  | .ask _ min desired => min ≤ desired
  | .access .. => True

instance (m : CursorMove) : Decidable m.Proper :=
  match m with
  | .ask _ min desired => inferInstanceAs (Decidable (min ≤ desired))
  | .access .. => inferInstanceAs (Decidable True)

namespace AtCursor

/-- The cursor is in bounds, and no thread is stopped. -/
structure Sound (race : AtCursor) : Prop where
  inBounds : race.region.InBounds
  notStopped : ∀ c ∈ race.claimants, c.NotStopped

/-- What comes of a move. -/
inductive Moved (race : AtCursor) : CursorMove → AtCursor → Prop
  | still (m : CursorMove) : Moved race m race
  | asked {thread min desired : Nat} {refused : Bool}
      (idle : race.claimants[thread]? = some (.idle refused)) :
      Moved race (.ask thread min desired)
        (race.setClaimant thread (.claiming min desired .unread))
  | waited {thread min desired : Nat} {spurious : Bool} {phase : ClaimPhase}
      (claiming : race.claimants[thread]? = some (.claiming min desired phase))
      (phase' : ClaimPhase) :
      Moved race (.access thread spurious)
        (race.setClaimant thread (.claiming min desired phase'))
  | answered {thread min desired : Nat} {spurious : Bool} {phase : ClaimPhase}
      {result : Option Span} {region : Region}
      (claiming : race.claimants[thread]? = some (.claiming min desired phase))
      (claimed : race.region.claim min desired = .ok (result, region)) :
      Moved race (.access thread spurious)
        ({ race with
            region
            answers := { thread, min, desired, result } :: race.answers }.setClaimant thread
          (.idle result.isNone))

variable {race race' : AtCursor}

/-- A claimant after another was set is that one, or the one before. -/
theorem claimant_setClaimant {thread u : Nat} {c d : Claimant}
    (found : (race.setClaimant thread c).claimants[u]? = some d) :
    (u = thread ∧ d = c) ∨ race.claimants[u]? = some d := by
  simp only [setClaimant, List.getElem?_set] at found
  split at found
  · rename_i here
    split at found
    · cases found
      exact .inl ⟨here.symm, rfl⟩
    · cases found
  · exact .inr found

/-- A thread that claims after a move claimed the same before, or has started with it. -/
theorem Moved.claiming {m : CursorMove} (moved : race.Moved m race') {thread min desired : Nat}
    {phase : ClaimPhase}
    (now : race'.claimants[thread]? = some (.claiming min desired phase)) :
    (∃ phase', race.claimants[thread]? = some (.claiming min desired phase')) ∨
      (m = .ask thread min desired ∧
        ∃ refused, race.claimants[thread]? = some (.idle refused)) := by
  cases moved with
  | still => exact .inl ⟨phase, now⟩
  | asked idle =>
      rcases claimant_setClaimant now with ⟨rfl, eq⟩ | before
      · cases eq
        exact .inr ⟨rfl, _, idle⟩
      · exact .inl ⟨phase, before⟩
  | waited claiming phase' =>
      rcases claimant_setClaimant now with ⟨rfl, eq⟩ | before
      · cases eq
        exact .inl ⟨_, claiming⟩
      · exact .inl ⟨phase, before⟩
  | answered claiming claimed =>
      rcases claimant_setClaimant now with ⟨rfl, eq⟩ | before
      · cases eq
      · exact .inl ⟨phase, before⟩

/-- A move answers nobody and leaves the region as it is, or it answers one claim. -/
theorem Moved.served {m : CursorMove} (moved : race.Moved m race') :
    (race'.region = race.region ∧ race'.answers = race.answers) ∨
      ∃ a, race'.answers = a :: race.answers ∧
        race.region.claim a.min a.desired = .ok (a.result, race'.region) ∧
          ∃ phase, race.claimants[a.thread]? = some (.claiming a.min a.desired phase) := by
  cases moved with
  | still => exact .inl ⟨rfl, rfl⟩
  | asked => exact .inl ⟨rfl, rfl⟩
  | waited => exact .inl ⟨rfl, rfl⟩
  | answered claiming claimed => exact .inr ⟨_, rfl, claimed, _, claiming⟩

theorem Moved.length {m : CursorMove} (moved : race.Moved m race') :
    race'.claimants.length = race.claimants.length := by
  cases moved with
  | still => rfl
  | asked => exact List.length_set
  | waited => exact List.length_set
  | answered => exact List.length_set

namespace Sound

theorem new {region : Region} (inBounds : region.InBounds) (threads : Nat) :
    (AtCursor.new region threads).Sound := by
  constructor
  · exact inBounds
  · intro c hc
    rw [List.eq_of_mem_replicate hc]
    trivial

theorem moved (sound : race.Sound) (m : CursorMove) : race.Moved m (race.move m) := by
  cases m with
  | ask thread min desired =>
      simp only [AtCursor.move]
      split
      · rename_i idle
        exact .asked idle
      · exact .still _
  | access thread spurious =>
      simp only [AtCursor.move]
      split
      · rename_i min desired phase claiming
        have le : min ≤ desired := sound.notStopped _ (List.mem_of_getElem? claiming)
        have claimed := sound.inBounds.claim_eq le
        rcases ClaimPhase.step_of_claim claimed spurious phase with ⟨phase', pending⟩ | answered
        · simp only [access, pending]
          exact .waited claiming phase'
        · simp only [access, answered]
          exact .answered claiming claimed
      · exact .still _

theorem setClaimant (sound : race.Sound) (thread : Nat) {c : Claimant} (notStopped : c.NotStopped) :
    (race.setClaimant thread c).Sound := by
  constructor
  · exact sound.inBounds
  · intro d hd
    rcases List.mem_or_eq_of_mem_set hd with old | rfl
    · exact sound.notStopped d old
    · exact notStopped

theorem move (sound : race.Sound) {m : CursorMove} (proper : m.Proper) : (race.move m).Sound := by
  have moved := sound.moved m
  revert moved
  generalize race.move m = race'
  intro moved
  cases moved with
  | still => exact sound
  | asked idle => exact sound.setClaimant _ proper
  | waited claiming phase' =>
      have le := sound.notStopped _ (List.mem_of_getElem? claiming)
      exact sound.setClaimant _ le
  | answered claiming claimed =>
      apply Sound.setClaimant (c := .idle _)
      · trivial
      · exact ⟨sound.inBounds.claim claimed, sound.notStopped⟩

theorem moves (sound : race.Sound) {ms : List CursorMove} (proper : ∀ m ∈ ms, m.Proper) :
    (race.moves ms).Sound := by
  induction ms generalizing race with
  | nil => exact sound
  | cons m ms ih =>
      rw [List.forall_mem_cons] at proper
      exact ih (sound.move proper.1) proper.2

/-- Nobody is stopped. -/
theorem fault?_eq_none (sound : race.Sound) : race.fault? = none := by
  unfold fault?
  rw [List.findSome?_eq_none_iff]
  intro c hc
  cases c with
  | idle refused => rfl
  | claiming min desired phase => rfl
  | stopped fault => exact (sound.notStopped _ hc).elim

end Sound

/-! ## Races that are run to the end -/

section
variable {P : AtCursor → Prop}
  (keep : ∀ {race : AtCursor} {m : CursorMove}, m.Proper → P race → P (race.move m))
include keep

/-- What proper moves keep is kept by a thread that claims so many words at a time. -/
theorem turn_keeps (holds : P race) (words thread : Nat) (spurious : Bool) :
    P (race.turn words thread spurious) := by
  unfold turn
  split
  · exact keep (m := .ask thread words words) (Nat.le_refl words) holds
  · exact keep (m := .access thread spurious) trivial holds
  · exact holds

theorem rounds_keeps (holds : P race) (words n : Nat) : P (rounds words n race) := by
  induction n generalizing race with
  | zero => exact holds
  | succ n ih =>
      unfold rounds
      split
      · exact holds
      · apply ih
        apply List.foldlRecOn (motive := P) _ _ holds
        intro r hr thread _
        exact turn_keeps keep hr words thread false

theorem drain_keeps (holds : P race) (words : Nat) : P (race.drain words) :=
  rounds_keeps keep holds words _

end

theorem Sound.drain (sound : race.Sound) (words : Nat) : (race.drain words).Sound :=
  drain_keeps (fun proper sound => sound.move proper) sound words

/-- All that the threads do to a region is to move its cursor over words that were left. -/
theorem Sound.drain_took (sound : race.Sound) (words : Nat) :
    ∃ n, n ≤ race.region.left ∧ (race.drain words).region = race.region.took n := by
  have start : race.Sound ∧ ∃ n, n ≤ race.region.left ∧ race.region = race.region.took n :=
    ⟨sound, 0, Nat.zero_le _, race.region.took_zero.symm⟩
  refine (drain_keeps (P := fun later => later.Sound ∧
    ∃ n, n ≤ race.region.left ∧ later.region = race.region.took n) ?_ start words).2
  rintro later m proper ⟨sound, n, fits, taken⟩
  refine ⟨sound.move proper, ?_⟩
  rcases (sound.moved m).served with ⟨same, -⟩ | ⟨a, -, claimed, -⟩
  · exact ⟨n, fits, same ▸ taken⟩
  · obtain ⟨-, ⟨-, same⟩ | ⟨words, -, more, -, -, -, moved⟩⟩ := sound.inBounds.claimed claimed
    · exact ⟨n, fits, same ▸ taken⟩
    · have left := Region.left_took fits
      rw [taken] at more moved
      exact ⟨n + words, by omega, moved.trans (Region.took_took _ _ _)⟩

end AtCursor

end Race

end RegionHeap
