import RegionHeap.Race.Shared
import RegionHeap.Proofs.Program.Only

/-!
# What threads that share an arena keep to

If the attempts of the threads take only steps of a kind, then whatever such steps keep is
kept by the whole race, however the steps of the threads interleave, provided that the accesses
of a claim to a cursor keep it too.
-/

namespace RegionHeap.Race

variable {P : Step → Prop} {inv : Store → Prop} {a : Arena}

/-- The attempts of threads that share the arena keep to steps of a kind, and these steps keep
a property of the store. -/
structure Keeping (a : Arena) (P : Step → Prop) (inv : Store → Prop) : Prop where
  unlocked : ∀ wish : Wish, (wish.unlocked a).Only P
  locked : ∀ wish : Wish, (wish.locked a).Only P
  step : ∀ (st : Step) (s s' : Store) (answer : st.Answer), P st → inv s →
    st.perform s = .ok (answer, s') → inv s'
  access : ∀ {phase : ClaimPhase} {place : Place} {min desired : Nat} {s s' : Store}
    {spurious : Bool} {progress : ClaimProgress}, inv s →
    Flight.access phase place min desired s spurious = .ok (progress, s') → inv s'

/-- The program that the thread is on its way with keeps to steps of a kind. -/
def Thread.Only (P : Step → Prop) : Thread → Prop
  | .unlocked _ flight | .locked _ flight => flight.program.Only P
  | .idle _ | .waiting _ | .stopped _ => True

/-- A step of a thread on its way leaves it on its way. -/
theorem Flight.step_keeps (keeping : Keeping a P inv) {f f' : Flight} {s s' : Store}
    {spurious : Bool} (only : f.program.Only P) (holds : inv s)
    (stepped : f.step s spurious = .ok (f', s')) : f'.program.Only P ∧ inv s' := by
  rcases f with ⟨program, phase⟩
  cases program with
  | done value =>
      cases stepped
      exact ⟨trivial, holds⟩
  | fail fault => cases stepped
  | step st next =>
      by_cases claims : ∃ place min desired, st = .claim place min desired
      · obtain ⟨place, min, desired, rfl⟩ := claims
        rw [step_claim] at stepped
        cases accessed : access phase place min desired s spurious with
        | error fault => simp [accessed, Except.map] at stepped
        | ok r =>
            have kept := keeping.access holds accessed
            simp only [accessed, Except.map] at stepped
            cases progress : r.1 with
            | pending phase' =>
                rw [progress] at stepped
                cases stepped
                exact ⟨only, kept⟩
            | answered result =>
                rw [progress] at stepped
                cases stepped
                exact ⟨only.2 result, kept⟩
      · rw [step_of_ne_claim fun place min desired eq => claims ⟨_, _, _, eq⟩] at stepped
        cases performed : st.perform s with
        | error fault => simp [performed, Except.map] at stepped
        | ok r =>
            rw [performed] at stepped
            cases stepped
            exact ⟨only.2 r.1, keeping.step st s r.2 r.1 only.1 holds performed⟩

/-- An access of a claim changes the heap and nothing else. -/
theorem Flight.access_keeps {phase : ClaimPhase} {place : Place} {min desired : Nat} {s s' : Store}
    {spurious : Bool} {progress : ClaimProgress}
    (accessed : access phase place min desired s spurious = .ok (progress, s')) :
    s' = { s with heap := s'.heap } := by
  rw [access_eq] at accessed
  cases found : s.heap.find place with
  | error fault => simp [found, Except.bind] at accessed
  | ok slot =>
      cases stepped : slot.step min desired spurious phase with
      | error fault => simp [found, stepped, Except.bind, Except.map] at accessed
      | ok r =>
          simp only [found, stepped, Except.bind, Except.map] at accessed
          cases accessed
          rfl

namespace Shared

variable {r : Shared} {t : Thread}

/-- All threads keep to steps of a kind, and the property holds of the store. -/
structure Keeps (a : Arena) (P : Step → Prop) (inv : Store → Prop) (r : Shared) : Prop where
  arena : r.arena = a
  store : inv r.store
  threads : ∀ t ∈ r.threads, t.Only P

theorem Keeps.setThread (h : r.Keeps a P inv) {thread : Nat} (only : t.Only P) :
    (r.setThread thread t).Keeps a P inv := by
  refine ⟨h.arena, h.store, fun other mem => ?_⟩
  rcases List.mem_or_eq_of_mem_set mem with old | rfl
  · exact h.threads other old
  · exact only

theorem Keeps.withStore (h : r.Keeps a P inv) {store : Store} (holds : inv store) :
    ({ r with store } : Shared).Keeps a P inv :=
  ⟨h.arena, holds, h.threads⟩

theorem Keeps.withHolder (h : r.Keeps a P inv) (holder : Option Nat) :
    ({ r with holder } : Shared).Keeps a P inv :=
  ⟨h.arena, h.store, h.threads⟩

theorem Keeps.answer (h : r.Keeps a P inv) (thread : Nat) (wish : Wish) (underLock : Bool)
    (result : Option Span) : (r.answer thread wish underLock result).Keeps a P inv := by
  refine Keeps.setThread ?_ trivial
  exact ⟨h.arena, h.store, h.threads⟩

theorem Keeps.stepUnlocked (keeping : Keeping a P inv) (h : r.Keeps a P inv) {flight : Flight}
    (only : flight.program.Only P) (thread : Nat) (wish : Wish) (spurious : Bool) :
    (r.stepUnlocked thread wish flight spurious).Keeps a P inv := by
  unfold Shared.stepUnlocked
  split
  · exact h.setThread trivial
  · exact h.answer ..
  · split
    · exact h.setThread trivial
    · next stepped =>
        obtain ⟨only', holds⟩ := Flight.step_keeps keeping only h.store stepped
        exact (h.withStore holds).setThread only'

theorem Keeps.stepLocked (keeping : Keeping a P inv) (h : r.Keeps a P inv) {flight : Flight}
    (only : flight.program.Only P) (thread : Nat) (wish : Wish) (spurious : Bool) :
    (r.stepLocked thread wish flight spurious).Keeps a P inv := by
  unfold Shared.stepLocked
  split
  · exact (h.withHolder none).answer ..
  · split
    · exact h.setThread trivial
    · next stepped =>
        obtain ⟨only', holds⟩ := Flight.step_keeps keeping only h.store stepped
        exact (h.withStore holds).setThread only'

theorem Keeps.move (keeping : Keeping a P inv) (h : r.Keeps a P inv) (m : SharedMove) :
    (r.move m).Keeps a P inv := by
  have unlocked (wish : Wish) : (wish.unlocked r.arena).Only P := h.arena ▸ keeping.unlocked wish
  have locked (wish : Wish) : (wish.locked r.arena).Only P := h.arena ▸ keeping.locked wish
  unfold Shared.move
  cases m with
  | ask thread wish =>
      dsimp only
      split
      · exact h.setThread (unlocked wish)
      · exact h
  | step thread spurious =>
      dsimp only
      split
      · next here => exact h.stepUnlocked keeping (h.threads _ (List.mem_of_getElem? here)) ..
      · next here => exact h.stepLocked keeping (h.threads _ (List.mem_of_getElem? here)) ..
      · next wish here =>
          split
          · exact (h.withHolder (some thread)).setThread (locked wish)
          · exact h
      · exact h

theorem Keeps.turn (keeping : Keeping a P inv) (h : r.Keeps a P inv) (words thread : Nat)
    (spurious : Bool) : (r.turn words thread spurious).Keeps a P inv := by
  unfold Shared.turn
  split
  · exact h.move keeping _
  · exact h
  · exact h
  · exact h
  · exact h.move keeping _

theorem Keeps.rounds (keeping : Keeping a P inv) (h : r.Keeps a P inv) (words n : Nat) :
    (rounds words n r).Keeps a P inv := by
  induction n generalizing r with
  | zero => exact h
  | succ n ih =>
      unfold Shared.rounds
      split
      · exact h
      · apply ih
        apply List.foldlRecOn (motive := fun r : Shared => r.Keeps a P inv) _ _ h
        intro r hr thread _
        exact hr.turn keeping words thread false

/-- What the attempts keep is kept when an arena is drained. -/
theorem drain_keeps (keeping : Keeping a P inv) {s : Store} (holds : inv s) (threads words : Nat) :
    inv ((Shared.new a s threads).drain words).store := by
  have fresh : (Shared.new a s threads).Keeps a P inv := by
    refine ⟨rfl, holds, fun t mem => ?_⟩
    rw [List.eq_of_mem_replicate mem]
    exact trivial
  exact (fresh.rounds keeping words _).store

end Shared

end RegionHeap.Race
