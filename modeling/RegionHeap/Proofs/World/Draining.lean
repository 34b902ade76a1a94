import RegionHeap.Proofs.Race.Drained
import RegionHeap.Proofs.World.Opened

/-!
# Draining an arena

Threads claim the same number of words from an arena again and again until they are refused
under the lock. Whatever the order of their steps, the same words are handed out in the end.
-/

namespace RegionHeap

namespace Race

/-- A thread claims exactly so many words, if it makes a wish. -/
def SharedMove.Claims (words : Nat) : SharedMove → Prop
  | .ask _ wish => wish = { min := words, desired := words }
  | .step .. => True

instance (words : Nat) : DecidablePred (SharedMove.Claims words)
  | .ask _ wish => inferInstanceAs (Decidable (wish = { min := words, desired := words }))
  | .step .. => .isTrue trivial

namespace Shared

/-- No thread comes or goes. -/
theorem move_threads_length (r : Shared) (m : SharedMove) :
    (r.move m).threads.length = r.threads.length := by
  have set (r : Shared) (thread : Nat) (t : Thread) :
      (r.setThread thread t).threads.length = r.threads.length := List.length_set ..
  cases m with
  | ask thread wish =>
      simp only [move]
      split
      · exact set ..
      · rfl
  | step thread spurious =>
      simp only [move]
      split
      · simp only [stepUnlocked]
        split
        · exact set ..
        · exact set ..
        · split <;> exact set ..
      · simp only [stepLocked]
        split
        · exact set ..
        · split <;> exact set ..
      · split
        · exact set ..
        · rfl
      · rfl

theorem moves_threads_length (r : Shared) (ms : List SharedMove) :
    (r.moves ms).threads.length = r.threads.length := by
  induction ms generalizing r with
  | nil => rfl
  | cons m ms ih => exact (ih (r.move m)).trans (move_threads_length r m)

end Shared

end Race

namespace World

/-- Any number of threads claim the same number of words from an arena that was started, each
until it is refused under the lock. Nobody is stopped by a fault. When all have been refused,
they have all cuts that fit into the region that was active at first, from its cursor on, and
into every region that was free, from its bottom; each of them once. No region is free any
more, the arena holds the sentinel, and every region that was free was counted. So what is
handed out does not depend on the order in which the threads took their steps. -/
theorem draining {w : World} (opened : w.Opened) (actions : List Action)
    (tidy : ∀ h ∈ w.history actions, h.action.Tidy h.before ∧ ¬ h.action.Contests)
    {k : Nat} {site : Site} (here : (w.after actions).sites[k]? = some site)
    (started : site.registers.active ≠ none) {words : Nat} (pos : 0 < words)
    (fits : words ≤ (w.after actions).heap.supply.geometry.regionWords)
    (threads : Nat) (ms : List Race.SharedMove)
    (claims : ∀ m ∈ ms, m.Claims words) :
    let now := (w.after actions).store site
    let race := (Race.Shared.new site.arena now threads).moves ms
    race.fault? = none ∧
      (0 < threads → race.isOver = true → race.Drained now words) := by
  intro now race
  obtain ⟨order, noRivals⟩ := opened.orderly_after tidy
  let d : Race.Drainage := {
    arena := site.arena
    words
    first := now
    others := (w.after actions).heldBeside k
    ready := order.ready here
    noRivals
    busy := started
    pos
    fits }
  obtain ⟨z, h⟩ := (d.disciplined_new threads).moves d.obeyed
    fun thread wish mem => claims (.ask thread wish) mem
  refine ⟨h.fault?_eq_none, fun some ended => h.drained ?_ ended⟩
  intro none
  have length := Race.Shared.moves_threads_length (Race.Shared.new site.arena now threads) ms
  rw [none, Race.Shared.new, List.length_replicate, List.length_nil] at length
  omega

/-- Two threads drain an arena of a collection by claims for five words. Six words are left in
the first region and eight in each of the others, so each has room for one claim. -/
theorem draining_small :
    let actions : List Action := [.call 1 .start, .call 1 (.claimLocked 2 2)]
    let site : Site := {
      arena := .survivor 0 .small
      registers := { active := some (.table 0), count := 1 } }
    let now := (small.after actions).store site
    let ms : List Race.SharedMove := (List.replicate 3 (
      [.ask 0 { min := 5, desired := 5 }, .ask 1 { min := 5, desired := 5 }] ++
        (List.replicate 80 [.step 0 false, .step 1 false]).flatten)).flatten
    let race := (Race.Shared.new site.arena now 2).moves ms
    race.isOver = true ∧ race.starts = [4288, 4224, 4160, 4112] ∧ race.Drained now 5 := by
  intro actions site now ms race
  have here : (small.after actions).sites[1]? = some site := by decide +kernel
  have ended : race.isOver = true := by decide +kernel
  have claims : ∀ m ∈ ms, m.Claims 5 := by decide +kernel
  obtain ⟨-, drained⟩ := draining small_opened actions (by decide +kernel) here (by decide)
    (by decide) (by decide +kernel) 2 ms claims
  exact ⟨ended, by decide +kernel, drained (by decide) ended⟩

end World

end RegionHeap
