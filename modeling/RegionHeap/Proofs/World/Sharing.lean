import RegionHeap.Proofs.Arena.Tenancy
import RegionHeap.Proofs.Race.Outcome
import RegionHeap.Proofs.World.Opened

/-!
# Sharing an arena

Any number of threads share an arena that was just started. However their steps interleave,
no word is handed out twice, and what the arena reports of a region that goes back is what
the threads have of it, then and ever after.
-/

namespace RegionHeap

namespace World

variable {w : World} {k : Nat} {site : Site}

/-- An arena that was just started holds the sentinel and has put nothing aside. -/
theorem Orderly.just_started (order : w.Orderly)
    (started : (w.call k .start).1 = .ok .nothing)
    (here : (w.call k .start).2.sites[k]? = some site) :
    site.registers.active = some .sentinel ∧ site.registers.retained = none := by
  rcases order.call_cases k .start with ⟨fault, eq⟩ | ⟨site', s, o, ds, ran⟩
  · rw [eq] at started
    cases started
  · cases here.symm.trans ran.here_after
    have outcome := (ran.outcome nofun).symm.trans started
    obtain rfl := (outcome ▸ ran.course).of_start
    have agree := order.agree site' (List.mem_of_getElem? ran.here)
    cases ran.deeds with
    | cons first rest =>
        cases rest
        cases first with
        | start anew idle none =>
            refine ⟨rfl, ?_⟩
            by_contra kept
            exact kept (none (decide_eq_true (agree.keeper kept)))

/-- Threads share an arena that was just started, without a lock at first, and with the
lock if they are refused. Whatever the order of their steps, nobody is stopped by a fault,
and the spans that they have are as they wished and have no byte in common with each other
or with a filler. Of every region that went back, what was reported is what they have of
it; and whatever they do later, nobody takes anything more from it. -/
theorem sharing {w : World} (opened : w.Opened) (actions : List Action)
    (tidy : ∀ h ∈ w.history actions, h.action.Tidy h.before ∧ ¬ h.action.Contests)
    {k : Nat} (started : ((w.after actions).call k .start).1 = .ok .nothing)
    {site : Site} (here : ((w.after actions).call k .start).2.sites[k]? = some site)
    (threads : Nat) (ms : List Race.SharedMove) (apt : ∀ m ∈ ms, m.Apt site.arena) :
    let now := ((w.after actions).call k .start).2
    let race := (Race.Shared.new site.arena (now.store site) threads).moves ms
    ∃ late, race.Brought now.heap.supply late ∧
      ∀ more : List Race.SharedMove, (∀ m ∈ more, m.Apt site.arena) →
        ∀ q ∈ now.heap.supply.returnsSince race.store.heap.supply, ∃ slot,
          race.store.heap.supply.slots[q.1]? = some slot ∧
            (race.moves more).store.heap.supply.slots[q.1]? = some slot ∧
              ∀ p ∈ (race.moves more).served, slot.region.contains p.2.start = true →
                p ∈ race.served ++ late := by
  intro now race
  obtain ⟨order, noRivals⟩ := opened.orderly_after tidy
  obtain ⟨active, retained⟩ := order.just_started started here
  have order' : now.Orderly := order.call nofun
  have noRivals' : now.heap.NoRivals :=
    order.noRivals_perform (a := .call k .start) noRivals nofun id
  have sound := Race.Shared.Sound.new (s := now.store site)
    (order'.suits site (List.mem_of_getElem? here)) order'.order noRivals' active retained threads
  obtain ⟨book, sound', -⟩ := sound.moves apt
  refine ⟨_, sound'.brought, fun more aptMore q hq => ?_⟩
  have aptNow : ∀ m ∈ more, m.Apt race.arena := by
    rw [Race.Shared.moves_arena]
    exact aptMore
  obtain ⟨book', sound'', grows⟩ := sound'.moves aptNow
  obtain ⟨slot, found, -⟩ := sound'.brought.reported q hq
  exact ⟨slot, found, (grows.frozen q hq).trans found,
    fun p hp inside => sound'.closed sound'' grows hq found hp inside⟩

/-- Two threads share an arena of a collection. The first region goes back with a filler at
its end. -/
theorem sharing_small :
    let now := (small.call 1 .start).2
    let ms : List Race.SharedMove := (List.replicate 70 [
      .ask 0 { min := 5, desired := 5 }, .step 0 false,
      .ask 1 { min := 4, desired := 4 }, .step 1 false]).flatten
    let site : Site :=
      { arena := .survivor 0 .small, registers := { active := some .sentinel } }
    let race := (Race.Shared.new site.arena (now.store site) 2).moves ms
    now.heap.supply.returnsSince race.store.heap.supply = [(0, 40)] ∧
      race.served = [(1, ⟨4160, 4⟩), (0, ⟨4096, 5⟩)] ∧
        ∃ late, race.Brought now.heap.supply late := by
  intro now ms site race
  have started : ((small.after []).call 1 .start).1 = .ok .nothing := by decide +kernel
  have here : ((small.after []).call 1 .start).2.sites[1]? = some site := by decide +kernel
  obtain ⟨late, brought, -⟩ := sharing small_opened [] (by decide +kernel) started here 2 ms
    (by decide +kernel)
  exact ⟨by decide +kernel, by decide +kernel, late, brought⟩

end World

end RegionHeap
