import RegionHeap.Proofs.Arena.Usage
import RegionHeap.Proofs.World.Conservation
import RegionHeap.Proofs.World.Parsing

/-!
# Usage of an arena

An arena of application threads allocates from two regions, which come, are put aside,
displace each other and go back. Whatever the order, what it has handed out since it was
started is what it tells to be in use in its regions, and what it has reported of those that
went back.
-/

namespace RegionHeap

/-- Whether only the arena at position `k` is called, if any is. -/
def Action.only (k : Nat) : Action → Bool
  | .call j _ => j = k
  | _ => true

namespace World

variable {w w' w'' : World} {k words more : Nat} {site : Site}

open Arena (Spends)

/-- The words that the actions hand out. -/
def handedOut (w : World) (actions : List Action) : Nat :=
  ((w.history actions).map fun h => (h.handed.toList.map Span.words).sum).sum

@[simp] theorem handedOut_nil (w : World) : w.handedOut [] = 0 := rfl

@[simp] theorem handedOut_cons (w : World) (action : Action) (rest : List Action) :
    w.handedOut (action :: rest) =
      ((Happening.handed { before := w, action }).toList.map Span.words).sum +
        (w.perform action).2.handedOut rest := rfl

/-- The arena at position `k` has handed out so many words between two worlds. Their bytes
are in use in the regions that it holds, or were in use in those that it has handed back. -/
def Spent (k words : Nat) (w w' : World) : Prop :=
  ∃ site site', w.sites[k]? = some site ∧ w'.sites[k]? = some site' ∧
    site'.arena = site.arena ∧ Spends words (w.store site) (w'.store site')

theorem Spent.refl (here : w.sites[k]? = some site) : w.Spent k 0 w :=
  ⟨site, site, here, here, rfl, .refl _⟩

theorem Spent.trans (h : w.Spent k words w') (h' : w'.Spent k more w'')
    (same : w'.heap.supply.geometry = w.heap.supply.geometry) :
    w.Spent k (words + more) w'' := by
  obtain ⟨site, site₁, here, here₁, arena, spends⟩ := h
  obtain ⟨site₁', site₂, here₁', here₂, arena', spends'⟩ := h'
  cases here₁.symm.trans here₁'
  exact ⟨site, site₂, here, here₂, arena'.trans arena, spends.trans spends' same⟩

/-- A call on the arena hands out what its outcome tells. -/
theorem Orderly.spent_call (order : w.Orderly) (noRivals : w.heap.NoRivals) {c : Call}
    (here : w.sites[k]? = some site) (kind : site.arena.kind = .mutator)
    (none : c.adopted (w.call k c).1 = []) :
    w.Spent k (((c.span (w.call k c).1).toList.map Span.words).sum) (w.call k c).2 := by
  rcases order.call_cases k c with ⟨fault, eq⟩ | ⟨site', s, o, ds, ran⟩
  · rw [eq, Call.span_error]
    exact .refl here
  · cases here.symm.trans ran.here
    have adopts_nothing (i : Nat) (hi : Deed.adopt i ∈ ds) : False := by
      have adopted : i ∈ ds.flatMap Deed.adopted :=
        List.mem_flatMap.2 ⟨_, hi, List.mem_singleton_self i⟩
      rw [← ran.adopted, none] at adopted
      exact List.not_mem_nil adopted
    have spends := ran.deeds.spends (order.ready here) kind noRivals adopts_nothing
    rw [Arena.totalWords_eq, ran.spans] at spends
    refine ⟨site, _, here, ran.here_after, rfl, ?_⟩
    unfold World.store
    rw [ran.heap]
    exact spends

/-- Nothing but calls matters to what is in use in the regions of an arena. -/
theorem spent_of_not_call {action : Action} (tidy : action.Tidy w) (quiet : ¬ action.Contests)
    (other : ∀ k c, action ≠ .call k c) (order' : (w.perform action).2.Orderly)
    (here : w.sites[k]? = some site) :
    w.Spent k 0 (w.perform action).2 := by
  have same := sameBooks_of_not_call tidy other
  have here' : (w.perform action).2.sites[k]? = some site := same.sites ▸ here
  refine ⟨site, site, here, here', rfl, .same same.mutatorReturns ?_⟩
  refine Heap.loads_congr fun i hi => ?_
  obtain ⟨slot', found', -⟩ := order'.order.occupied i (mem_held here' hi)
  obtain ⟨slot, found, region⟩ := slot_of_not_call tidy quiet other found'
  have kept : action ≠ .recycle i := by
    rintro rfl
    exact tidy.2 (mem_held here hi)
  rw [if_neg kept] at region
  change (w.perform action).2.heap.loadOf i = w.heap.loadOf i
  rw [Heap.loadOf_eq found', Heap.loadOf_eq found, region]

theorem Orderly.spent_perform (order : w.Orderly) (noRivals : w.heap.NoRivals) {action : Action}
    (tidy : action.Tidy w) (quiet : ¬ action.Contests) (only : action.only k = true)
    (none : Happening.adopted { before := w, action } = []) (here : w.sites[k]? = some site)
    (kind : site.arena.kind = .mutator) :
    w.Spent k ((Happening.handed { before := w, action }).toList.map Span.words).sum
      (w.perform action).2 := by
  by_cases isCall : ∃ j c, action = .call j c
  · obtain ⟨j, c, rfl⟩ := isCall
    obtain rfl : j = k := by simpa [Action.only] using only
    exact order.spent_call noRivals here kind none
  · have other : ∀ k c, action ≠ .call k c := fun k c eq => isCall ⟨k, c, eq⟩
    rw [Happening.handed_of_not_call other]
    exact spent_of_not_call tidy quiet other
      (order.perform tidy (rested_of_noRivals noRivals action)) here

/-- The same of all that happens, one action after the other. -/
theorem Orderly.spent_after (order : w.Orderly) (noRivals : w.heap.NoRivals) {actions : List Action}
    (tidy : ∀ h ∈ w.history actions, h.action.Tidy h.before ∧ ¬ h.action.Contests)
    (only : ∀ action ∈ actions, action.only k = true) (none : w.adopted actions = [])
    (here : w.sites[k]? = some site) (kind : site.arena.kind = .mutator) :
    w.Spent k (w.handedOut actions) (w.after actions) := by
  induction actions generalizing w site with
  | nil => exact .refl here
  | cons action rest ih =>
      rw [history_cons] at tidy
      rw [adopted, history_cons, List.flatMap_cons] at none
      obtain ⟨now, later⟩ := List.append_eq_nil_iff.1 none
      obtain ⟨tidy₀, quiet⟩ : action.Tidy w ∧ ¬ action.Contests := tidy _ List.mem_cons_self
      have order₁ := order.perform tidy₀ (rested_of_noRivals noRivals action)
      have noRivals₁ := order.noRivals_perform noRivals tidy₀ quiet
      have first :=
        order.spent_perform noRivals tidy₀ quiet (only _ List.mem_cons_self) now here kind
      obtain ⟨site₀, site₁, here₀, here₁, arena, -⟩ := id first
      cases here.symm.trans here₀
      have rest := ih order₁ noRivals₁ (fun h hh => tidy h (List.mem_cons_of_mem _ hh))
        (fun a ha => only a (List.mem_cons_of_mem _ ha)) later here₁ (arena ▸ kind)
      exact first.trans rest (order.geometry_perform tidy₀)

/-- The bytes in use in the regions of an arena can always be told. -/
theorem Orderly.usedInRegions_eq (order : w.Orderly) (here : w.sites[k]? = some site) :
    w.usedInRegions site = .ok (w.heap.loads site.registers.regions) := by
  obtain ⟨said, run⟩ := Arena.usedInRegions_ends (order.ready here) []
  exact congrArg Prod.fst run

/-- Run from a fresh heap without rivals, an arena of application threads that adopts nothing
has handed out, since it was started, what it tells to be in use in its regions, and what it
has reported of the regions handed back. What it tells is never too much for a word and
counts no region twice. -/
theorem usage {w : World} (opened : w.Opened) (first rest : List Action) (k : Nat)
    (tidy : ∀ h ∈ w.history (first ++ .call k .start :: rest),
      h.action.Tidy h.before ∧ ¬ h.action.Contests)
    (mutator : ∃ site, (w.after first).sites[k]? = some site ∧ site.arena.kind = .mutator)
    (started : ((w.after first).call k .start).1 = .ok .nothing)
    (only : ∀ action ∈ rest, action.only k = true)
    (none : (w.after first).adopted (.call k .start :: rest) = []) :
    let start := w.after first
    let now := start.after (.call k .start :: rest)
    ∃ site used, now.sites[k]? = some site ∧ now.usedInRegions site = .ok used ∧
      start.handedOut (.call k .start :: rest) * now.heap.supply.geometry.wordBytes =
        used + MutatorReturn.totalUsed (start.returnsSince now) ∧
      used = (site.registers.regions.map now.heap.loadOf).sum ∧ site.registers.regions.Nodup := by
  intro start now
  rw [history_append, history_cons] at tidy
  have later := fun h hh => tidy h (List.mem_append_right _ (List.mem_cons_of_mem _ hh))
  obtain ⟨tidy₀, quiet⟩ : (Action.call k .start).Tidy start ∧ ¬ (Action.call k .start).Contests :=
    tidy _ (List.mem_append_right _ List.mem_cons_self)
  have u : start.Undisturbed w.settings.minFillWords w.heap.supply.geometry :=
    opened.undisturbed.after fun h hh => tidy h (List.mem_append_left _ hh)
  have u₁ : (start.call k .start).2.Undisturbed _ _ := u.perform tidy₀ quiet
  have u_now : now.Undisturbed w.settings.minFillWords w.heap.supply.geometry := u₁.after later
  -- once started, the arena holds nothing, and nothing was handed back since
  obtain ⟨site₀, here₀, kind₀⟩ := mutator
  obtain ⟨⟨site₁, wasted, here₁, kind₁, tenancy⟩, kept⟩ :=
    u.orderly.tenancy_start here₀ kind₀ started
  obtain ⟨_, _, many, -⟩ := tenancy.books
  have empty : site₁.registers.regions = [] :=
    List.length_eq_zero_iff.1 (Nat.eq_zero_of_add_eq_zero many).2
  obtain ⟨site₁', site, here₁', here, arena, backs, records, total⟩ :=
    u₁.orderly.spent_after u₁.noRivals later only none here₁ kind₁
  cases here₁.symm.trans here₁'
  have since : start.returnsSince now = backs := by
    have same : (start.call k .start).2.heap.supply.mutatorReturns =
        start.heap.supply.mutatorReturns := congrArg Supply.mutatorReturns kept
    have records : now.heap.supply.mutatorReturns =
        (start.call k .start).2.heap.supply.mutatorReturns ++ backs := records
    rw [returnsSince, records, same, List.drop_left]
  have words : start.handedOut (.call k .start :: rest) =
      (start.call k .start).2.handedOut rest := Nat.zero_add _
  have nodup := (List.nodup_append.1 (u_now.orderly.ready here).order.nodup_held).1
  refine ⟨site, _, here, u_now.orderly.usedInRegions_eq here, ?_, rfl, nodup⟩
  rw [since, words, u_now.geometry, ← u₁.geometry]
  have begun : ((start.call k .start).2.store site₁).inUse = 0 := congrArg (Heap.loads _) empty
  rw [begun, Nat.zero_add] at total
  exact total.symm

/-- Two regions are put aside, one of which displaces the other, and both are claimed from. -/
theorem usage_small :
    let rest : List Action := [.call 0 (.claimLocked 5 5), .call 0 (.claimLocked 4 4),
      .call 0 (.claimRetained 1 2), .call 0 (.claimLocked 6 6), .call 0 (.retire true),
      .call 0 (.claimForced 2)]
    let now := small.after (.call 0 .start :: rest)
    ∃ site used, now.sites[0]? = some site ∧ now.usedInRegions site = .ok used ∧
      small.handedOut (.call 0 .start :: rest) * 8 =
        used + MutatorReturn.totalUsed (small.returnsSince now) := by
  intro rest now
  obtain ⟨site, used, here, told, total, -⟩ := usage small_opened [] rest 0
    (by decide +kernel) ⟨_, rfl, rfl⟩ (by decide +kernel) (by decide +kernel) (by decide +kernel)
  exact ⟨site, used, here, told, total⟩

end World

end RegionHeap
