import RegionHeap.Proofs.Arena.Course

/-!
# Calls that are answered

A call is in order if the arena is started for it, or idle for a start, if its sizes are in
order, and if it asks for a region only where one may come. An arena that keeps no region
while it is idle answers every call that is in order, and then keeps none while it is idle,
unless a release in the way of a plain arena has left a region aside.
-/

namespace RegionHeap

/-- A call that an arena with this store may be asked. -/
def Call.InOrder (s : Store) : Call → Prop
  | .start => s.registers.active = none
  | .retire _ | .release | .allocate _ | .held | .retirePlain _ | .releasePlain =>
      s.registers.active ≠ none
  | .claim min desired | .claimRetained min desired =>
      s.registers.active ≠ none ∧ min ≤ desired
  | .claimLocked min desired | .claimFresh min desired =>
      s.registers.active ≠ none ∧ min ≤ desired ∧ 0 < desired
  | .claimForced words | .install words => s.registers.active = some .sentinel ∧ 0 < words
  | .adopt (.table i) =>
      s.registers.active = some .sentinel ∧ s.registers.count = 0 ∧
        ∃ slot ∈ s.heap.supply.slots[i]?, slot.region.load ≠ 0
  | .adopt .sentinel | .summary | .startPlain => False

instance (s : Store) : DecidablePred (Call.InOrder s)
  | .start => inferInstanceAs (Decidable (_ = _))
  | .retire _ | .release | .allocate _ | .held | .retirePlain _ | .releasePlain =>
      inferInstanceAs (Decidable (_ ≠ _))
  | .claim .. | .claimRetained .. => inferInstanceAs (Decidable (_ ∧ _))
  | .claimLocked .. | .claimFresh .. => inferInstanceAs (Decidable (_ ∧ _ ∧ _))
  | .claimForced _ | .install _ => inferInstanceAs (Decidable (_ ∧ _))
  | .adopt (.table i) =>
      inferInstanceAs (Decidable (_ ∧ _ ∧ ∃ slot ∈ s.heap.supply.slots[i]?, _))
  | .adopt .sentinel | .summary | .startPlain => .isFalse id

/-- A call after which an idle arena still keeps a region. -/
def Call.Abandons (r : Registers) (c : Call) : Prop :=
  c = .releasePlain ∧ r.retained ≠ none

instance (r : Registers) (c : Call) : Decidable (c.Abandons r) :=
  inferInstanceAs (Decidable (_ ∧ _))

/-- While the arena is idle, it keeps no region. -/
def Registers.Settled (r : Registers) : Prop :=
  r.active = none → r.retained = none

namespace Arena

open Program

variable {a : Arena} {others : List Nat} {s s' : Store} {ds : List Deed}

/-- Only a stop makes an arena idle. -/
theorem Does.settled {d : Deed} (h : a.Does d s s') (goesOn : d ≠ .stop)
    (settled : s.registers.Settled) : s'.registers.Settled := by
  intro idle
  cases h with
  | claim | outrun | refuse | lose | note => exact settled idle
  | drop => rfl
  | stop => exact absurd rfl goesOn
  | start | giveUp | keep | displace | install | adopt => cases idle

theorem Deeds.settled (h : a.Deeds ds s s') (goesOn : Deed.stop ∉ ds)
    (settled : s.registers.Settled) : s'.registers.Settled := by
  induction h with
  | nil s => exact settled
  | cons first rest ih =>
      rw [List.mem_cons, not_or] at goesOn
      obtain ⟨ne, later⟩ := goesOn
      exact ih later (first.settled (Ne.symm ne) settled)

theorem Claiming.goesOn {min desired : Nat} {o : Except Fault (Option Span)}
    (h : Claiming min desired o ds) : Deed.stop ∉ ds := by
  cases h <;> simp

theorem Installing.goesOn {words : Nat} {o : Except Fault (Option Nat)}
    (h : Installing words o ds) : Deed.stop ∉ ds := by
  cases h <;> simp

theorem Adopting.goesOn {place : Place} {o : Except Fault Unit} (h : Adopting place o ds) :
    Deed.stop ∉ ds := by
  cases h <;> simp

theorem Starting.goesOn {anew : Bool} {o : Except Fault Unit} (h : Starting anew o ds) :
    Deed.stop ∉ ds := by
  cases h <;> simp

theorem Retiring.goesOn {filling counted : Bool} {waste : Nat}
    (h : Retiring filling counted waste ds) : Deed.stop ∉ ds := by
  cases h <;> simp

theorem Renewal.goesOn {desired : Nat} {counted : Bool} {o : Except Fault (Option Span)}
    (h : Renewal desired counted o ds) : Deed.stop ∉ ds := by
  cases h with
  | fault e => simp
  | renewed retiring installing => simp [retiring.goesOn, installing.goesOn]

theorem Locked.goesOn {min desired : Nat} {o : Except Fault (Option Span)}
    (h : a.Locked min desired o ds) : Deed.stop ∉ ds := by
  rcases h with h | ⟨before, after, rfl, h, h'⟩
  · exact h.goesOn
  · simp [h.goesOn, h'.goesOn]

/-- The program comes to its end without a fault and leaves the arena settled. -/
def Answers {α : Type} (x : Program α) (s : Store) : Prop :=
  ∃ v s', x.Leads s (.ok v) s' ∧ s'.registers.Settled

theorem Answers.map {α β : Type} {x : Program α} (h : Answers x s) (f : α → β) :
    Answers (f <$> x) s := by
  obtain ⟨v, s', leads, settled⟩ := h
  exact ⟨f v, s', leads.bind (Ends.done (f v) s').leads, settled⟩

/-- Where nothing stops the arena, success is enough. -/
theorem SucceedsBy.answers {α : Type} {x : Program α} {how : Except Fault α → List Deed → Prop}
    (h : a.SucceedsBy x s how) (settled : s.registers.Settled)
    (goesOn : ∀ {o ds}, how o ds → Deed.stop ∉ ds) : Answers x s := by
  obtain ⟨v, s', ds, ends, deeds, here⟩ := h
  exact ⟨v, s', ends.leads, deeds.settled (goesOn here) settled⟩

theorem Retires.answers {x : Program Nat} {filling counted : Bool}
    (h : a.Retires x s filling counted) (busy : s.registers.active ≠ none) : Answers x s := by
  obtain ⟨waste, s', ds, ends, -, -, left⟩ := h.busy busy
  refine ⟨waste, s', ends.leads, fun idle => ?_⟩
  rw [left] at idle
  cases idle

theorem release_answers (r : a.Ready others s) (busy : s.registers.active ≠ none) :
    Answers a.release s := by
  obtain ⟨s', leads, -, retained⟩ := release_leads r.able busy
  exact ⟨_, s', leads, fun _ => retained⟩

/-- A call that is in order is answered. -/
theorem answer_answers (r : a.Ready others s) (settled : s.registers.Settled) {c : Call}
    (inOrder : c.InOrder s) (keeps : ¬ c.Abandons s.registers) : Answers (a.answer c) s := by
  cases c with
  | start =>
      have started := start_succeedsBy (a := a) inOrder (settled inOrder)
      exact (started.answers settled Starting.goesOn).map fun _ => Answer.nothing
  | retire filling => exact ((retire_retires r.able filling).answers inOrder).map Answer.bytes
  | retirePlain filling => exact ((retirePlain_retires r.able filling).answers inOrder).map Answer.bytes
  | release => exact (release_answers r inOrder).map Answer.place
  | releasePlain =>
      obtain ⟨s', ends, same⟩ := releasePlain_ends r.able inOrder
      have none : s.registers.retained = none :=
        Classical.byContradiction fun kept => keeps ⟨rfl, kept⟩
      have answers : Answers a.releasePlain s :=
        ⟨_, s', ends.leads, fun _ => same.trans none⟩
      exact answers.map Answer.place
  | allocate words =>
      have served := allocate_succeedsBy r.able inOrder words
      exact (served.answers settled fun ⟨_, _, how⟩ => how.goesOn).map Answer.address
  | claim min desired =>
      have served := claimActive_succeedsBy r.able inOrder.1 inOrder.2
      exact (served.answers settled Claiming.goesOn).map Answer.span
  | claimRetained min desired =>
      have served := claimRetained_succeedsBy r.able inOrder.2
      exact (served.answers settled Claiming.goesOn).map Answer.span
  | claimLocked min desired =>
      obtain ⟨busy, le, pos⟩ := inOrder
      exact ((claimLocked_succeedsBy r busy le pos).answers settled Locked.goesOn).map Answer.span
  | claimFresh min desired =>
      obtain ⟨busy, -, pos⟩ := inOrder
      exact ((claimFresh_succeedsBy r busy min pos).answers settled Renewal.goesOn).map Answer.span
  | claimForced words =>
      have served := claimForced_succeedsBy r inOrder.1 inOrder.2
      exact (served.answers settled Installing.goesOn).map Answer.address
  | install words =>
      have served := install_succeedsBy r inOrder.1 inOrder.2
      exact (served.answers settled Installing.goesOn).map Answer.address
  | adopt place =>
      cases place with
      | sentinel => exact inOrder.elim
      | table i =>
          obtain ⟨active, zero, slot, here, full⟩ := inOrder
          obtain ⟨s', ends, deed⟩ := adopt_succeedsBy r.able active zero here full
          have adopted : a.SucceedsBy (a.adopt (.table i)) s (Adopting (.table i)) :=
            ⟨(), s', [.adopt i], ends, deed.single, .adopted i⟩
          exact (adopted.answers settled Adopting.goesOn).map fun _ => Answer.nothing
  | held =>
      have answers : Answers Arena.held s := ⟨_, s, (Ends.held s).leads, settled⟩
      exact answers.map Answer.place
  | summary | startPlain => exact inOrder.elim

end Arena

end RegionHeap
