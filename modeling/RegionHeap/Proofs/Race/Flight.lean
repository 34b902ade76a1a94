import RegionHeap.Proofs.Arena.Frame
import RegionHeap.Race.Shared

/-!
# Programs on their way

A claim among threads takes several accesses to a cursor, but all that it does is done at
the last of them, and that is what the claim would do in one step. So a program on its way
takes its steps one by one, each at a moment of its own.
-/

namespace RegionHeap

/-- An access leaves the claim pending, or does what the claim would do at that moment. -/
theorem ClaimPhase.step_of_claim {r r' : Region} {min desired : Nat} {span : Option Span}
    (claimed : r.claim min desired = .ok (span, r')) (spurious : Bool) (phase : ClaimPhase) :
    (∃ phase', phase.step r min desired spurious = .ok (.pending phase', r)) ∨
      phase.step r min desired spurious = .ok (.answered span, r') := by
  unfold Region.claim at claimed
  split at claimed
  · cases claimed
  · rename_i le
    cases proposed : r.propose r.top min desired with
    | error fault =>
        simp [proposed, Bind.bind, Except.bind] at claimed
    | ok proposal =>
        have resumed : resume r r.top min desired = .ok (match proposal with
            | none => .answered none
            | some _ => .pending (.read r.top)) := by
          simp only [resume, proposed, Bind.bind, Except.bind]
          cases proposal <;> rfl
        simp only [proposed, Bind.bind, Except.bind, Pure.pure, Except.pure] at claimed
        cases phase with
        | unread =>
            simp only [ClaimPhase.step, if_neg le, resumed, Bind.bind, Except.bind, Pure.pure,
              Except.pure]
            cases proposal with
            | none =>
                cases claimed
                exact .inr rfl
            | some p => exact .inl ⟨_, rfl⟩
        | read top =>
            by_cases still : r.top = top ∧ spurious = false
            · obtain ⟨rfl, rfl⟩ := still
              simp only [ClaimPhase.step, and_self, if_true, proposed, Bind.bind, Except.bind,
                Pure.pure, Except.pure]
              cases proposal with
              | none =>
                  cases claimed
                  exact .inr rfl
              | some p =>
                  cases claimed
                  exact .inr rfl
            · simp only [ClaimPhase.step, if_neg still, resumed, Bind.bind, Except.bind,
                Pure.pure, Except.pure]
              cases proposal with
              | none =>
                  cases claimed
                  exact .inr rfl
              | some p => exact .inl ⟨_, rfl⟩

/-- What is put where it was found changes nothing. -/
theorem Heap.put_found {h : Heap} {place : Place} {slot : Slot} (found : h.find place = .ok slot) :
    h.put place slot = h := by
  cases place with
  | sentinel =>
      cases found
      rfl
  | table i =>
      have here := Heap.find_table_eq_ok_iff.1 found
      obtain ⟨hi, rfl⟩ := List.getElem?_eq_some_iff.1 here
      simp [Heap.put, Supply.setSlot]

/-- Nobody waits at a place of a heap without rivals. -/
theorem Heap.NoRivals.find {h : Heap} (noRivals : h.NoRivals) {place : Place} {slot : Slot}
    (found : h.find place = .ok slot) : slot.rivals = [] := by
  cases place with
  | sentinel =>
      cases found
      rfl
  | table i => exact noRivals i slot (Heap.find_table_eq_ok_iff.1 found)

namespace Race.Flight

/-- Where nobody waits, a step of a program on its way leaves everything as it is, or is
the step of the program. -/
theorem step_of_perform {s s' : Store} (noRivals : s.heap.NoRivals) {st : Step}
    (next : st.Answer → Program (Option Span)) {answer : st.Answer}
    (performed : st.perform s = .ok (answer, s')) (phase : ClaimPhase) (spurious : Bool) :
    (∃ phase', ({ program := .step st next, phase } : Flight).step s spurious =
        .ok ({ program := .step st next, phase := phase' }, s)) ∨
      ({ program := .step st next, phase } : Flight).step s spurious =
        .ok ({ program := next answer }, s') := by
  by_cases isClaim : ∃ place min desired, st = .claim place min desired
  · obtain ⟨place, min, desired, rfl⟩ := isClaim
    rw [step_claim, access_eq]
    rw [Step.perform_claim] at performed
    cases found : s.heap.find place with
    | error fault => simp [found, Except.bind] at performed
    | ok slot =>
        have alone := noRivals.find found
        simp only [found, Except.bind, Slot.claim_of_rivals_eq_nil alone] at performed
        cases claimed : slot.region.claim min desired with
        | error fault => simp [claimed, Except.map] at performed
        | ok result =>
            rcases result with ⟨span, region⟩
            simp only [claimed, Except.map, Except.ok.injEq, Prod.mk.injEq] at performed
            obtain ⟨rfl, rfl⟩ := performed
            simp only [Except.bind, Slot.step_of_rivals_eq_nil alone]
            rcases ClaimPhase.step_of_claim claimed spurious phase with ⟨phase', pending⟩ | answered
            · refine .inl ⟨phase', ?_⟩
              simp [pending, Except.map, Heap.put_found found]
            · refine .inr ?_
              simp [answered, Except.map]
  · have other : ∀ place min desired, st ≠ .claim place min desired :=
      fun place min desired eq => isClaim ⟨place, min, desired, eq⟩
    rw [step_of_ne_claim other, performed]
    exact .inr rfl

end Race.Flight

end RegionHeap
