import RegionHeap.Program.Basic

/-!
# Programs that keep to steps of a kind

A program keeps to steps of a kind if it takes no other step, whatever it is answered on the
way. Nor does it matter what was said before a program runs: its steps do the same to the
registers and to the heap, and are answered the same.
-/

namespace RegionHeap

/-- The stores differ at most in what was said. -/
structure Store.Alike (s t : Store) : Prop where
  registers : s.registers = t.registers
  heap : s.heap = t.heap

namespace Step

variable {st : Step} {s s' t : Store} {answer : st.Answer}

/-- A step that reads and writes the heap and nothing else. -/
def OnHeap : Step → Prop
  | .look _ | .claim .. | .addFiller .. | .mark .. | .unmark _ | .request .. | .takeBack ..
  | .takeBackFrom .. | .tally .. => True
  | _ => False

/-- What such a step does is told by the heap alone. -/
theorem perform_onHeap {st : Step} (onHeap : st.OnHeap) :
    ∃ f : Heap → Except Fault (st.Answer × Heap),
      ∀ s : Store, st.perform s = (f s.heap).map fun r => (r.1, { s with heap := r.2 }) := by
  have redraw (place : Place) (f : Region → Except Fault Region) :
      ∃ g : Heap → Except Fault (Unit × Heap),
        ∀ s : Store, onRegion s place f = (g s.heap).map fun r => (r.1, { s with heap := r.2 }) := by
    refine ⟨fun h => (h.find place).bind fun slot => (f slot.region).map fun region =>
      ((), h.put place { slot with region }), fun s => ?_⟩
    rw [onRegion_eq]
    dsimp only
    cases s.heap.find place with
    | error fault => rfl
    | ok slot =>
        simp only [Except.bind]
        cases f slot.region <;> rfl
  cases st with
  | look place =>
      refine ⟨fun h => (h.find place).map fun slot => (slot, h), fun s => ?_⟩
      rw [perform_look]
      dsimp only
      cases s.heap.find place <;> rfl
  | claim place min desired =>
      refine ⟨fun h => (h.find place).bind fun slot => (slot.claim min desired).map fun r =>
        (r.1, h.put place r.2), fun s => ?_⟩
      rw [perform_claim]
      dsimp only
      cases s.heap.find place with
      | error fault => rfl
      | ok slot =>
          simp only [Except.bind]
          cases slot.claim min desired <;> rfl
  | addFiller place filler => exact redraw place fun r => r.addFiller filler
  | mark place address => exact redraw place fun r => .ok (r.mark address)
  | unmark place => exact redraw place fun r => .ok r.unmark
  | request words purpose node =>
      exact ⟨fun h => .ok ((h.supply.request words purpose node).1,
        { h with supply := (h.supply.request words purpose node).2 }), fun s => rfl⟩
  | takeBack region bytes =>
      exact ⟨fun h => .ok ((), { h with supply := h.supply.takeBack region bytes }), fun s => rfl⟩
  | takeBackFrom purpose region bytes =>
      exact ⟨fun h => .ok ((), { h with supply := h.supply.takeBackFrom purpose region bytes }),
        fun s => rfl⟩
  | tally purpose words =>
      exact ⟨fun h => .ok ((), { h with evacuation := h.evacuation.add purpose words }),
        fun s => rfl⟩
  | _ => exact onHeap.elim

/-- Such a step changes nothing but the heap. -/
theorem perform_keeps (performed : st.perform s = .ok (answer, s')) (onHeap : st.OnHeap) :
    s' = { s with heap := s'.heap } := by
  obtain ⟨f, told⟩ := perform_onHeap onHeap
  rw [told] at performed
  cases done : f s.heap with
  | error fault => simp [done, Except.map] at performed
  | ok r =>
      simp only [done, Except.map, Except.ok.injEq, Prod.mk.injEq] at performed
      rw [← performed.2]

/-- What was said before does not matter to a step. -/
theorem perform_alike (alike : s.Alike t) (performed : st.perform s = .ok (answer, s')) :
    ∃ t', st.perform t = .ok (answer, t') ∧ s'.Alike t' := by
  by_cases onHeap : st.OnHeap
  · obtain ⟨f, told⟩ := perform_onHeap onHeap
    rw [told] at performed
    rw [told, ← alike.heap]
    cases done : f s.heap with
    | error fault => simp [done, Except.map] at performed
    | ok r =>
        simp only [done, Except.map, Except.ok.injEq, Prod.mk.injEq] at performed ⊢
        obtain ⟨rfl, rfl⟩ := performed
        exact ⟨_, ⟨rfl, rfl⟩, alike.registers, rfl⟩
  · -- The other steps read and write registers, or speak of them and of the heap.
    rcases s with ⟨registers, heap, said⟩
    rcases t with ⟨registers', heap', said'⟩
    obtain ⟨rfl, rfl⟩ := alike
    cases st with
    | look | claim | addFiller | mark | unmark => exact absurd trivial onHeap
    | _ =>
        cases performed
        exact ⟨_, rfl, rfl, rfl⟩

end Step

namespace Program

variable {α β : Type} {P : Step → Prop}

/-- All steps that the program could take are of a kind. -/
def Only (P : Step → Prop) : Program α → Prop
  | .done _ | .fail _ => True
  | .step st next => P st ∧ ∀ answer, (next answer).Only P

namespace Only

theorem mono {Q : Step → Prop} {x : Program α} (weaker : ∀ st, P st → Q st) (h : x.Only P) :
    x.Only Q := by
  induction x with
  | done value => exact trivial
  | fail fault => exact trivial
  | step st next ih => exact ⟨weaker st h.1, fun answer => ih answer (h.2 answer)⟩

/-- Every program keeps to steps of some kind or other. -/
theorem any (x : Program α) : x.Only fun _ => True := by
  induction x with
  | done value => exact trivial
  | fail fault => exact trivial
  | step st next ih => exact ⟨trivial, ih⟩

theorem and {Q : Step → Prop} {x : Program α} (h : x.Only P) (h' : x.Only Q) :
    x.Only fun st => P st ∧ Q st := by
  induction x with
  | done value => exact trivial
  | fail fault => exact trivial
  | step st next ih => exact ⟨⟨h.1, h'.1⟩, fun answer => ih answer (h.2 answer) (h'.2 answer)⟩

theorem bind {x : Program α} {f : α → Program β} (first : x.Only P)
    (rest : ∀ value, (f value).Only P) : (x >>= f).Only P := by
  induction x with
  | done value => exact rest value
  | fail fault => exact trivial
  | step st next ih => exact ⟨first.1, fun answer => ih answer (first.2 answer)⟩

theorem pure (value : α) : (Pure.pure value : Program α).Only P :=
  trivial

theorem fail (fault : Fault) : (Program.fail fault : Program α).Only P :=
  trivial

theorem perform {st : Step} (kind : P st) : (Program.perform st).Only P :=
  ⟨kind, fun _ => trivial⟩

theorem compute (result : Except Fault α) : (Program.compute result).Only P := by
  cases result with
  | ok value => exact trivial
  | error fault => exact trivial

theorem require (p : Prop) [Decidable p] (fault : Fault) : (Program.require p fault).Only P := by
  unfold Program.require
  split
  · exact trivial
  · exact trivial

/-- What all steps of the kind keep, the program keeps, also if it ends in a fault. -/
theorem run_invariant {x : Program α} (h : x.Only P) (inv : Store → Prop)
    (keep : ∀ (st : Step) (s s' : Store) (answer : st.Answer), P st → inv s →
      st.perform s = .ok (answer, s') → inv s') {s : Store} (start : inv s) :
    inv (x.run s).2 := by
  induction x generalizing s with
  | done value => exact start
  | fail fault => exact start
  | step st next ih =>
      rw [run_step]
      cases performed : st.perform s with
      | error fault => exact start
      | ok result =>
          exact ih result.1 (h.2 result.1) (keep st s result.2 result.1 h.1 start performed)

end Only

end Program

end RegionHeap
