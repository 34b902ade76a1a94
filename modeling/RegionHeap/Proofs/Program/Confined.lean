import RegionHeap.Proofs.Heap.Edit
import RegionHeap.Proofs.Program.Only
import RegionHeap.Proofs.Region.Placed

/-!
# Programs that are confined to some regions

A program that touches no regions but those at certain positions, and requests none, does the
same on every heap that agrees on these regions: it ends the same way, says the same, and
writes the same on the heap.

## Implementation notes

The places that a program touches are answers of the registers. So `Program.Confined` asks for
confined steps only as far as the registers answer with places among those positions. They do
so if they name no others at first, as no confined step stores another place.
-/

namespace RegionHeap

variable {ps : Nat → Prop}

/-- The register names the sentinel, or a region at such a position, if anything. -/
def Place.Among (ps : Nat → Prop) (place : Option Place) : Prop :=
  ∀ i, place = some (.table i) → ps i

/-- The register names a region at such a position, if anything. -/
def Place.Inside (ps : Nat → Prop) (place : Option Place) : Prop :=
  ∀ p, place = some p → ∃ i, p = .table i ∧ ps i

theorem Place.Inside.among {place : Option Place} (h : Place.Inside ps place) :
    Place.Among ps place := by
  intro i eq
  obtain ⟨j, same, mine⟩ := h _ eq
  cases same
  exact mine

/-- Only regions at such positions are held. -/
structure Registers.Within (ps : Nat → Prop) (r : Registers) : Prop where
  active : Place.Among ps r.active
  retained : Place.Inside ps r.retained

/-- The sentinel has no room, and its words have a size. -/
structure Heap.Full (h : Heap) : Prop where
  full : h.sentinel.limit = h.sentinel.top
  word : h.sentinel.wordBytes ≠ 0

namespace Step

/-- A step on regions at such positions at most, and no request. -/
def Confined (ps : Nat → Prop) : Step → Prop
  | .look place | .claim place _ _ => Place.Among ps (some place)
  | .addFiller place _ | .mark place _ | .unmark place => Place.Inside ps (some place)
  | .storeActive place => Place.Among ps place
  | .storeRetained place => Place.Inside ps place
  | .request .. => False
  | _ => True

/-- What registers answer that name no other regions. -/
def Names (ps : Nat → Prop) : (st : Step) → st.Answer → Prop
  | .loadActive, place => Place.Among ps place
  | .loadRetained, place => Place.Inside ps place
  | _, _ => True

variable {st : Step} {s s' : Store} {answer : st.Answer}

/-- What is done to a slot at such a position writes that slot, on every heap. -/
theorem write_at {α : Type} (f : Slot → Except Fault (α × Slot)) (s : Store) {i : Nat}
    (mine : ps i) :
    ∃ es : List Heap.Edit, (∀ e ∈ es, e.Within ps) ∧ ∀ h, s.heap.Agrees ps h →
      ((h.find (.table i)).bind fun slot => (f slot).map fun r =>
          (r.1, { s with heap := h.put (.table i) r.2 })) =
        ((s.heap.find (.table i)).bind fun slot => (f slot).map fun r =>
          (r.1, { s with heap := s.heap.put (.table i) r.2 })).map fun r =>
            (r.1, { r.2 with heap := h.edit es }) := by
  have among : ∀ j, Place.table i = .table j → ps j := by
    intro j eq
    cases eq
    exact mine
  cases found : s.heap.find (.table i) with
  | error fault =>
      refine ⟨[], nofun, ?_⟩
      intro h agrees
      rw [agrees.find among, found]
      rfl
  | ok slot =>
      cases done : f slot with
      | error fault =>
          refine ⟨[], nofun, ?_⟩
          intro h agrees
          rw [agrees.find among, found]
          simp only [Except.bind, done]
          rfl
      | ok r =>
          refine ⟨[.put i r.2], ?_, ?_⟩
          · intro e mem
            rw [List.mem_singleton] at mem
            rw [mem]
            exact mine
          · intro h agrees
            rw [agrees.find among, found]
            simp only [Except.bind, done]
            rfl

theorem onRegion_at (f : Region → Except Fault Region) (s : Store) {place : Place}
    (inside : Place.Inside ps (some place)) :
    ∃ es : List Heap.Edit, (∀ e ∈ es, e.Within ps) ∧ ∀ h, s.heap.Agrees ps h →
      onRegion { s with heap := h } place f =
        (onRegion s place f).map fun r => (r.1, { r.2 with heap := h.edit es }) := by
  obtain ⟨i, rfl, mine⟩ := inside place rfl
  obtain ⟨es, within, same⟩ :=
    write_at (fun slot => (f slot.region).map fun region => ((), { slot with region })) s mine
  have opened (h : Heap) : onRegion { s with heap := h } (.table i) f =
      (h.find (.table i)).bind fun slot =>
        ((f slot.region).map fun region => ((), { slot with region })).map fun r =>
          (r.1, { s with heap := h.put (.table i) r.2 }) := by
    rw [onRegion_eq]
    dsimp only
    cases h.find (.table i) with
    | error fault => rfl
    | ok slot =>
        simp only [Except.bind]
        cases f slot.region <;> rfl
  refine ⟨es, within, ?_⟩
  intro h agrees
  rw [opened h, same h agrees, ← opened s.heap]

/-- A claim of the sentinel takes nothing. -/
theorem claim_sentinel (full : s.heap.Full) (min desired : Nat) :
    (Step.claim .sentinel min desired).perform s =
      if desired < min then .error (.minExceedsDesired min desired) else .ok (none, s) := by
  rw [perform_claim, Heap.find_sentinel]
  simp only [Except.bind]
  rw [Slot.claim_of_rivals_eq_nil rfl]
  split
  · rename_i lt
    rw [Region.claim_of_lt lt]
    rfl
  · rename_i le
    rw [Region.claim_of_full full.full full.word (Nat.not_lt.1 le)]
    rfl

/-- A confined step does the same on all heaps that agree, and writes the same. -/
theorem Confined.perform (confined : st.Confined ps) (within : s.registers.Within ps)
    (full : s.heap.Full) :
    ∃ es : List Heap.Edit, (∀ e ∈ es, e.Within ps) ∧ ∀ h, s.heap.Agrees ps h →
      st.perform { s with heap := h } =
        (st.perform s).map fun r => (r.1, { r.2 with heap := h.edit es }) := by
  have booked (e : Heap.Edit) (free : e.Within ps)
      (writes : ∀ h, st.perform { s with heap := h } =
        (st.perform s).map fun r => (r.1, { r.2 with heap := h.write e })) :
      ∃ es : List Heap.Edit, (∀ e ∈ es, e.Within ps) ∧ ∀ h, s.heap.Agrees ps h →
        st.perform { s with heap := h } =
          (st.perform s).map fun r => (r.1, { r.2 with heap := h.edit es }) := by
    refine ⟨[e], ?_, fun h _ => writes h⟩
    intro e' mem
    rw [List.mem_singleton] at mem
    rw [mem]
    exact free
  cases st with
  | look place =>
      refine ⟨[], nofun, ?_⟩
      intro h agrees
      rw [perform_look, perform_look]
      dsimp only
      rw [agrees.find fun i eq => confined i (congrArg some eq)]
      cases s.heap.find place <;> rfl
  | claim place min desired =>
      cases place with
      | sentinel =>
          refine ⟨[], nofun, ?_⟩
          intro h agrees
          have full' : h.Full := ⟨agrees.sentinel ▸ full.full, agrees.sentinel ▸ full.word⟩
          rw [claim_sentinel full, claim_sentinel (s := { s with heap := h }) full']
          split <;> rfl
      | table i =>
          obtain ⟨es, mine, same⟩ :=
            write_at (fun slot => slot.claim min desired) s (confined i rfl)
          refine ⟨es, mine, ?_⟩
          intro h agrees
          rw [perform_claim, perform_claim]
          exact same h agrees
  | addFiller place filler => exact onRegion_at (fun r => r.addFiller filler) s confined
  | mark place address => exact onRegion_at (fun r => .ok (r.mark address)) s confined
  | unmark place => exact onRegion_at (fun r => .ok r.unmark) s confined
  | request => exact confined.elim
  | report name moment sizes =>
      refine ⟨[], nofun, ?_⟩
      intro h agrees
      have label := agrees.label within.active
      simp only [Step.perform, Store.say, Store.event, label]
      rfl
  | takeBack region bytes => exact booked (.takeBack region bytes) trivial fun _ => rfl
  | takeBackFrom purpose region bytes =>
      exact booked (.takeBackFrom purpose region bytes) trivial fun _ => rfl
  | tally purpose words => exact booked (.tally purpose words) trivial fun _ => rfl
  | _ => exact ⟨[], nofun, fun _ _ => rfl⟩

/-- A confined step leaves the registers within the regions, and is answered by such. -/
theorem Confined.within (confined : st.Confined ps) (within : s.registers.Within ps)
    (performed : st.perform s = .ok (answer, s')) :
    s'.registers.Within ps ∧ st.Names ps answer := by
  cases st with
  | look | claim | addFiller | mark | unmark =>
      rw [perform_keeps performed trivial]
      exact ⟨within, trivial⟩
  | loadActive =>
      cases performed
      exact ⟨within, within.active⟩
  | loadRetained =>
      cases performed
      exact ⟨within, within.retained⟩
  | storeActive place =>
      cases performed
      exact ⟨⟨confined, within.retained⟩, trivial⟩
  | storeRetained place =>
      cases performed
      exact ⟨⟨within.active, confined⟩, trivial⟩
  | _ =>
      cases performed
      exact ⟨⟨within.active, within.retained⟩, trivial⟩

end Step

/-- What is written on the table leaves the sentinel full. -/
theorem Heap.Full.edit {h : Heap} (full : h.Full) (es : List Heap.Edit) : (h.edit es).Full := by
  induction es generalizing h with
  | nil => exact full
  | cons e es ih =>
      have same : (h.write e).sentinel = h.sentinel := by
        cases e <;> rfl
      exact ih ⟨same ▸ full.full, same ▸ full.word⟩

namespace Program

variable {α β : Type}

/-- The program takes confined steps only, as long as the registers name no other regions, and
ends with a value of the property, if with any. -/
def Confined (ps : Nat → Prop) (Q : α → Prop) : Program α → Prop
  | .done value => Q value
  | .fail _ => True
  | .step st next =>
      st.Confined ps ∧ ∀ answer, st.Names ps answer → (next answer).Confined ps Q

namespace Confined

variable {Q : α → Prop} {R : β → Prop} {x : Program α}

theorem bind {f : α → Program β} (first : x.Confined ps Q)
    (rest : ∀ value, Q value → (f value).Confined ps R) : (x >>= f).Confined ps R := by
  induction x with
  | done value => exact rest value first
  | fail fault => exact trivial
  | step st next ih =>
      exact ⟨first.1, fun answer named => ih answer (first.2 answer named)⟩

theorem pure {value : α} (holds : Q value) : (Pure.pure value : Program α).Confined ps Q :=
  holds

theorem fail (fault : Fault) : (Program.fail fault : Program α).Confined ps Q :=
  trivial

theorem perform {st : Step} (confined : st.Confined ps) :
    (Program.perform st).Confined ps (st.Names ps) :=
  ⟨confined, fun _ named => named⟩

theorem compute (result : Except Fault α) :
    (Program.compute result).Confined ps fun _ => True := by
  cases result with
  | ok value => exact trivial
  | error fault => exact trivial

theorem require (p : Prop) [Decidable p] (fault : Fault) :
    (Program.require p fault).Confined ps fun _ => p := by
  unfold Program.require
  split
  · assumption
  · exact trivial

theorem map {f : α → β} (h : x.Confined ps Q) : (f <$> x).Confined ps fun _ => True :=
  h.bind fun _ _ => pure trivial

theorem of_only (only : x.Only (Step.Confined ps)) : x.Confined ps fun _ => True := by
  induction x with
  | done value => exact trivial
  | fail fault => exact trivial
  | step st next ih => exact ⟨only.1, fun answer _ => ih answer (only.2 answer)⟩

/-- A confined program does the same on all heaps that agree on its regions: there are edits of
these regions that it makes on each of them, and nothing else differs. -/
theorem frame (confined : x.Confined ps Q) {s : Store} (within : s.registers.Within ps)
    (full : s.heap.Full) :
    ∃ es : List Heap.Edit, (∀ e ∈ es, e.Within ps) ∧ ∀ h, s.heap.Agrees ps h →
      x.run { s with heap := h } = ((x.run s).1, { (x.run s).2 with heap := h.edit es }) := by
  induction x generalizing s with
  | done value => exact ⟨[], nofun, fun _ _ => rfl⟩
  | fail fault => exact ⟨[], nofun, fun _ _ => rfl⟩
  | step st next ih =>
      obtain ⟨es, mine, same⟩ := confined.1.perform within full
      cases performed : st.perform s with
      | error fault =>
          refine ⟨[], nofun, ?_⟩
          intro h agrees
          rw [run_step, run_step, same h agrees, performed]
          rfl
      | ok result =>
          obtain ⟨answer, s'⟩ := result
          obtain ⟨within', named⟩ := confined.1.within within performed
          have written : s'.heap = s.heap.edit es := by
            have own := same s.heap (.refl ps s.heap)
            rw [performed] at own
            have whole : (answer, s') = (answer, { s' with heap := s.heap.edit es }) :=
              Except.ok.inj own
            exact congrArg (fun r => r.2.heap) whole
          obtain ⟨more, mine', same'⟩ :=
            ih answer (confined.2 answer named) within' (written ▸ full.edit es)
          refine ⟨es ++ more, ?_, ?_⟩
          · intro e mem
            rcases List.mem_append.1 mem with old | new
            · exact mine e old
            · exact mine' e new
          · intro h agrees
            have agrees' : s'.heap.Agrees ps (h.edit es) := written ▸ agrees.edit es
            rw [run_step, run_step, same h agrees, performed]
            simp only [Except.map]
            rw [same' (h.edit es) agrees', Heap.edit_append]

end Confined

end Program

end RegionHeap
