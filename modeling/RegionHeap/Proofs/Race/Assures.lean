import RegionHeap.Proofs.Race.Scene

/-!
# Programs among threads

A program assures something from a scene on if it ends there without a fault, whatever the
other threads do between its steps. Each of its steps keeps the scene safe and does no
more than the others rely on. Which words a claim has taken is entered into the book by the
step that has taken them.
-/

namespace RegionHeap.Race

open Scene

variable {α β : Type}

/-- From the scene on, the program of the thread ends without a fault, with a value and a
scene as required. -/
def Assures (a : Arena) (base : Supply) (thread : Nat) (locked : Bool) :
    Program α → Scene → (α → Scene → Prop) → Prop
  | .done value, z, post => post value z
  | .fail _, _, _ => False
  | .step st next, z, post => ∀ z₁ : Scene, z₁.Safe a base → Rely a base thread locked z z₁ →
      ∀ said, ∃ answer s book, st.perform (z₁.store said) = .ok (answer, s) ∧
        Safe a base { registers := s.registers, heap := s.heap, book } ∧
        Guar a base thread locked z₁ { registers := s.registers, heap := s.heap, book } ∧
        Assures a base thread locked (next answer)
          { registers := s.registers, heap := s.heap, book } post

namespace Assures

variable {a : Arena} {base : Supply} {thread : Nat} {locked : Bool} {z : Scene}
  {x : Program α} {post post' : α → Scene → Prop}

theorem mono (h : Assures a base thread locked x z post)
    (le : ∀ {value z'}, post value z' → post' value z') :
    Assures a base thread locked x z post' := by
  induction x generalizing z with
  | done value => exact le h
  | fail fault => exact h
  | step st next ih =>
      intro z₁ safe rely said
      obtain ⟨answer, s, book, performed, safe', guar, rest⟩ := h z₁ safe rely said
      exact ⟨answer, s, book, performed, safe', guar, ih answer rest⟩

/-- A sequence goes on where its first part has ended. -/
theorem bind {f : α → Program β} {post : β → Scene → Prop}
    (h : Assures a base thread locked x z fun value z' =>
      Assures a base thread locked (f value) z' post) :
    Assures a base thread locked (x >>= f) z post := by
  induction x generalizing z with
  | done value => exact h
  | fail fault => exact h.elim
  | step st next ih =>
      intro z₁ safe rely said
      obtain ⟨answer, s, book, performed, safe', guar, rest⟩ := h z₁ safe rely said
      exact ⟨answer, s, book, performed, safe', guar, ih answer rest⟩

theorem pure {value : α} (h : post value z) : Assures a base thread locked (Pure.pure value) z post :=
  h

theorem compute {value : α} {result : Except Fault α} (ok : result = .ok value)
    (h : post value z) : Assures a base thread locked (Program.compute result) z post := by
  rw [ok]
  exact h

theorem require {p : Prop} [Decidable p] {fault : Fault} {post : Unit → Scene → Prop} (holds : p)
    (h : post () z) : Assures a base thread locked (Program.require p fault) z post := by
  rw [Program.require, if_pos holds]
  exact h

/-! ## Steps that change nothing -/

/-- A step that only looks, or speaks. -/
theorem quiet {st : Step} (value : Scene → st.Answer) {post : st.Answer → Scene → Prop}
    (same : ∀ (z : Scene) (said : List Entry),
      ∃ said', st.perform (z.store said) = .ok (value z, z.store said'))
    (h : ∀ z₁, z₁.Safe a base → Rely a base thread locked z z₁ → post (value z₁) z₁) :
    Assures a base thread locked (Program.perform st) z post := by
  intro z₁ safe rely said
  obtain ⟨said', performed⟩ := same z₁ said
  exact ⟨value z₁, z₁.store said', z₁.book, performed, safe, .refl a base thread locked z₁,
    h z₁ safe rely⟩

theorem active {post : Option Place → Scene → Prop}
    (h : ∀ z₁, z₁.Safe a base → Rely a base thread locked z z₁ → post z₁.registers.active z₁) :
    Assures a base thread locked Program.active z post :=
  quiet (fun z => z.registers.active) (fun _ said => ⟨said, rfl⟩) h

theorem retained {post : Option Place → Scene → Prop}
    (h : ∀ z₁, z₁.Safe a base → Rely a base thread locked z z₁ → post z₁.registers.retained z₁) :
    Assures a base thread locked Program.retained z post :=
  quiet (fun z => z.registers.retained) (fun _ said => ⟨said, rfl⟩) h

theorem report {name : String} {moment : Moment} {sizes : Option Sizes}
    {post : Unit → Scene → Prop}
    (h : ∀ z₁, z₁.Safe a base → Rely a base thread locked z z₁ → post () z₁) :
    Assures a base thread locked (Program.perform (.report name moment sizes)) z post :=
  quiet (fun _ => ()) (fun z said =>
    ⟨said ++ [.event ((z.store said).event name moment sizes)], rfl⟩) h

theorem tell {moment : Moment} {post : Unit → Scene → Prop}
    (h : ∀ z₁, z₁.Safe a base → Rely a base thread locked z z₁ → post () z₁) :
    Assures a base thread locked (a.tell moment) z post :=
  report h

theorem tellSizes {moment : Moment} {min desired : Nat} {result : Option Span}
    {post : Unit → Scene → Prop}
    (h : ∀ z₁, z₁.Safe a base → Rely a base thread locked z z₁ → post () z₁) :
    Assures a base thread locked (a.tellSizes moment min desired result) z post :=
  report h

/-- A started arena allocates from a usable place. -/
theorem current {post : Place → Scene → Prop}
    (h : ∀ z₁ place, z₁.Safe a base → Rely a base thread locked z z₁ →
      z₁.registers.active = some place → z₁.Usable base place → post place z₁) :
    Assures a base thread locked a.current z post := by
  refine bind (active fun z₁ safe rely => ?_)
  obtain ⟨place, here, usable⟩ := safe.active
  rw [here]
  exact pure (h z₁ place safe rely here usable)

/-- Looking at a region of the table that there is. -/
theorem look {i : Nat} {post : Slot → Scene → Prop}
    (there : ∃ slot, z.heap.supply.slots[i]? = some slot)
    (h : ∀ z₁ slot, z₁.Safe a base → Rely a base thread locked z z₁ →
      z₁.heap.supply.slots[i]? = some slot → post slot z₁) :
    Assures a base thread locked (Program.look (.table i)) z post := by
  intro z₁ safe rely said
  obtain ⟨slot, found⟩ := there
  obtain ⟨slot', found', -⟩ := rely.grows.slots found
  refine ⟨slot', z₁.store said, z₁.book, ?_, safe, .refl a base thread locked z₁,
    h z₁ slot' safe rely found'⟩
  have here : (z₁.store said).heap.find (.table i) = .ok slot' :=
    Heap.find_table_eq_ok_iff.2 found'
  rw [Step.perform_look, here]
  rfl

theorem freeBytes {i : Nat} {post : Nat → Scene → Prop}
    (there : ∃ slot, z.heap.supply.slots[i]? = some slot)
    (h : ∀ z₁ slot, z₁.Safe a base → Rely a base thread locked z z₁ →
      z₁.heap.supply.slots[i]? = some slot → post slot.region.room z₁) :
    Assures a base thread locked (Program.freeBytes (.table i)) z post :=
  bind (look there fun z₁ slot safe rely found =>
    compute (safe.order.placed found).free_eq (h z₁ slot safe rely found))

theorem usedBytes {i : Nat} {post : Nat → Scene → Prop}
    (there : ∃ slot, z.heap.supply.slots[i]? = some slot)
    (h : ∀ z₁ slot, z₁.Safe a base → Rely a base thread locked z z₁ →
      z₁.heap.supply.slots[i]? = some slot → post slot.region.load z₁) :
    Assures a base thread locked (Program.usedBytes (.table i)) z post :=
  bind (look there fun z₁ slot safe rely found =>
    compute (safe.order.placed found).used_eq (h z₁ slot safe rely found))

end Assures

end RegionHeap.Race
