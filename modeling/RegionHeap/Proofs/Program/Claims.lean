import RegionHeap.Proofs.Program.Ends
import RegionHeap.Proofs.Program.Only

/-!
# How many claims a run makes

A run leaves a trail of the steps that it took, and every claim is one of them, whether it
was served or refused. A judgement says how a program ends and after how many claims: the
claims of the parts of a sequence add up.
-/

namespace RegionHeap

/-- Whether a step is a claim. -/
def Step.isClaim : Step → Bool
  | .claim .. => true
  | _ => false

namespace Program

variable {α β : Type}

/-- The steps that a run takes. A step that is a fault is the last. -/
def trail : Program α → Store → List Step
  | .done _, _ | .fail _, _ => []
  | .step st next, s =>
      st :: match st.perform s with
        | .ok (answer, s) => (next answer).trail s
        | .error _ => []

/-- How many claims a run makes. -/
def claims (x : Program α) (s : Store) : Nat :=
  (x.trail s).countP Step.isClaim

/-- A sequence goes on with the trail of its second part. -/
theorem trail_bind {x : Program α} (f : α → Program β) {s s₁ : Store} {a : α}
    (run : x.run s = (.ok a, s₁)) : (x >>= f).trail s = x.trail s ++ (f a).trail s₁ := by
  induction x generalizing s with
  | done value =>
      cases run
      rfl
  | fail fault => cases run
  | step st next ih =>
      rw [run_step] at run
      simp only [step_bind, trail]
      cases performed : st.perform s with
      | error fault =>
          rw [performed] at run
          cases run
      | ok result =>
          rw [performed] at run
          exact congrArg (List.cons st) (ih result.1 run)

/-- A run takes only steps that its program could take. -/
theorem Only.trail {P : Step → Prop} {x : Program α} (h : x.Only P) (s : Store) :
    ∀ st ∈ x.trail s, P st := by
  induction x generalizing s with
  | done value => exact nofun
  | fail fault => exact nofun
  | step st next ih =>
      intro other taken
      rw [Program.trail] at taken
      rcases List.mem_cons.1 taken with rfl | later
      · exact h.1
      · cases performed : st.perform s with
        | error fault => simp [performed] at later
        | ok result =>
            rw [performed] at later
            exact ih result.1 (h.2 result.1) result.2 other later

/-- The program makes no claims. -/
abbrev Quiet (x : Program α) : Prop :=
  x.Only fun st => st.isClaim = false

theorem quiet_freeBytes (place : Place) : (freeBytes place).Quiet :=
  .bind (.perform rfl) fun _ => .compute _

theorem quiet_usedBytes (place : Place) : (usedBytes place).Quiet :=
  .bind (.perform rfl) fun _ => .compute _

/-- Started in `s`, the program ends with `o` in `s'` and makes `n` claims on the way. -/
structure EndsAfter (x : Program α) (n : Nat) (s : Store) (o : Except Fault α) (s' : Store) :
    Prop where
  ends : x.Ends s o s'
  claims : ∀ t, x.claims { s with transcript := t } = n

namespace EndsAfter

variable {x : Program α} {f : α → Program β} {m n : Nat} {s s₁ s₂ : Store} {a : α}
  {o : Except Fault β}

theorem bind (hx : x.EndsAfter m s (.ok a) s₁) (hf : (f a).EndsAfter n s₁ o s₂) :
    (x >>= f).EndsAfter (m + n) s o s₂ := by
  refine ⟨hx.ends.bind hf.ends, fun t => ?_⟩
  obtain ⟨said, run⟩ := hx.ends t
  rw [Program.claims, trail_bind f run, List.countP_append, ← hx.claims t, ← hf.claims]
  rfl

/-- A program that cannot make a claim makes none. -/
theorem of_quiet {o : Except Fault α} (hx : x.Ends s o s₁) (quiet : x.Quiet) :
    x.EndsAfter 0 s o s₁ := by
  refine ⟨hx, fun t => List.countP_eq_zero.2 fun st taken => ?_⟩
  rw [quiet.trail _ st taken]
  exact Bool.false_ne_true

/-- What makes no claims can be put before a program. -/
theorem after_quiet (hx : x.Ends s (.ok a) s₁) (quiet : x.Quiet)
    (hf : (f a).EndsAfter n s₁ o s₂) : (x >>= f).EndsAfter n s o s₂ := by
  have both := (of_quiet hx quiet).bind hf
  rwa [Nat.zero_add] at both

/-- A claim is one claim. -/
theorem claim {place : Place} {min desired : Nat} {o : Except Fault (Option Span)}
    (hx : (Program.claim place min desired).Ends s o s₁) :
    (Program.claim place min desired).EndsAfter 1 s o s₁ := by
  refine ⟨hx, fun t => ?_⟩
  cases performed : (Step.claim place min desired).perform { s with transcript := t } with
  | error fault => simp [Program.claims, Program.claim, Program.perform, trail, performed,
      Step.isClaim]
  | ok result => simp [Program.claims, Program.claim, Program.perform, trail, performed,
      Step.isClaim]

end EndsAfter

end Program

end RegionHeap
