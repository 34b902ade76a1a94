import RegionHeap.Proofs.Slot.Settlement

/-!
# Claims on a slot

A claim on a slot is one on its region, unless a rival comes first; then the rival
has what it wants and the claim is refused.
-/

namespace RegionHeap.Slot

variable {g : Geometry} {i : Nat} {slot : Slot}

/-- The slot after its next rival has come first. -/
def outrun (slot : Slot) : Slot :=
  match slot.rivals with
  | [] => slot
  | rival :: rest => { region := slot.region.afterRival rival, rivals := rest }

/-- Whether a rival comes first to a claim. -/
def Outruns (slot : Slot) (min desired : Nat) : Prop :=
  slot.rivals ≠ [] ∧ min = desired ∧ min = slot.region.left

theorem outrun_region (slot : Slot) :
    ∃ n, n ≤ slot.region.left ∧ slot.outrun.region = slot.region.took n := by
  rcases slot with ⟨region, rivals⟩
  cases rivals with
  | nil => exact ⟨0, Nat.zero_le _, region.took_zero.symm⟩
  | cons rival rest => exact region.afterRival_eq_took rival

theorem outrun_rivals (slot : Slot) : slot.outrun.rivals <:+ slot.rivals := by
  rcases slot with ⟨region, rivals⟩
  cases rivals with
  | nil => exact List.suffix_refl _
  | cons rival rest => exact List.suffix_cons rival rest

theorem outrun_placed (p : slot.region.Placed g i) : slot.outrun.region.Placed g i := by
  obtain ⟨n, hn, taken⟩ := slot.outrun_region
  exact taken ▸ p.took hn

theorem outrun_whole (h : slot.region.WholeWords) : slot.outrun.region.WholeWords := by
  obtain ⟨n, hn, taken⟩ := slot.outrun_region
  exact taken ▸ h.took hn

theorem not_outruns_of_rivals_eq_nil (h : slot.rivals = []) (min desired : Nat) :
    ¬ slot.Outruns min desired :=
  fun outruns => outruns.1 h

/-- What remains after the next rival is what remains for a fill that goes on. -/
theorem ceded_outrun {least : Nat} (hr : slot.rivals ≠ []) (le : least ≤ slot.region.left) :
    slot.outrun.ceded least true = slot.ceded least true := by
  rcases slot with ⟨region, rivals⟩
  obtain ⟨rival, rest, rfl⟩ := List.exists_cons_of_ne_nil hr
  simp [ceded, outrun, yieldTo, Nat.not_lt.2 le]

/-- The claims that a fill makes: one for each rival that it meets, and one more that is
served, if enough for a filler is left. -/
def attempts (least : Nat) (filling : Bool) (slot : Slot) : Nat :=
  slot.rivals.length - (slot.ceded least filling).rivals.length +
    if filling = true ∧ least ≤ (slot.ceded least true).region.left then 1 else 0

theorem attempts_of_rivals_eq_nil (h : slot.rivals = []) (least : Nat) :
    slot.attempts least true = if slot.region.left < least then 0 else 1 := by
  rw [attempts, ceded_of_rivals_eq_nil h, Nat.sub_self, Nat.zero_add]
  simp only [true_and, ← Nat.not_lt, ite_not]

/-- Where too little is left from the start, nobody is waited for. -/
theorem ceded_of_lt {least : Nat} (few : slot.region.left < least) :
    slot.ceded least true = slot := by
  rcases slot with ⟨region, rivals⟩
  cases rivals with
  | nil => rfl
  | cons rival rest => exact if_pos few

theorem attempts_of_lt {least : Nat} (few : slot.region.left < least) :
    slot.attempts least true = 0 := by
  rw [attempts, ceded_of_lt few, Nat.sub_self, if_neg fun h => absurd h.2 (Nat.not_le.2 few)]

/-- A rival costs one claim. -/
theorem attempts_outrun {least : Nat} (hr : slot.rivals ≠ []) (le : least ≤ slot.region.left) :
    slot.attempts least true = 1 + slot.outrun.attempts least true := by
  have waiting := (slot.outrun.ceded_rivals least true).length_le
  have next : slot.rivals.length = slot.outrun.rivals.length + 1 := by
    rcases slot with ⟨region, rivals⟩
    obtain ⟨rival, rest, rfl⟩ := List.exists_cons_of_ne_nil hr
    rfl
  unfold attempts
  rw [ceded_outrun hr le] at waiting ⊢
  omega

section
variable (stands : slot.region.InBounds)
include stands

theorem region_claim_rival (words : Nat) :
    ∃ span, slot.region.claim words words = .ok (span, slot.region.afterRival words) := by
  rw [stands.claim_eq (Nat.le_refl words)]
  unfold Region.afterRival
  cases slot.region.takes words words with
  | none => exact ⟨_, by rw [Option.getD_none, Region.took_zero]⟩
  | some n => exact ⟨_, rfl⟩

theorem forestall_of_not_outruns {min desired : Nat} (h : ¬ slot.Outruns min desired) :
    slot.forestall min desired = .ok none := by
  rcases hr : slot.rivals with _ | ⟨rival, rest⟩
  · exact forestall_of_rivals_eq_nil hr min desired
  · have differ : ¬ (min = desired ∧ min = slot.region.left) :=
      fun eq => h ⟨by simp [hr], eq⟩
    simp only [forestall, hr, stands.freeInWords_eq, bind, Except.bind, if_neg differ]
    rfl

theorem forestall_of_outruns {min desired : Nat} (h : slot.Outruns min desired) :
    slot.forestall min desired = .ok (some slot.outrun) := by
  obtain ⟨hr, eq⟩ := h
  obtain ⟨rival, rest, hr⟩ := List.exists_cons_of_ne_nil hr
  obtain ⟨span, claimed⟩ := region_claim_rival stands rival
  simp only [forestall, hr, stands.freeInWords_eq, bind, Except.bind, if_pos eq, claimed]
  simp only [outrun, hr]
  rfl

/-- A claim that no rival outruns is one on the region. -/
theorem claim_of_not_outruns {min desired : Nat} (h : ¬ slot.Outruns min desired)
    (le : min ≤ desired) :
    slot.claim min desired = .ok (match slot.region.takes min desired with
      | none => (none, slot)
      | some words => (some { start := slot.region.top, words },
          { slot with region := slot.region.took words })) := by
  have word := Nat.ne_of_gt stands.word
  have claimed := Region.claim_eq stands.le_limit stands.inside word le
  simp only [claim, forestall_of_not_outruns stands h, claimed, bind, Except.bind]
  cases slot.region.takes min desired <;> rfl

/-- A claim that a rival outruns is refused. -/
theorem claim_of_outruns {min desired : Nat} (h : slot.Outruns min desired) :
    slot.claim min desired = .ok (none, slot.outrun) := by
  simp only [claim, forestall_of_outruns stands h, bind, Except.bind]
  rfl

theorem claim_of_lt {min desired : Nat} (lt : desired < min) :
    slot.claim min desired = .error (.minExceedsDesired min desired) := by
  have noRivals : ¬ slot.Outruns min desired := fun h => by
    have := h.2.1
    omega
  simp only [claim, forestall_of_not_outruns stands noRivals, Region.claim_of_lt lt, bind,
    Except.bind]

end

end RegionHeap.Slot
