import RegionHeap.Proofs.Arena.GiveUp
import RegionHeap.Proofs.Region.Work

/-!
# Giving up a contested region

While a region is filled up, others still allocate from it, and each of them makes one claim
of the fill fail. The fill goes on with what they leave. In the end it has either turned that
into one filler, which ends with the region, or found too little for one. What the others took
counts as used, and what is used and what is wasted are the whole region.
-/

namespace RegionHeap

namespace Region

/-- Allocating from a region whose cursor is in bounds is coming first as a rival. -/
theorem InBounds.respond_take {r : Region} (h : r.InBounds) (words : Nat) :
    (r.respond (.take words)).2 = r.afterRival words := by
  have claimed := Region.claim_eq h.le_limit h.inside (Nat.ne_of_gt h.word) (Nat.le_refl words)
  unfold respond obey afterRival
  cases taken : r.takes words words with
  | none =>
      rw [taken] at claimed
      simp [claimed, Bind.bind, Except.bind, Pure.pure, Except.pure]
  | some n =>
      rw [taken] at claimed
      simp [claimed, Bind.bind, Except.bind, Pure.pure, Except.pure]

theorem InBounds.after_takes {r : Region} (h : r.InBounds) (rivals : List Nat) :
    r.after (rivals.map .take) = rivals.foldl afterRival r := by
  induction rivals generalizing r with
  | nil => rfl
  | cons rival rest ih =>
      obtain ⟨n, fits, taken⟩ := r.afterRival_eq_took rival
      rw [List.map_cons, after_cons, h.respond_take, List.foldl_cons]
      exact ih (taken ▸ h.took fits)

end Region

namespace Arena

open Program

/-- How giving up region `r` at position `i`, with filling, ends while `rivals` wait there:
`met` of them come first and leave `ceded`, of which the fill makes `after`. The bytes in the
filler and those left over are wasted, the others are handed back as used. -/
structure Outlasts (a : Arena) (s : Store) (i : Nat) (r : Region) (rivals : List Nat) (met : Nat)
    (ceded after : Region) (filler residual used : Nat) : Prop where
  first : met ≤ rivals.length
  leave : ceded = r.after ((rivals.take met).map .take)
  ends : (a.giveUp (.table i) true).Ends s (.ok (filler + residual))
    (a.handedBack r.index used
      (s.setSlot i { region := after, rivals := rivals.drop met }))
  claims : (a.giveUp (.table i) true).claims s ≤ met + 1
  free : after.free = .ok residual
  few : residual / a.settings.heapWordBytes < a.settings.minFillWords
  /-- All rivals came first and what they left is one filler, or nothing was filled. -/
  filled : (met = rivals.length ∧ ∃ words, a.settings.minFillWords ≤ words ∧
      filler = words * r.wordBytes ∧ ceded.top + filler = r.limit ∧ residual = 0 ∧
      after = { ceded with
        top := r.limit
        marker := some ceded.top
        fillers := Region.insertFiller { start := ceded.top, words } r.fillers }) ∨
    (filler = 0 ∧ after = ceded ∧ ceded.marker = r.marker ∧ ceded.fillers = r.fillers)
  counted : ceded.used = .ok used
  whole : r.capacity = .ok (filler + residual + used)

/-- A fill makes at most one claim more than rivals come first. -/
theorem attempts_le {least met : Nat} {slot : Slot} {r : Region} (le : met ≤ slot.rivals.length)
    (ceded : slot.ceded least true = { region := r, rivals := slot.rivals.drop met }) :
    slot.attempts least true ≤ met + 1 := by
  rw [Slot.attempts, ceded, List.length_drop, Nat.sub_sub_self le]
  split
  · exact Nat.le_refl _
  · exact Nat.le_succ _

/-- What rivals leave of a region becomes one filler up to the limit, or is left as it is. -/
theorem plugged_cases {r ceded : Region} {n : Nat} (whole : ceded.WholeWords)
    (taken : ceded = r.took n) (full : ceded.top ≠ 0) (least : Nat) :
    (least ≤ ceded.left ∧ ceded.room = ceded.left * r.wordBytes ∧
      ceded.top + ceded.left * r.wordBytes = r.limit ∧ (ceded.plugged least).room = 0 ∧
      ceded.plugged least = { ceded with
        top := r.limit
        marker := some ceded.top
        fillers := Region.insertFiller { start := ceded.top, words := ceded.left } r.fillers }) ∨
    (ceded.left < least ∧ ceded.plugged least = ceded ∧ ceded.marker = r.marker ∧
      ceded.fillers = r.fillers) := by
  have word : ceded.wordBytes = r.wordBytes := taken ▸ rfl
  have limit : ceded.limit = r.limit := taken ▸ rfl
  have fillers : ceded.fillers = r.fillers := taken ▸ rfl
  rcases Nat.lt_or_ge ceded.left least with few | enough
  · refine .inr ⟨few, Region.plugged_of_lt few, ?_, fillers⟩
    rw [taken]
    rfl
  · have top : ceded.top + ceded.left * ceded.wordBytes = ceded.limit := whole.top_took_left
    have plugged : ceded.plugged least = { ceded with
        top := r.limit
        marker := some ceded.top
        fillers := Region.insertFiller
          { start := ceded.top, words := ceded.left } r.fillers } := by
      rw [Region.plugged_of_le enough, Region.took, top, Region.mark, if_neg full, limit, fillers]
    refine .inl ⟨enough, ?_, ?_, ?_, plugged⟩
    · rw [← word, whole.left_mul]
    · rw [← word, ← limit, top]
    · rw [plugged, Region.room, limit, Nat.sub_self]

/-- The filler that a settlement writes, if it writes one, ends with the region, and then no
rival is left. -/
theorem settled_cases {slot : Slot} (whole : slot.region.WholeWords) (used : slot.region.load ≠ 0)
    {least met : Nat}
    (done : met = slot.rivals.length ∨ (slot.ceded least true).region.left < least) :
    let ceded := (slot.ceded least true).region
    (met = slot.rivals.length ∧ ∃ words, least ≤ words ∧
      slot.filler least true = words * slot.region.wordBytes ∧
      ceded.top + slot.filler least true = slot.region.limit ∧
      (slot.settled least true).region.room = 0 ∧
      (slot.settled least true).region = { ceded with
        top := slot.region.limit
        marker := some ceded.top
        fillers := Region.insertFiller { start := ceded.top, words } slot.region.fillers }) ∨
    (slot.filler least true = 0 ∧ (slot.settled least true).region = ceded ∧
      ceded.marker = slot.region.marker ∧ ceded.fillers = slot.region.fillers) := by
  intro ceded
  have rest : ceded.WholeWords := Slot.ceded_whole whole least true
  obtain ⟨n, taken⟩ : ∃ n, ceded = slot.region.took n :=
    (slot.ceded_region least true).imp fun _ h => h.2
  have top : ceded.top ≠ 0 := by
    have above : slot.region.top ≤ ceded.top := taken ▸ Nat.le_add_right _ _
    unfold Region.load at used
    omega
  rcases plugged_cases rest taken top least with ⟨enough, bytes, ends, none, plugged⟩ | ⟨few, same⟩
  · have filler : slot.filler least true = ceded.left * slot.region.wordBytes := by
      rw [Slot.filler, if_pos ⟨rfl, enough⟩, bytes]
    have all := done.resolve_right (Nat.not_lt.2 enough)
    exact .inl ⟨all, ceded.left, enough, filler, filler ▸ ends, none, plugged⟩
  · have filler : slot.filler least true = 0 := if_neg fun h => Nat.not_lt.2 h.2 few
    exact .inr ⟨filler, same⟩

/-- An arena that measures a region that is not empty outlasts the rivals for it. -/
theorem Measures.outlasts {a : Arena} {s : Store} {i : Nat} {slot : Slot}
    (h : a.Measures slot.region) (found : s.heap.find (.table i) = .ok slot)
    (used : slot.region.load ≠ 0)
    (fair : ∀ purpose, a.kind = .collector purpose → s.registers.baseline ≤ slot.region.load) :
    ∃ met ceded after filler residual used,
      a.Outlasts s i slot.region slot.rivals met ceded after filler residual used := by
  let least := a.settings.minFillWords
  have gives := giveUp_endsAfter h found used fair true
  have parts := Slot.filler_add_room_settled h.whole least true
  have total := Slot.waste_add_live_of_whole h.whole least true
  have word := (slot.settled_limit least true).2.2
  obtain ⟨met, le, yielded, done⟩ := Slot.yieldTo_eq least slot.region slot.rivals
  have ceded_eq : slot.ceded least true =
      { region := (slot.rivals.take met).foldl Region.afterRival slot.region
        rivals := slot.rivals.drop met } := yielded
  have settled_eq : slot.settled least true =
      { region := (slot.settled least true).region, rivals := slot.rivals.drop met } := by
    rw [Slot.settled_true, ceded_eq]
  refine ⟨met, (slot.ceded least true).region, (slot.settled least true).region,
    slot.filler least true, (slot.settled least true).region.room, slot.live least true, ?_⟩
  exact {
    first := le
    leave := by rw [h.whole.after_takes, ceded_eq]
    ends := by
      rw [parts, ← settled_eq]
      exact gives.ends
    claims := by
      rw [gives.claims s.transcript]
      exact attempts_le le ceded_eq
    free := (Slot.settled_whole h.whole least true).free_eq
    few := by
      rw [h.word, ← word]
      exact (slot.ceded least true).region.left_plugged_lt h.least
    filled := settled_cases h.whole used done
    counted := (Slot.ceded_whole h.whole least true).used_eq
    whole := by rw [h.whole.capacity_eq, parts, total] }

/-- Giving a region up, with filling, comes to an end against any rivals and is never a fault:
whatever became of a region since it was built, if it is not empty and the arena counts in its
words, and whichever words the rivals ask for, one claim more than there are rivals is enough.
An arena of a collection must not have found more in the region than there is. -/
theorem contest {a : Arena} {s : Store} {i index bottom words wordBytes : Nat} {fresh : Region}
    {commands : List Region.Command} {rivals : List Nat}
    (built : Region.new index bottom words wordBytes = .ok fresh) (word : 0 < wordBytes)
    (agree : a.settings.heapWordBytes = wordBytes) (least : 0 < a.settings.minFillWords)
    (found : s.heap.find (.table i) = .ok { region := fresh.after commands, rivals })
    (full : (fresh.after commands).isEmpty = .ok false)
    (fair : ∀ purpose, a.kind = .collector purpose →
      s.registers.baseline ≤ (fresh.after commands).top - (fresh.after commands).bottom) :
    ∃ met ceded after filler residual used,
      a.Outlasts s i (fresh.after commands) rivals met ceded after filler residual used := by
  obtain ⟨whole, same⟩ := (Region.WholeWords.of_new built word).after commands
  have size : fresh.wordBytes = wordBytes := by
    obtain ⟨-, rfl⟩ := Region.new_eq_ok built
    rfl
  refine Measures.outlasts ⟨whole, ?_, least⟩ found ?_ fair
  · rw [agree, same, size]
  · intro empty
    rw [whole.isEmpty_eq, empty] at full
    cases full

end Arena

/-- An empty region of eight words. -/
def Region.lone : Region where
  index := 7
  bottom := 4096
  top := 4096
  limit := 4160
  wordBytes := 8
  marker := none
  fillers := []

/-- A collection's arena at work on that region, of which one word was in use when it came to
the arena and two are in use now. Others wait for no word, two, a hundred and one. -/
def Store.contested : Store where
  registers := { active := some (.table 0), count := 1, baseline := 8 }
  heap := {
    supply := {
      geometry := { regionWords := 8, heapBase := 4096 }
      slots := [{
        region := Region.lone.after [.take 1, .claim 1 1]
        rivals := [0, 2, 100, 1] }]
      free := [] }
    sentinel := { Region.lone with limit := 4096 } }

/-- The others get three words. The three that are left then become a filler. -/
theorem Arena.contest_contested :
    ∃ met ceded after filler residual used,
      (Arena.survivor 0 {}).Outlasts .contested 0 (Region.lone.after [.take 1, .claim 1 1])
        [0, 2, 100, 1] met ceded after filler residual used ∧
      filler + residual = 24 ∧ used = 40 := by
  have built : Region.new 7 4096 8 8 = .ok .lone := by decide +kernel
  have found : Store.contested.heap.find (.table 0) =
      .ok { region := Region.lone.after [.take 1, .claim 1 1], rivals := [0, 2, 100, 1] } := rfl
  obtain ⟨met, ceded, after, filler, residual, used, outlasts⟩ :=
    Arena.contest (a := .survivor 0 {}) built (by decide) rfl (by decide) found
      (by decide +kernel) (fun _ _ => by decide +kernel)
  obtain ⟨said, run⟩ := outlasts.ends []
  have wasted : (((Arena.survivor 0 {}).giveUp (.table 0) true).run .contested).1 = .ok 24 := by
    decide +kernel
  have waste : filler + residual = 24 :=
    Except.ok.inj ((congrArg Prod.fst run).symm.trans wasted)
  have whole : (Region.lone.after [.take 1, .claim 1 1]).capacity = .ok 64 := by
    decide +kernel
  have total : filler + residual + used = 64 :=
    Except.ok.inj (outlasts.whole.symm.trans whole)
  exact ⟨met, ceded, after, filler, residual, used, outlasts, waste, by omega⟩

end RegionHeap
