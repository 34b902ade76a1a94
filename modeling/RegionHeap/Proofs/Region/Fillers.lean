import RegionHeap.Proofs.Region.Work

/-!
# Fillers and commands of an owner

The owner of a region may ask anything of it, with any numbers. Its cursor stays on a word
between the ends and goes back only when the region is reset, and its fillers are in order and
lie in the part that is handed out. So the only faults are a claim of more than is desired and
a filler that does not lie there, and neither changes the region.
-/

namespace RegionHeap

namespace Region

variable {r r' : Region} {filler : Span}

/-- The filler lies in the part that is handed out. -/
def Encloses (r : Region) (filler : Span) : Prop :=
  r.bottom ≤ filler.start ∧ filler.start + filler.words * r.wordBytes ≤ r.top

instance (r : Region) (filler : Span) : Decidable (r.Encloses filler) :=
  inferInstanceAs (Decidable (_ ∧ _))

/-- A region of whole words, with its fillers in ascending order in the part that is handed
out. -/
structure FillersInOrder (r : Region) : Prop extends WholeWords r where
  ascending : r.fillers.Pairwise fun f f' => f.start ≤ f'.start
  enclosed : ∀ f ∈ r.fillers, r.Encloses f

/-! ## Fillers -/

theorem insertFiller_ascending (filler : Span) {fillers : List Span}
    (ascending : fillers.Pairwise fun f f' => f.start ≤ f'.start) :
    (insertFiller filler fillers).Pairwise fun f f' => f.start ≤ f'.start := by
  induction fillers with
  | nil => exact List.pairwise_singleton _ _
  | cons next rest ih =>
      obtain ⟨first, later⟩ := List.pairwise_cons.1 ascending
      unfold insertFiller
      split
      · rename_i before
        refine List.pairwise_cons.2 ⟨fun f hf => ?_, ih later⟩
        rcases mem_insertFiller.1 hf with rfl | hf
        · exact Nat.le_of_lt before
        · exact first f hf
      · rename_i after
        refine List.pairwise_cons.2 ⟨fun f hf => ?_, ascending⟩
        rcases List.mem_cons.1 hf with rfl | hf
        · exact Nat.not_lt.1 after
        · exact Nat.le_trans (Nat.not_lt.1 after) (first f hf)

/-- Whether an address is covered can be told if no filler reaches beyond the words. -/
theorem coveredBy_eq {wordBytes : Nat} (a : Nat) {fillers : List Span}
    (inside : ∀ f ∈ fillers, f.start + f.words * wordBytes < Word.bound) :
    coveredBy wordBytes a fillers = .ok (fillers.any fun f =>
      f.start ≤ a && a < f.start + f.words * wordBytes) := by
  induction fillers with
  | nil => rfl
  | cons filler rest ih =>
      obtain ⟨first, later⟩ := List.forall_mem_cons.1 inside
      have limit : filler.limit wordBytes = .ok (filler.start + filler.words * wordBytes) :=
        Address.advance_eq_ok first
      unfold coveredBy
      split
      · rename_i above
        simp only [limit, bind, Except.bind]
        split
        · rename_i below
          simp [above, below]
        · rename_i below
          simp [ih later, below]
      · rename_i above
        simp [ih later, above]

namespace InBounds

/-- What is enclosed by a region with its cursor in bounds ends at a machine word. -/
theorem lt_bound_of_encloses (h : r.InBounds) (encloses : r.Encloses filler) :
    filler.start + filler.words * r.wordBytes < Word.bound :=
  Nat.lt_of_le_of_lt (Nat.le_trans encloses.2 h.le_limit) h.inside

/-- A filler is recorded if the region encloses it. -/
theorem addFiller_eq (h : r.InBounds) (encloses : r.Encloses filler) :
    r.addFiller filler = .ok { r with fillers := insertFiller filler r.fillers } := by
  have limit : filler.limit r.wordBytes = .ok (filler.start + filler.words * r.wordBytes) :=
    Address.advance_eq_ok (h.lt_bound_of_encloses encloses)
  simp only [addFiller, limit, bind, Except.bind]
  exact if_pos encloses

end InBounds

/-- No other filler is recorded, also if its limit is no address. -/
theorem encloses_of_addFiller (added : r.addFiller filler = .ok r') :
    r.Encloses filler ∧ r' = { r with fillers := insertFiller filler r.fillers } := by
  obtain ⟨limit, reached, added⟩ := Except.bind_eq_ok added
  obtain ⟨bytes, product, total⟩ := Except.bind_eq_ok reached
  obtain ⟨rfl, -⟩ := Word.eq_of_mul_eq_ok product
  obtain ⟨rfl, -⟩ := Word.eq_of_add_eq_ok total
  split at added
  · rename_i encloses
    cases added
    exact ⟨encloses, rfl⟩
  · cases added

namespace FillersInOrder

theorem of_new {index bottom words wordBytes : Nat}
    (built : Region.new index bottom words wordBytes = .ok r) (word : 0 < wordBytes) :
    r.FillersInOrder := by
  have whole := WholeWords.of_new built word
  obtain ⟨-, rfl⟩ := Region.new_eq_ok built
  exact ⟨whole, .nil, nofun⟩

theorem took (h : r.FillersInOrder) {words : Nat} (fits : words ≤ r.left) :
    (r.took words).FillersInOrder where
  toWholeWords := h.toWholeWords.took fits
  ascending := h.ascending
  enclosed := fun f hf => by
    obtain ⟨above, below⟩ := h.enclosed f hf
    exact ⟨above, Nat.le_trans below (Nat.le_add_right _ _)⟩

theorem insert (h : r.FillersInOrder) (encloses : r.Encloses filler) :
    ({ r with fillers := insertFiller filler r.fillers } : Region).FillersInOrder where
  toWholeWords := h.toWholeWords.congr rfl rfl rfl rfl
  ascending := insertFiller_ascending filler h.ascending
  enclosed := fun f hf => by
    rcases mem_insertFiller.1 hf with rfl | hf
    · exact encloses
    · exact h.enclosed f hf

theorem reset (h : r.FillersInOrder) : r.reset.FillersInOrder :=
  ⟨h.toWholeWords.reset, .nil, nofun⟩

/-- Whatever its owner does with it, the fillers of a region stay in order. -/
theorem respond (h : r.FillersInOrder) (c : Command) : (r.respond c).2.FillersInOrder := by
  by_cases resets : c = .reset
  · subst resets
    exact h.reset
  · have effect := h.toInBounds.effect resets
    revert effect
    generalize (r.respond c).2 = r'
    intro effect
    cases effect with
    | took words fits => exact h.took fits
    | filled added =>
        obtain ⟨encloses, rfl⟩ := encloses_of_addFiller added
        exact h.insert encloses
    | marked address => exact ⟨h.toWholeWords.congr rfl rfl rfl rfl, h.ascending, h.enclosed⟩
    | unmarked => exact ⟨h.toWholeWords.congr rfl rfl rfl rfl, h.ascending, h.enclosed⟩

theorem after (h : r.FillersInOrder) (cs : List Command) : (r.after cs).FillersInOrder := by
  induction cs generalizing r with
  | nil => exact h
  | cons c cs ih => exact ih (h.respond c)

/-- Fillers that are in order tell whether they cover an address. -/
theorem inFiller_eq (h : r.FillersInOrder) (a : Nat) :
    r.inFiller a = .ok (r.fillers.any fun f =>
      f.start ≤ a && a < f.start + f.words * r.wordBytes) :=
  coveredBy_eq a fun f hf => h.toInBounds.lt_bound_of_encloses (h.enclosed f hf)

/-- What a filler covers is handed out. -/
theorem contains_of_inFiller (h : r.FillersInOrder) {a : Nat} (covered : r.inFiller a = .ok true) :
    r.contains a = true := by
  rw [h.inFiller_eq, Except.ok.injEq, List.any_eq_true] at covered
  obtain ⟨f, hf, covers⟩ := covered
  obtain ⟨above, below⟩ := h.enclosed f hf
  simp only [Bool.and_eq_true, decide_eq_true_eq] at covers
  simp only [contains, Bool.and_eq_true, decide_eq_true_eq]
  omega

end FillersInOrder

/-! ## Faults -/

/-- The command asks for what no region grants, or for a filler that this one does not
enclose. -/
def Command.Improper (r : Region) : Command → Prop
  | .claim min desired => desired < min
  | .fill filler => ¬ r.Encloses filler
  | _ => False

/-- What is obeyed is answered. -/
theorem respond_eq_ok {c : Command} {reply : Reply} (obeyed : r.obey c = .ok (reply, r')) :
    r.respond c = (.ok reply, r') := by
  simp only [respond, obeyed]

/-- A command that is a fault changes nothing. -/
theorem respond_eq_error {c : Command} {fault : Fault} (failed : r.obey c = .error fault) :
    r.respond c = (.error fault, r) := by
  simp only [respond, failed]

namespace FillersInOrder

/-- A region with its fillers in order obeys every command that is not improper. -/
theorem obeys (h : r.FillersInOrder) {c : Command} (proper : ¬ c.Improper r) :
    ∃ reply r', r.obey c = .ok (reply, r') := by
  have inBounds := h.toInBounds
  cases c with
  | claim min desired =>
      have claimed := inBounds.claim_eq (Nat.not_lt.1 proper)
      simp only [obey, claimed, bind, Except.bind]
      exact ⟨_, _, rfl⟩
  | take words =>
      have claimed := inBounds.claim_eq (Nat.le_refl words)
      simp only [obey, claimed, bind, Except.bind]
      exact ⟨_, _, rfl⟩
  | fill filler =>
      have added := inBounds.addFiller_eq (Classical.not_not.1 proper)
      simp only [obey, added, bind, Except.bind]
      exact ⟨_, _, rfl⟩
  | inFiller address =>
      simp only [obey, h.inFiller_eq, bind, Except.bind]
      exact ⟨_, _, rfl⟩
  | words =>
      have capacity : r.capacityInWords = .ok ((r.limit - r.bottom) / r.wordBytes) := by
        simp only [capacityInWords, inBounds.capacity_eq, bind, Except.bind]
        exact Word.div_eq_ok (Nat.ne_of_gt h.word)
      simp only [obey, inBounds.freeInWords_eq, capacity, bind, Except.bind]
      exact ⟨_, _, rfl⟩
  | race threads words =>
      have sound := (Race.AtCursor.Sound.new inBounds threads).drain words
      simp only [obey, sound.fault?_eq_none]
      exact ⟨_, _, rfl⟩
  | mark | unmark | reset | contains | state | describe => exact ⟨_, _, rfl⟩

end FillersInOrder

/-- No region obeys an improper command. -/
theorem not_obeys {c : Command} (improper : c.Improper r) :
    ∃ fault, r.obey c = .error fault := by
  cases c with
  | claim min desired =>
      simp only [obey, claim_of_lt improper, bind, Except.bind]
      exact ⟨_, rfl⟩
  | fill filler =>
      cases added : r.addFiller filler with
      | error fault =>
          simp only [obey, added, bind, Except.bind]
          exact ⟨_, rfl⟩
      | ok r' => exact absurd (encloses_of_addFiller added).1 improper
  | _ => exact improper.elim

/-! ## Regions that are kept up -/

/-- The region has the ends, the words and the index that it was built with. -/
structure SameLayout (fresh r : Region) : Prop where
  index : r.index = fresh.index
  bottom : r.bottom = fresh.bottom
  limit : r.limit = fresh.limit
  word : r.wordBytes = fresh.wordBytes

theorem SameLayout.keptByWork (fresh : Region) :
    KeptByWork fun r => r.InBounds ∧ fresh.SameLayout r where
  inBounds := And.left
  stepped := fun {r r'} ⟨inBounds, sameLayout⟩ stepped => by
    refine ⟨stepped.inBounds inBounds, ?_⟩
    cases stepped with
    | took words fits eq =>
        exact eq ▸ ⟨sameLayout.index, sameLayout.bottom, sameLayout.limit, sameLayout.word⟩
    | redrawn h =>
        exact ⟨h.index.trans sameLayout.index, h.bottom.trans sameLayout.bottom,
          h.limit.trans sameLayout.limit, h.word.trans sameLayout.word⟩

theorem InBounds.sameLayout_after {fresh : Region} (h : fresh.InBounds) (cs : List Command) :
    fresh.SameLayout (fresh.after cs) := by
  have reset {r : Region} (h : r.InBounds ∧ fresh.SameLayout r) :
      r.reset.InBounds ∧ fresh.SameLayout r.reset :=
    ⟨⟨h.1.word, Nat.le_refl _, Nat.le_trans h.1.bottom_le h.1.le_limit, h.1.inside⟩,
      h.2.index, h.2.bottom, h.2.limit, h.2.word⟩
  exact ((SameLayout.keptByWork fresh).after reset ⟨h, rfl, rfl, rfl, rfl⟩ cs).2

/-- What can be relied on in a region that was built as `fresh`. -/
structure CommandInvariant (fresh r : Region) : Prop extends SameLayout fresh r where
  bottom_le : r.bottom ≤ r.top
  le_limit : r.top ≤ r.limit
  aligned : r.wordBytes ∣ r.top - r.bottom
  parts : ∃ used free, r.used = .ok used ∧ r.free = .ok free ∧ r.capacity = .ok (used + free)
  /-- The cursor goes back only in a reset. -/
  climbs : ∀ c, c ≠ .reset → r.top ≤ (r.respond c).2.top
  ascending : r.fillers.Pairwise fun f f' => f.start ≤ f'.start
  enclosed : ∀ f ∈ r.fillers, r.bottom ≤ f.start ∧
    ∃ limit, f.limit r.wordBytes = .ok limit ∧ limit ≤ r.top
  handed : ∀ a, r.inFiller a = .ok true → r.contains a = true
  faults : ∀ c, (∃ fault, (r.respond c).1 = .error fault) ↔ c.Improper r
  unharmed : ∀ c fault, (r.respond c).1 = .error fault → (r.respond c).2 = r

/-- Whatever commands a region is given after it was built, with any numbers, it can be relied
on, also after commands that are faults. -/
theorem upkeep {index bottom words wordBytes : Nat} {fresh : Region}
    (built : Region.new index bottom words wordBytes = .ok fresh) (word : 0 < wordBytes)
    (cs : List Command) : fresh.CommandInvariant (fresh.after cs) := by
  have start := FillersInOrder.of_new built word
  have ordered := start.after cs
  have inBounds := ordered.toInBounds
  exact {
    toSameLayout := start.toInBounds.sameLayout_after cs
    bottom_le := inBounds.bottom_le
    le_limit := inBounds.le_limit
    aligned := ordered.aligned
    parts := by
      refine ⟨_, _, inBounds.used_eq, inBounds.free_eq, ?_⟩
      rw [inBounds.load_add_room]
      exact inBounds.capacity_eq
    climbs := fun c kept => (inBounds.effect kept).stepped.onward.top
    ascending := ordered.ascending
    enclosed := fun f hf => by
      have encloses := ordered.enclosed f hf
      exact ⟨encloses.1, _, Address.advance_eq_ok (inBounds.lt_bound_of_encloses encloses),
        encloses.2⟩
    handed := fun a => ordered.contains_of_inFiller
    faults := fun c => by
      constructor
      · rintro ⟨fault, failed⟩
        by_contra proper
        obtain ⟨reply, r', obeyed⟩ := ordered.obeys proper
        rw [respond_eq_ok obeyed] at failed
        cases failed
      · intro improper
        obtain ⟨fault, failed⟩ := not_obeys improper
        exact ⟨fault, by rw [respond_eq_error failed]⟩
    unharmed := fun c fault failed => by
      cases obeyed : (fresh.after cs).obey c with
      | error other => rw [respond_eq_error obeyed]
      | ok result =>
          rw [respond_eq_ok obeyed] at failed
          cases failed }

/-- Eight words of three bytes at the end of the addresses. Two fillers overlap, two more would
end beyond all addresses, and a claim is for more than is desired. -/
theorem upkeep_last :
    let fresh : Region := {
      index := 3
      bottom := 2 ^ 64 - 25
      top := 2 ^ 64 - 25
      limit := 2 ^ 64 - 1
      wordBytes := 3
      marker := none
      fillers := [] }
    let r := fresh.after [.claim 0 (2 ^ 64 - 1), .fill ⟨2 ^ 64 - 20, 2⟩,
      .fill ⟨2 ^ 64 - 25, 2 ^ 63⟩, .fill ⟨2 ^ 64 - 1, 1⟩, .claim 2 1, .fill ⟨2 ^ 64 - 25, 3⟩]
    fresh.CommandInvariant r ∧ r.fillers = [⟨2 ^ 64 - 25, 3⟩, ⟨2 ^ 64 - 20, 2⟩] := by
  intro fresh r
  have built : Region.new 3 (2 ^ 64 - 25) 8 3 = .ok fresh := by decide +kernel
  exact ⟨upkeep built (by decide) _, by decide +kernel⟩

end Region

end RegionHeap
