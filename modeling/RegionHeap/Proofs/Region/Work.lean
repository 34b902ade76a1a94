import RegionHeap.Proofs.Race.Cursor
import RegionHeap.Proofs.Race.Steps

/-!
# Work on a region

The cursor of a region is between its ends, and the ends stay as far apart as they are.
Nobody who works on the region changes that: no claim, no thread at its cursor, and no
command of its owner. Nor does anybody who works on a region of whole words break a word.
-/

namespace RegionHeap

/-- The cursor is in bounds, and the ends are less than `least` bytes apart. -/
structure Region.NarrowerThan (least : Nat) (r : Region) : Prop extends Region.InBounds r where
  width : r.limit - r.bottom < least

namespace Region

variable {r r' : Region} {least min desired : Nat}

/-- What a claim proposes at the cursor are words that are left. -/
theorem InBounds.proposed (h : r.InBounds) {p : Proposal}
    (proposed : r.propose r.top min desired = .ok (some p)) :
    r.Stepped { r with top := p.next } := by
  rw [propose_eq_ok h.le_limit h.inside (Nat.ne_of_gt h.word)] at proposed
  split at proposed
  · cases proposed
  · cases proposed
    exact .took (r.wordsFrom r.top desired) (Nat.min_le_left _ _) rfl

/-- An access to the cursor leaves it, or moves it over words that were left. -/
theorem InBounds.access (h : r.InBounds) {phase : ClaimPhase} {spurious : Bool}
    {progress : ClaimProgress}
    (accessed : phase.step r min desired spurious = .ok (progress, r')) : r.Stepped r' := by
  have stays : r.Stepped r := .took 0 (Nat.zero_le _) r.took_zero.symm
  have resumed {top : Nat} {pending : Except Fault (ClaimProgress × Region)}
      (eq : pending = (ClaimPhase.resume r top min desired).bind fun progress =>
        .ok (progress, r)) (ok : pending = .ok (progress, r')) : r.Stepped r' := by
    obtain ⟨_, -, same⟩ := Except.bind_eq_ok (eq ▸ ok)
    cases same
    exact stays
  cases phase with
  | unread =>
      rw [ClaimPhase.step] at accessed
      split at accessed
      · cases accessed
      · exact resumed rfl accessed
  | read top =>
      rw [ClaimPhase.step] at accessed
      split at accessed
      · rename_i still
        obtain ⟨rfl, -⟩ := still
        obtain ⟨proposal, proposed, rest⟩ := Except.bind_eq_ok accessed
        cases proposal with
        | none =>
            cases rest
            exact stays
        | some p =>
            cases rest
            exact h.proposed proposed
      · exact resumed rfl accessed

theorem InBounds.stepped_of_claim (h : r.InBounds) {span : Option Span}
    (claimed : r.claim min desired = .ok (span, r')) : r.Stepped r' := by
  obtain ⟨-, ⟨-, rfl⟩ | ⟨words, -, fits, -, -, -, eq⟩⟩ := h.claimed claimed
  · exact .took 0 (Nat.zero_le _) r'.took_zero.symm
  · exact .took words fits eq

/-- What a step does to a region leaves its cursor in bounds. -/
theorem Stepped.inBounds (h : r.Stepped r') (inBounds : r.InBounds) : r'.InBounds := by
  cases h with
  | took words fits eq => exact eq ▸ inBounds.took fits
  | redrawn h =>
      constructor
      · rw [h.word]
        exact inBounds.word
      · rw [h.bottom, h.top]
        exact inBounds.bottom_le
      · rw [h.limit, h.top]
        exact inBounds.le_limit
      · rw [h.limit]
        exact inBounds.inside

namespace NarrowerThan

theorem stepped (narrow : r.NarrowerThan least) (h : r.Stepped r') : r'.NarrowerThan least := by
  refine ⟨h.inBounds narrow.toInBounds, ?_⟩
  rw [h.onward.limit, h.onward.bottom]
  exact narrow.width

theorem reset (narrow : r.NarrowerThan least) : r.reset.NarrowerThan least :=
  ⟨⟨narrow.word, Nat.le_refl _, Nat.le_trans narrow.bottom_le narrow.le_limit, narrow.inside⟩,
    narrow.width⟩

/-- Fewer bytes are free than the bound on the ends. -/
theorem free_eq (narrow : r.NarrowerThan least) : ∃ bytes, r.free = .ok bytes ∧ bytes < least := by
  refine ⟨r.limit - r.top, ?_, ?_⟩
  · simp [Region.free, Address.distanceFrom, narrow.le_limit]
  · have := narrow.bottom_le
    have := narrow.width
    omega

end NarrowerThan

end Region

/-- A property that implies that the cursor is in bounds, and that no work on a region takes
away. -/
structure Region.KeptByWork (P : Region → Prop) : Prop where
  inBounds : ∀ {r}, P r → r.InBounds
  stepped : ∀ {r r'}, P r → r.Stepped r' → P r'

theorem Region.NarrowerThan.keptByWork (least : Nat) :
    Region.KeptByWork (Region.NarrowerThan least) :=
  ⟨NarrowerThan.toInBounds, NarrowerThan.stepped⟩

/-- A region that is worked on stays in its place, and what it has handed out stays so. -/
theorem Region.Placed.keptByWork {g : Geometry} (sound : g.Sound) (i bytes : Nat) :
    Region.KeptByWork fun r => r.Placed g i ∧ bytes ≤ r.load where
  inBounds := fun ⟨p, _⟩ =>
    ⟨Nat.pos_of_ne_zero (p.word_ne sound), p.bottom_le, p.le_limit, p.inside⟩
  stepped := fun {r r'} ⟨p, enough⟩ stepped => by
    have bottom := stepped.onward.bottom
    have top := stepped.onward.top
    refine ⟨stepped.placed p, ?_⟩
    unfold load at enough ⊢
    omega

variable {P : Region → Prop} {least : Nat}

namespace Region

/-- What a command other than a reset makes of a region. -/
inductive CommandEffect (r : Region) : Command → Region → Prop
  | took {c : Command} (words : Nat) (fits : words ≤ r.left) : CommandEffect r c (r.took words)
  | filled {filler : Span} {r' : Region} (added : r.addFiller filler = .ok r') :
      CommandEffect r (.fill filler) r'
  | marked (address : Nat) : CommandEffect r (.mark address) (r.mark address)
  | unmarked : CommandEffect r .unmark r.unmark

theorem CommandEffect.same (r : Region) (c : Command) : r.CommandEffect c r := by
  have same := CommandEffect.took (c := c) 0 (Nat.zero_le r.left)
  rwa [took_zero] at same

theorem CommandEffect.stepped {r r' : Region} {c : Command} (h : r.CommandEffect c r') :
    r.Stepped r' := by
  cases h with
  | took words fits => exact .took words fits rfl
  | filled added => exact .redrawn (addFiller_redrawn added)
  | marked address => exact .redrawn ⟨rfl, rfl, rfl, rfl, rfl⟩
  | unmarked => exact .redrawn ⟨rfl, rfl, rfl, rfl, rfl⟩

theorem InBounds.effect_of_claim {r r' : Region} (h : r.InBounds) (c : Command) {min desired : Nat}
    {span : Option Span} (claimed : r.claim min desired = .ok (span, r')) :
    r.CommandEffect c r' := by
  obtain ⟨-, ⟨-, rfl⟩ | ⟨words, -, fits, -, -, -, rfl⟩⟩ := h.claimed claimed
  · exact .same _ c
  · exact .took words fits

/-- The owner of a region works on it, unless it is reset. -/
theorem InBounds.effect {r : Region} (h : r.InBounds) {c : Command} (kept : c ≠ .reset) :
    r.CommandEffect c (r.respond c).2 := by
  unfold Region.respond
  split
  · rename_i reply r' obeyed
    cases c with
    | claim min desired =>
        obtain ⟨⟨span, r₁⟩, claimed, hr⟩ := Except.bind_eq_ok obeyed
        cases hr
        exact h.effect_of_claim _ claimed
    | take words =>
        obtain ⟨⟨span, r₁⟩, claimed, hr⟩ := Except.bind_eq_ok obeyed
        cases hr
        exact h.effect_of_claim _ claimed
    | fill filler =>
        obtain ⟨r₁, added, hr⟩ := Except.bind_eq_ok obeyed
        cases hr
        exact .filled added
    | mark address =>
        cases obeyed
        exact .marked address
    | unmark =>
        cases obeyed
        exact .unmarked
    | reset => exact absurd rfl kept
    | inFiller address =>
        obtain ⟨b, -, hr⟩ := Except.bind_eq_ok obeyed
        cases hr
        exact .same r _
    | words =>
        obtain ⟨free, -, rest⟩ := Except.bind_eq_ok obeyed
        obtain ⟨capacity, -, hr⟩ := Except.bind_eq_ok rest
        cases hr
        exact .same r _
    | contains | state | describe =>
        cases obeyed
        exact .same r _
    | race threads words =>
        simp only [Region.obey] at obeyed
        split at obeyed
        · cases obeyed
        · cases obeyed
          obtain ⟨n, fits, taken⟩ := (Race.AtCursor.Sound.new h threads).drain_took words
          rw [taken]
          exact .took n fits
  · exact .same r c

/-- What work on a region keeps is kept by its owner, unless the region is reset. -/
theorem KeptByWork.respond (keptByWork : KeptByWork P) {r : Region} (holds : P r)
    {c : Region.Command}
    (kept : c ≠ .reset) : P (r.respond c).2 :=
  keptByWork.stepped holds ((keptByWork.inBounds holds).effect kept).stepped

/-- What work on a region and a reset keep is kept by whatever its owner does. -/
theorem KeptByWork.after (keptByWork : KeptByWork P) (reset : ∀ {r}, P r → P r.reset) {r : Region}
    (holds : P r) (cs : List Command) : P (r.after cs) := by
  induction cs generalizing r with
  | nil => exact holds
  | cons c cs ih =>
      by_cases resets : c = .reset
      · subst resets
        exact ih (reset holds)
      · exact ih (keptByWork.respond holds resets)

/-- The owner of a region leaves its ends where they are. -/
theorem NarrowerThan.after {r : Region} (narrow : r.NarrowerThan least) (cs : List Command) :
    (r.after cs).NarrowerThan least :=
  (NarrowerThan.keptByWork least).after NarrowerThan.reset narrow cs

/-- Whatever commands a region is given, its cursor stays in bounds. -/
theorem InBounds.after {r : Region} (h : r.InBounds) (cs : List Command) :
    (r.after cs).InBounds := by
  have start : r.NarrowerThan (r.limit - r.bottom + 1) := ⟨h, Nat.lt_succ_self _⟩
  exact (start.after cs).toInBounds

/-- A region of whole words of this size. -/
theorem WholeWords.keptByWork (wordBytes : Nat) :
    KeptByWork fun r => r.WholeWords ∧ r.wordBytes = wordBytes where
  inBounds := fun h => h.1.toInBounds
  stepped := fun {r r'} ⟨whole, word⟩ stepped => by
    cases stepped with
    | took words fits eq =>
        rw [eq]
        exact ⟨whole.took fits, word⟩
    | redrawn h => exact ⟨whole.congr h.word h.bottom h.top h.limit, h.word.trans word⟩

/-- Whatever commands a region is given, it stays one of whole words of the same size. -/
theorem WholeWords.after {r : Region} (whole : r.WholeWords) (cs : List Command) :
    (r.after cs).WholeWords ∧ (r.after cs).wordBytes = r.wordBytes :=
  (WholeWords.keptByWork r.wordBytes).after (fun h => ⟨h.1.reset, h.2⟩) ⟨whole, rfl⟩ cs

end Region

end RegionHeap
