import RegionHeap.Proofs.Race.Take

/-!
# Claims among threads

A claim for at least as many words as the shortest filler is refused by a region that went
back, and otherwise takes what nobody has. So a thread that claims without the lock gets
words that are its own, or nothing, however old its knowledge of the region is.
-/

namespace RegionHeap.Race

open Scene

variable {a : Arena} {base : Supply} {thread : Nat} {locked : Bool} {z z₁ : Scene}

namespace Scene

variable {i words : Nat} {slot : Slot} {user : Option Nat}

theorem take_mine (z : Scene) (i : Nat) (slot : Slot) (words thread : Nat) :
    (z.take i slot words (some thread)).mine thread =
      { region := i, span := { start := slot.region.top, words }, user := some thread } ::
        z.mine thread := by
  simp [mine, take]

/-- Words are taken for the thread itself, or for a filler. -/
theorem take_guar (found : z.heap.supply.slots[i]? = some slot)
    (out : ∀ r ∈ z.returns base, r.1 ≠ i) (own : user = some thread ∨ user = none)
    (still : locked = false → Still base a.settings.minFillWords z (z.take i slot words user)) :
    Guar a base thread locked z (z.take i slot words user) where
  grows := take_grows found out
  others := fun other ne => by
    have foreign : user ≠ some other := by
      rcases own with rfl | rfl
      · exact fun eq => ne (Option.some.inj eq).symm
      · exact nofun
    simp [mine, take, foreign]
  still := still

end Scene

namespace Assures

variable {i min desired : Nat} {user : Option Nat} {post : Option Span → Scene → Prop}

/-- A claim on a region of the race, for a thread or for a filler. -/
theorem claimAt (mine : i ∈ z.granted base) (enough : a.settings.minFillWords ≤ min)
    (le : min ≤ desired) (own : user = some thread ∨ user = none)
    (still : locked = false → ∀ z₁ slot words, Rely a base thread locked z z₁ →
      z₁.heap.supply.slots[i]? = some slot → min ≤ slot.region.left →
        Still base a.settings.minFillWords z₁ (z₁.take i slot words user))
    (refused : ∀ z₁ slot, z₁.Safe a base → Rely a base thread locked z z₁ →
      z₁.heap.supply.slots[i]? = some slot → slot.region.takes min desired = none → post none z₁)
    (served : ∀ z₁ slot words, z₁.Safe a base → Rely a base thread locked z z₁ →
      z₁.heap.supply.slots[i]? = some slot → slot.region.takes min desired = some words →
        (z₁.take i slot words user).Safe a base → Grows base z₁ (z₁.take i slot words user) →
          post (some { start := slot.region.top, words }) (z₁.take i slot words user)) :
    Assures a base thread locked (Program.claim (.table i) min desired) z post := by
  intro z₁ safe rely said
  have mine₁ := rely.grows.granted mine
  obtain ⟨-, slot, found⟩ := safe.granted i mine₁
  have here : (z₁.store said).heap.find (.table i) = .ok slot :=
    Heap.find_table_eq_ok_iff.2 found
  have p := safe.order.placed found
  have claimed := Slot.claim_of_not_outruns (p.whole safe.order.sound).toInBounds
    (Slot.not_outruns_of_rivals_eq_nil (safe.noRivals i slot found) min desired) le
  cases taken : slot.region.takes min desired with
  | none =>
      rw [taken] at claimed
      refine ⟨none, z₁.store said, z₁.book, ?_, safe, .refl a base thread locked z₁,
        refused z₁ slot safe rely found taken⟩
      rw [Step.perform_claim, here]
      simp only [Except.bind, claimed, Except.map]
      rw [Heap.put_found here]
  | some words =>
      rw [taken] at claimed
      obtain ⟨pos, fits, least, most⟩ := Region.takes_le taken
      have out := safe.out_of_room found (Nat.le_trans enough (Nat.le_trans least fits))
      have safe' := safe.take user mine₁ found pos fits out
      refine ⟨some { start := slot.region.top, words }, (z₁.take i slot words user).store said,
        (z₁.take i slot words user).book, ?_, safe', ?_, ?_⟩
      · rw [Step.perform_claim, here]
        simp only [Except.bind, claimed, Except.map]
        rfl
      · exact take_guar found out own
          fun unlocked => still unlocked z₁ slot words rely found (Nat.le_trans least fits)
      · exact served z₁ slot words safe rely found taken safe' (take_grows found out)

/-- Every claim on the sentinel is refused. -/
theorem claimSentinel (le : min ≤ desired)
    (refused : ∀ z₁, z₁.Safe a base → Rely a base thread locked z z₁ → post none z₁) :
    Assures a base thread locked (Program.claim .sentinel min desired) z post := by
  intro z₁ safe rely said
  have claimed : ({ region := z₁.heap.sentinel } : Slot).claim min desired =
      .ok (none, { region := z₁.heap.sentinel }) := by
    rw [Slot.claim_of_rivals_eq_nil rfl,
      Region.claim_of_full safe.order.full safe.order.sentinelWord le]
    rfl
  have here : (z₁.store said).heap.find .sentinel = .ok { region := z₁.heap.sentinel } := rfl
  refine ⟨none, z₁.store said, z₁.book, ?_, safe, .refl a base thread locked z₁,
    refused z₁ safe rely⟩
  rw [Step.perform_claim, here]
  simp only [Except.bind, claimed, Except.map]
  rw [Heap.put_found here]

/-- The words that a thread was served, in the scene that it left. -/
structure Served (a : Arena) (base : Supply) (thread min desired : Nat) (z z' : Scene)
    (span : Span) : Prop where
  safe : z'.Safe a base
  grows : Grows base z z'
  still : Still base a.settings.minFillWords z z'
  mine : ∃ i, z'.mine thread = { region := i, span, user := some thread } :: z.mine thread
  least : min ≤ span.words
  most : span.words ≤ desired

/-- A claim of a thread on a usable place. -/
theorem claim {place : Place} (usable : z.Usable base place)
    (enough : a.settings.minFillWords ≤ min) (le : min ≤ desired)
    (refused : ∀ z₁, z₁.Safe a base → Rely a base thread locked z z₁ → post none z₁)
    (served : ∀ z₁ z₂ span, Rely a base thread locked z z₁ →
      Served a base thread min desired z₁ z₂ span → post (some span) z₂) :
    Assures a base thread locked (Program.claim place min desired) z post := by
  cases place with
  | sentinel => exact claimSentinel le refused
  | table i =>
      have still (z₁ : Scene) (slot : Slot) (words : Nat) (rely : Rely a base thread locked z z₁)
          (found : z₁.heap.supply.slots[i]? = some slot) (room : min ≤ slot.region.left) :
          Still base a.settings.minFillWords z₁ (z₁.take i slot words (some thread)) := by
        obtain ⟨-, slot', found', full⟩ := usable.grows rely.grows
        cases found.symm.trans found'
        exact take_still found full (Nat.le_trans enough room)
      refine claimAt usable.1 enough le (.inl rfl)
        (fun _ z₁ slot words rely found room => still z₁ slot words rely found room)
        (fun z₁ slot safe rely found taken => refused z₁ safe rely)
        fun z₁ slot words safe rely found taken safe' grows => ?_
      obtain ⟨pos, fits, least, most⟩ := Region.takes_le taken
      exact served z₁ _ _ rely ⟨safe', grows,
        still z₁ slot words rely found (Nat.le_trans least fits),
        ⟨i, take_mine z₁ i slot words thread⟩, least, most⟩

end Assures

/-! ## The attempt without the lock -/

/-- A thread can wish for these sizes. -/
structure Wish.Apt (a : Arena) (w : Wish) : Prop where
  enough : a.settings.minFillWords ≤ w.min
  le : w.min ≤ w.desired

instance (a : Arena) (w : Wish) : Decidable (w.Apt a) :=
  decidable_of_iff (a.settings.minFillWords ≤ w.min ∧ w.min ≤ w.desired)
    ⟨fun h => ⟨h.1, h.2⟩, fun h => ⟨h.enough, h.le⟩⟩

/-- The thread has taken what it is answered, and nothing else since it had `before`. -/
structure Wish.Got (w : Wish) (thread : Nat) (before : List Span) (result : Option Span)
    (z : Scene) : Prop where
  spans : (z.mine thread).map Taking.span = result.toList ++ before
  sizes : ∀ span, result = some span → w.min ≤ span.words ∧ span.words ≤ w.desired

variable {w : Wish} {before : List Span}

theorem Wish.Got.rely {result : Option Span} (got : w.Got thread before result z)
    (rely : Rely a base thread locked z z₁) : w.Got thread before result z₁ :=
  ⟨by rw [rely.mine, got.spans], got.sizes⟩

theorem Wish.Got.served {z' : Scene} {span : Span} (got : w.Got thread before none z)
    (served : Assures.Served a base thread w.min w.desired z z' span) :
    w.Got thread before (some span) z' := by
  obtain ⟨i, mine⟩ := served.mine
  refine ⟨?_, ?_⟩
  · rw [mine, List.map_cons, got.spans]
    rfl
  · rintro _ ⟨⟩
    exact ⟨served.least, served.most⟩

/-- A claim on the active region gets words that are the thread's own, or nothing. -/
theorem claimActive_assures (apt : w.Apt a) (got : w.Got thread before none z) :
    Assures a base thread locked (a.claim w.min w.desired) z fun result z' =>
      w.Got thread before result z' ∧ Grows base z z' ∧
        (locked = true → Still base a.settings.minFillWords z z') := by
  refine .bind (.current fun z₁ place safe₁ rely₁ here usable => ?_)
  refine .bind (.claim usable apt.enough apt.le (fun z₂ safe₂ rely₂ => ?_)
    fun z₂ z₃ span rely₂ served => ?_)
  · refine .bind (.tellSizes fun z₃ safe₃ rely₃ => .pure ?_)
    have rely := (rely₁.trans rely₂).trans rely₃
    exact ⟨got.rely rely, rely.grows, rely.still⟩
  · refine .bind (.tellSizes fun z₄ safe₄ rely₄ => .pure ?_)
    have rely := rely₁.trans rely₂
    refine ⟨((got.rely rely).served served).rely rely₄,
      (rely.grows.trans served.grows).trans rely₄.grows, fun l => ?_⟩
    exact ((rely.still l).trans served.still).trans (rely₄.still l)

/-- The same of a claim on the region put aside. -/
theorem claimRetained_assures (apt : w.Apt a) (got : w.Got thread before none z) :
    Assures a base thread locked (a.claimRetained w.min w.desired) z fun result z' =>
      w.Got thread before result z' := by
  refine .bind (.retained fun z₁ safe₁ rely₁ => ?_)
  cases kept : z₁.registers.retained with
  | none => exact .pure (got.rely rely₁)
  | some place =>
      refine .bind (.claim (safe₁.retained place kept) apt.enough apt.le
        (fun z₂ safe₂ rely₂ => .pure (got.rely (rely₁.trans rely₂)))
        fun z₂ z₃ span rely₂ served => ?_)
      refine .bind (.tellSizes fun z₄ safe₄ rely₄ => .pure ?_)
      exact ((got.rely (rely₁.trans rely₂)).served served).rely rely₄

/-- What a thread gets without the lock is its own. -/
theorem unlocked_assures (apt : w.Apt a) (got : w.Got thread before none z) :
    Assures a base thread false (w.unlocked a) z (w.Got thread before) := by
  refine .bind (.mono (claimActive_assures apt got) ?_)
  rintro (_ | span) z₁ ⟨got₁, -⟩
  · change Assures a base thread false (if w.fromRetained then _ else _) z₁ _
    split
    · exact claimRetained_assures apt got₁
    · exact .pure got₁
  · exact .pure got₁

end RegionHeap.Race
