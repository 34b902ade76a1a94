import RegionHeap.Proofs.Arena.Course

/-!
# Claims under the lock

The active region serves a claim if it has the words. If it does not, the arena parts with it,
puts one request to the supply, and the claim is served from the bottom of the region that is
granted, or not at all.
-/

namespace RegionHeap

namespace Supply

variable {supply : Supply} {words : Nat}

theorem grant_eq_none_iff :
    supply.grant words = none ↔ supply.geometry.regionWords < words ∨ supply.free = [] := by
  unfold grant
  split
  · simp [*]
  · simp [*, List.head?_eq_none_iff]

theorem grant_of_cons {j : Nat} {rest : List Nat}
    (fits : words ≤ supply.geometry.regionWords) (free : supply.free = j :: rest) :
    supply.grant words = some j := by
  rw [grant, if_neg (Nat.not_lt.2 fits), free]
  rfl

end Supply

/-- A region that does not have the words, or no word at all, has nothing to take. -/
theorem Region.takes_eq_none_of_lt {r : Region} {min desired : Nat}
    (few : r.left < max min 1) : r.takes min desired = none := by
  refine takes_eq_none_iff.2 ?_
  have least : Nat.min r.left desired ≤ r.left := Nat.min_le_left _ _
  omega

namespace Arena

open Program

variable {a : Arena} {others : List Nat} {s s' : Store} {min desired : Nat}

/-- A retirement does not touch the supply but for the region that it hands back, and installs
nothing. -/
theorem Vacates.keeps {filling counted : Bool} {waste : Nat} {ds : List Deed}
    (h : a.Vacates filling counted s waste ds s') :
    s'.registers.count = s.registers.count ∧ s'.heap.supply.free = s.heap.supply.free ∧
      s'.heap.supply.geometry = s.heap.supply.geometry ∧
        s'.heap.supply.requests = s.heap.supply.requests := by
  cases h with
  | idle active => exact ⟨rfl, rfl, rfl, rfl⟩
  | gaveUp found unfit does =>
      cases does
      exact ⟨rfl, rfl, rfl, rfl⟩
  | kept does =>
      cases does
      exact ⟨rfl, rfl, rfl, rfl⟩
  | displaced does =>
      cases does
      exact ⟨rfl, rfl, rfl, rfl⟩

/-- How a claim under the lock goes on when the active region cannot serve it: `s₁` is what the
retirement of that region leaves. -/
structure Renews (a : Arena) (desired : Nat) (s s₁ s' : Store) (o : Option Span) : Prop where
  /-- The active region is given up once and filled, or put aside if that is worth it. -/
  vacates : ∃ waste ds, a.Vacates true a.counts s waste ds s₁
  /-- There is one request, for the desired words. -/
  requests : s'.heap.supply.requests = s.heap.supply.requests ++
    [{ words := desired, purpose := a.purpose, node := a.node,
       granted := s.heap.supply.grant desired }]
  /-- The first free region is installed, and serves the claim from its bottom on. -/
  served : ∀ j rest, desired ≤ s.heap.supply.geometry.regionWords →
    s.heap.supply.free = j :: rest → ∃ slot : Slot, s.heap.supply.slots[j]? = some slot ∧
      o = some { start := slot.region.bottom, words := desired } ∧
      a.Does (.install j { start := slot.region.bottom, words := desired }) s₁ s' ∧
      s'.registers.active = some (.table j) ∧
      s'.registers.count = Word.wrapSucc32 s.registers.count ∧ s'.heap.supply.free = rest
  /-- Without such a region the arena is left with the sentinel. -/
  refused : s.heap.supply.geometry.regionWords < desired ∨ s.heap.supply.free = [] →
    o = none ∧ a.Does (.refuse desired) s₁ s' ∧ s'.registers.active = some .sentinel ∧
      s'.registers.count = s.registers.count ∧ s'.heap.supply.free = s.heap.supply.free

/-- A region that has the words serves a claim, if nobody waits there. -/
theorem claim_served (r : a.Able s) {i : Nat} {slot : Slot}
    (active : s.registers.active = some (.table i))
    (here : s.heap.supply.slots[i]? = some slot) (noRivals : slot.rivals = []) (le : min ≤ desired)
    (pos : 0 < desired) (enough : max min 1 ≤ slot.region.left) :
    (a.claim min desired).Ends s
      (.ok (some { start := slot.region.top, words := Nat.min slot.region.left desired }))
      (s.setSlot i { slot with
        region := slot.region.took (Nat.min slot.region.left desired) }) := by
  have p := r.allPlaced.placed here
  have alone := Slot.not_outruns_of_rivals_eq_nil noRivals min desired
  have claimed := Slot.claim_of_not_outruns (p.whole r.sound).toInBounds alone le
  have taken : slot.region.takes min desired = some (Nat.min slot.region.left desired) := by
    refine Region.takes_eq_some_iff.2 ⟨rfl, ?_, ?_⟩
    · exact Nat.lt_min.2 ⟨by omega, pos⟩
    · exact Nat.le_min.2 ⟨by omega, le⟩
  rw [taken] at claimed
  exact claimActive_ends active (Ends.claimAt (Heap.find_table_eq_ok_iff.2 here) claimed)

/-- A region of which nothing can be taken refuses a claim, and so does the sentinel. -/
theorem claim_refused (r : a.Able s) {place : Place} {slot : Slot}
    (active : s.registers.active = some place) (found : s.heap.find place = .ok slot)
    (noRivals : slot.rivals = []) (le : min ≤ desired)
    (refuses : slot.region.takes min desired = none) :
    (a.claim min desired).Ends s (.ok none) s := by
  have unchanged {after : Slot} (claimed : slot.claim min desired = .ok (none, after))
      (same : { s with heap := s.heap.put place after } = s) :
      (a.claim min desired).Ends s (.ok none) s := by
    have ends := Ends.claim found claimed
    rw [same] at ends
    exact claimActive_ends active ends
  cases place with
  | sentinel =>
      cases found
      have claimed : Slot.claim { region := s.heap.sentinel } min desired =
          .ok (none, { region := s.heap.sentinel }) := by
        rw [Slot.claim_of_rivals_eq_nil rfl,
          Region.claim_of_full r.allPlaced.full r.allPlaced.sentinelWord le]
        rfl
      exact unchanged claimed rfl
  | table i =>
      have p := r.allPlaced.placed (Heap.find_table_eq_ok_iff.1 found)
      have alone := Slot.not_outruns_of_rivals_eq_nil noRivals min desired
      have claimed := Slot.claim_of_not_outruns (p.whole r.sound).toInBounds alone le
      rw [refuses] at claimed
      exact unchanged claimed (Store.setSlot_self found)

/-- A retirement does not change what the supply grants next. -/
theorem Vacates.grant {filling counted : Bool} {waste : Nat} {ds : List Deed}
    (h : a.Vacates filling counted s waste ds s') (words : Nat) :
    s'.heap.supply.grant words = s.heap.supply.grant words := by
  obtain ⟨-, free, geometry, -⟩ := h.keeps
  rw [Supply.grant, free, geometry]
  rfl

/-- What is left of a request that is refused. -/
theorem Vacates.refuse {waste : Nat} {ds : List Deed} {s₁ : Store}
    (h : a.Vacates true a.counts s waste ds s₁) (none : s.heap.supply.grant desired = none) :
    (a.install desired).Ends s₁ (.ok .none) (a.requested desired s₁) ∧
      a.Renews desired s s₁ (a.requested desired s₁) .none := by
  obtain ⟨count, free, geometry, requests⟩ := h.keeps
  have refused := (h.grant desired).trans none
  refine ⟨install_unserved h.active refused, ⟨waste, ds, h⟩, ?_, ?_, ?_⟩
  · rw [← requests, ← h.grant]
    rfl
  · intro j rest fits first
    cases none.symm.trans (Supply.grant_of_cons fits first)
  · intro _
    refine ⟨rfl, .refuse h.active refused, h.active, count, ?_⟩
    rw [← free]
    simp [requested, Supply.request, refused]

/-- What an installation does to the registers and to the queue. -/
theorem Does.installed {j : Nat} {span : Span} (h : a.Does (.install j span) s s') :
    s'.registers.active = some (.table j) ∧
      s'.registers.count = Word.wrapSucc32 s.registers.count ∧
      s'.heap.supply.free = s.heap.supply.free.tail ∧
      s'.heap.supply.requests = s.heap.supply.requests ++
        [{ words := span.words, purpose := a.purpose, node := a.node, granted := some j }] := by
  cases h with
  | install active granted found pos fits =>
      refine ⟨rfl, rfl, ?_, ?_⟩
      · simp [published, prepared, noted, requested, Supply.request, granted]
      · simp [published, prepared, noted, requested, Supply.request, granted]

/-- What comes of a request that is granted. -/
theorem Vacates.install {waste j : Nat} {ds : List Deed} {s₁ : Store} (r : a.Ready others s)
    (h : a.Vacates true a.counts s waste ds s₁) (pos : 0 < desired)
    (granted : s.heap.supply.grant desired = some j) :
    ∃ start s', (a.install desired).Ends s₁ (.ok (some start)) s' ∧
      a.Renews desired s s₁ s' (some { start, words := desired }) := by
  obtain ⟨count, free, geometry, requests⟩ := h.keeps
  have r₁ := h.deeds.ready r (unowned_of_not_mem h.retiring.adopts_nothing)
  obtain ⟨slot₁, s', here₁, empty, ends, does⟩ :=
    install_served r₁ h.active pos ((h.grant desired).trans granted)
  obtain ⟨slot, here, -⟩ := r.slot_of_grant granted
  -- The region starts where it always did, and nothing of it has been handed out.
  have bottom : slot₁.region.top = slot.region.bottom := by
    have p := r.order.placed here
    have p₁ := r₁.order.placed here₁
    rw [geometry] at p₁
    have above := p₁.bottom_le
    have start := p.bottom
    have start₁ := p₁.bottom
    unfold Region.load at empty
    omega
  rw [bottom] at ends does
  obtain ⟨active, counted, left, asked⟩ := does.installed
  refine ⟨_, s', ends, ⟨waste, ds, h⟩, ?_, ?_, ?_⟩
  · rw [asked, requests, granted]
  · intro j' rest fits first
    have same := (Supply.grant_of_cons fits first).symm.trans granted
    cases same
    refine ⟨slot, here, rfl, does, active, ?_, ?_⟩
    · rw [counted, count]
    · rw [left, free, first]
      rfl
  · intro none
    cases (Supply.grant_eq_none_iff.2 none).symm.trans granted

/-- An arena that was started answers a claim under the lock from its active region, if that
has the words. -/
theorem claimLocked_served (r : a.Able s) {i : Nat} {slot : Slot}
    (active : s.registers.active = some (.table i))
    (here : s.heap.supply.slots[i]? = some slot) (noRivals : slot.rivals = []) (le : min ≤ desired)
    (pos : 0 < desired) (enough : max min 1 ≤ slot.region.left) :
    (a.claimLocked min desired).Ends s
      (.ok (some { start := slot.region.top, words := Nat.min slot.region.left desired }))
      (s.setSlot i { slot with
        region := slot.region.took (Nat.min slot.region.left desired) }) :=
  (claim_served r active here noRivals le pos enough).bind (Ends.pure _ _)

/-- Otherwise it parts with the region and turns to the supply. -/
theorem claimLocked_renews (r : a.Ready others s) {place : Place} {slot : Slot}
    (active : s.registers.active = some place) (found : s.heap.find place = .ok slot)
    (noRivals : slot.rivals = []) (le : min ≤ desired)
    (refuses : slot.region.takes min desired = none)
    (possible : 0 < desired ∨ s.heap.supply.free = []) :
    ∃ o s₁ s', (a.claimLocked min desired).Ends s (.ok o) s' ∧ a.Renews desired s s₁ s' o := by
  have refused := claim_refused r.able active found noRivals le refuses
  have started : s.registers.active ≠ none := by simp [active]
  obtain ⟨waste, s₁, ds, retired, vacates⟩ := (retire_retires r.able true).vacates started
  cases granted : s.heap.supply.grant desired with
  | none =>
      obtain ⟨installed, renews⟩ := Vacates.refuse vacates granted
      exact ⟨_, s₁, _, refused.bind (claimFresh_ends retired installed), renews⟩
  | some j =>
      have pos : 0 < desired := possible.resolve_right fun empty => by
        cases (Supply.grant_eq_none_iff.2 (.inr empty)).symm.trans granted
      obtain ⟨start, s', installed, renews⟩ := Vacates.install r vacates pos granted
      exact ⟨_, s₁, s', refused.bind (claimFresh_ends retired installed), renews⟩

/-- A claim of no words takes a region out of the queue, is refused there too, and leaves that
region with nobody. -/
theorem claimLocked_loses (r : a.Ready others s) {place : Place} {slot : Slot}
    (active : s.registers.active = some place) (found : s.heap.find place = .ok slot)
    (noRivals : slot.rivals = []) {j : Nat} {rest : List Nat}
    (free : s.heap.supply.free = j :: rest) :
    ∃ s₁ s', (a.claimLocked 0 0).Ends s (.error (.cannotHold a.name j 0)) s' ∧
      (∃ waste ds, a.Vacates true a.counts s waste ds s₁) ∧ a.Does (.lose j 0) s₁ s' := by
  have refused := claim_refused r.able active found noRivals (Nat.le_refl 0)
    (Region.takes_self_eq_none (.inl rfl))
  have started : s.registers.active ≠ none := by simp [active]
  obtain ⟨waste, s₁, ds, retired, vacates⟩ := (retire_retires r.able true).vacates started
  have r₁ := vacates.deeds.ready r (unowned_of_not_mem vacates.retiring.adopts_nothing)
  have granted := (vacates.grant 0).trans (Supply.grant_of_cons (Nat.zero_le _) free)
  obtain ⟨slot₁, here₁, empty, noRivals₁, -⟩ := r₁.slot_of_grant granted
  have lost := installGranted_lost (a := a) here₁ r₁.order.allPlaced empty
    (Slot.not_outruns_of_rivals_eq_nil noRivals₁ 0 0) rfl
  rw [(r₁.order.placed here₁).index] at lost
  have installed := install_granted vacates.active granted lost
  exact ⟨s₁, _, refused.bind (claimFresh_ends retired installed), ⟨waste, ds, vacates⟩,
    .lose vacates.active granted here₁ rfl⟩

end Arena

end RegionHeap
