import RegionHeap.Proofs.Arena.Round

/-!
# Stints

A stint is the time that an arena of a collection allocates from one region. It can be
told from outside: the region that is active before and after a call shows whether a stint
goes on, begins or is over, and the words that the call hands out belong to the region in
which they lie.
-/

namespace RegionHeap

/-- What was in a region when it came to an arena, and what was handed out of it since, in
bytes. -/
structure Stint where
  region : Nat
  usedBefore : Nat
  handedOut : Nat
  deriving DecidableEq

/-- A stint that is over, with the purpose of its arena and the bytes that nobody used. -/
structure Closing where
  purpose : Purpose
  stint : Stint
  waste : Nat
  deriving DecidableEq

/-- The record that the supply makes of it. -/
def Closing.record (c : Closing) : CollectorReturn where
  region := c.stint.region
  allocatedBytes := c.stint.handedOut
  purpose := c.purpose

/-- The region that is active, if it is one of the table. -/
def Registers.filling (r : Registers) : Option Nat :=
  match r.active with
  | some (.table i) => some i
  | _ => none

namespace Heap

/-- The bytes handed out of the region at a position. -/
def loadOf (h : Heap) (i : Nat) : Nat :=
  match h.supply.slots[i]? with
  | some slot => slot.region.load
  | none => 0

/-- The bytes not handed out of the region at a position. -/
def roomOf (h : Heap) (i : Nat) : Nat :=
  match h.supply.slots[i]? with
  | some slot => slot.region.room
  | none => 0

/-- The bytes of a span that starts in the region at a position. -/
def bytesIn (h : Heap) (i : Nat) (span : Option Span) : Nat :=
  match span, h.supply.slots[i]? with
  | some span, some slot =>
      if slot.region.bottom ≤ span.start ∧ span.start < slot.region.limit then
        span.words * slot.region.wordBytes
      else 0
  | _, _ => 0

@[simp] theorem bytesIn_none (h : Heap) (i : Nat) : h.bytesIn i none = 0 := rfl

variable {h h' : Heap} {i : Nat} {slot : Slot}

theorem loadOf_eq (found : h.supply.slots[i]? = some slot) : h.loadOf i = slot.region.load := by
  simp only [loadOf, found]

theorem roomOf_eq (found : h.supply.slots[i]? = some slot) : h.roomOf i = slot.region.room := by
  simp only [roomOf, found]

theorem loadOf_congr (same : h'.supply.slots[i]? = h.supply.slots[i]?) :
    h'.loadOf i = h.loadOf i := by
  rw [loadOf, same]
  rfl

theorem bytesIn_congr (same : h'.supply.slots[i]? = h.supply.slots[i]?) (span : Option Span) :
    h'.bytesIn i span = h.bytesIn i span := by
  unfold bytesIn
  rw [same]

/-- Words taken from the cursor of a region lie in it. -/
theorem bytesIn_taken {g : Geometry} (p : slot.region.Placed g i) (sound : g.Sound)
    (found : h.supply.slots[i]? = some slot) {words : Nat} (pos : 0 < words)
    (fits : words ≤ slot.region.left) :
    h.bytesIn i (some { start := slot.region.top, words }) = words * g.wordBytes := by
  have enough := Nat.mul_le_mul_right g.wordBytes fits
  have more := Nat.mul_pos pos sound.word
  rw [p.left_mul, Region.room] at enough
  have inside : slot.region.bottom ≤ slot.region.top ∧ slot.region.top < slot.region.limit :=
    ⟨p.bottom_le, by omega⟩
  simp only [bytesIn, found, if_pos inside, p.word]

end Heap

namespace Stint

/-- The stint of an arena after a call, from the heap and the active region before it, the
active region after it, and the words handed out. -/
def next (t : Option Stint) (h : Heap) (before after : Option Nat) (span : Option Span) :
    Option Stint :=
  match after with
  | none => none
  | some i =>
      if before = some i then
        t.map fun t => { t with handedOut := t.handedOut + h.bytesIn i span }
      else some { region := i, usedBefore := h.loadOf i, handedOut := h.bytesIn i span }

/-- The stints for a purpose that a call has ended. -/
def closings (purpose : Purpose) (t : Option Stint) (h : Heap) (after : Option Nat) :
    List Closing :=
  match t with
  | none => []
  | some stint =>
      if after = some stint.region then []
      else [{ purpose, stint, waste := h.roomOf stint.region }]

/-- The stint agrees with the active region, the bytes noted when it came, and the heap. -/
inductive Current (h : Heap) (baseline : Nat) : Option Nat → Option Stint → Prop
  | idle : Current h baseline none none
  | busy {i handedOut : Nat} (load : h.loadOf i = baseline + handedOut) :
      Current h baseline (some i)
        (some { region := i, usedBefore := baseline, handedOut })

variable {t : Option Stint} {h h' : Heap} {baseline : Nat} {place : Option Nat}

/-- Without words handed out, the stint in the same region stays as it is. -/
theorem Current.next_self (c : Current h baseline place t) (h' : Heap) :
    next t h' place place none = t := by
  cases c with
  | idle => rfl
  | busy load => simp [next]

theorem Current.closings_self (c : Current h baseline place t) (purpose : Purpose) (h' : Heap) :
    closings purpose t h' place = [] := by
  cases c with
  | idle => rfl
  | busy load => simp [closings]

theorem Current.place_eq {stint : Stint} (c : Current h baseline place (some stint)) :
    place = some stint.region := by
  cases c
  rfl

/-- Only the load of the active region matters. -/
theorem Current.congr (c : Current h baseline place t)
    (same : ∀ i, place = some i → h'.loadOf i = h.loadOf i) : Current h' baseline place t := by
  cases c with
  | idle => exact .idle
  | busy load => exact .busy ((same _ rfl).trans load)

end Stint

namespace Arena

open Stint (Current)

variable {a : Arena} {others : List Nat} {s s' : Store} {purpose : Purpose} {t : Option Stint}
  {span : Option Span} {d : Deed} {ds : List Deed}

theorem filling_eq_some_iff {r : Registers} {i : Nat} :
    r.filling = some i ↔ r.active = some (.table i) := by
  unfold Registers.filling
  split <;> simp_all

/-- An arena of a collection holds what it allocates from, and nothing else. -/
theorem Ready.regions_eq (r : a.Ready others s) (kind : a.kind = .collector purpose) :
    s.registers.regions = s.registers.filling.toList := by
  have none : s.registers.retained = none :=
    Classical.byContradiction fun kept => by cases kind.symm.trans (r.agree.keeper kept)
  unfold Registers.regions Registers.filling
  rw [none, Place.position?_none, List.append_nil]
  cases s.registers.active with
  | none => rfl
  | some place => cases place <;> rfl

theorem Ready.filling_of_mem (r : a.Ready others s) (kind : a.kind = .collector purpose) {i : Nat}
    (mine : i ∈ s.registers.regions) : s.registers.filling = some i := by
  rw [r.regions_eq kind] at mine
  exact Option.mem_toList.1 mine

/-- Words taken from the active region go on its stint. -/
theorem Does.claim_stint {i : Nat} {span : Span} (h : a.Does (.claim i span) s s')
    (r : a.Ready others s) (kind : a.kind = .collector purpose)
    (c : Current s.heap s.registers.baseline s.registers.filling t) :
    s'.registers = s.registers ∧
      Current s'.heap s'.registers.baseline s'.registers.filling
        (Stint.next t s.heap s.registers.filling s'.registers.filling (some span)) := by
  cases h with
  | @claim _ _ words slot mine found pos fits =>
      refine ⟨rfl, ?_⟩
      have here := r.filling_of_mem kind mine
      have p := r.order.placed found
      have bytes := Heap.bytesIn_taken p r.sound found pos fits
      have after : (s.setSlot i { slot with region := slot.region.took words }).heap.loadOf i =
          s.heap.loadOf i + words * s.heap.supply.geometry.wordBytes := by
        have found' : (s.setSlot i { slot with region := slot.region.took words
            }).heap.supply.slots[i]? = some { slot with region := slot.region.took words } :=
          List.getElem?_set_self (List.getElem?_eq_some_iff.1 found).1
        rw [Heap.loadOf_eq found, Heap.loadOf_eq found']
        exact p.load_took words
      change Current (s.setSlot i _).heap s.registers.baseline s.registers.filling
        (Stint.next t s.heap s.registers.filling s.registers.filling _)
      rw [here] at c ⊢
      cases c with
      | busy load =>
          simp only [Stint.next, if_pos, Option.map_some, bytes]
          exact .busy (by rw [after, load, Nat.add_assoc])

/-- A deed over the sentinel, or over nothing, is done while no region is being filled. -/
theorem Does.fresh_idle (h : a.Does d s s') (fresh : d.Fresh span) :
    s.registers.filling = none := by
  cases fresh with
  | start anew =>
      cases h with
      | start anew idle none => simp [Registers.filling, idle]
  | refuse words =>
      cases h with
      | refuse active refused => simp [Registers.filling, active]
  | install i span =>
      cases h with
      | install active => simp [Registers.filling, active]
  | lose i words =>
      cases h with
      | lose active => simp [Registers.filling, active]
  | adopt i =>
      cases h with
      | adopt active => simp [Registers.filling, active]
  | note bytes =>
      cases h with
      | note active => simp [Registers.filling, active]
  | stop =>
      cases h with
      | stop active => simp [Registers.filling, active]

/-- What a deed over the sentinel brings begins a stint, if it brings a region. -/
theorem Does.fresh_stint (h : a.Does d s s') (fresh : d.Fresh span) (r : a.Ready others s)
    (kind : a.kind = .collector purpose) :
    s.registers.filling = none ∧
      (∀ i, s'.registers.filling = some i → i ∈ s.heap.supply.free ∨ d = .adopt i) ∧
      Current s'.heap s'.registers.baseline s'.registers.filling
        (Stint.next none s.heap none s'.registers.filling span) := by
  have before := h.fresh_idle fresh
  refine ⟨before, ?_⟩
  -- A deed that brings no region leaves nothing to be filled.
  have nothing {heap : Heap} (baseline : Nat) {after : Option Nat} (same : after = none) :
      (∀ i, after = some i → i ∈ s.heap.supply.free ∨ d = .adopt i) ∧
        Current heap baseline after (Stint.next none s.heap none after none) := by
    subst same
    exact ⟨nofun, .idle⟩
  cases fresh with
  | start anew =>
      cases h
      exact nothing _ rfl
  | refuse words =>
      cases h
      exact nothing _ before
  | install i span =>
      cases h with
      | @install _ _ words slot active granted found pos fits =>
          have free : i ∈ s.heap.supply.free :=
            (Supply.free_of_grant granted).2 ▸ List.mem_cons_self
          have p := r.order.placed found
          obtain ⟨slot', found', empty, -⟩ := r.slot_of_grant granted
          cases found.symm.trans found'
          have bytes := Heap.bytesIn_taken p r.sound found pos fits
          refine ⟨fun j hj => ?_, ?_⟩
          · cases hj
            exact .inl free
          · have zero : a.noting 0 s.registers.baseline = 0 := by simp [noting, kind]
            have load : (published i ((a.prepared i words slot s).setSlot i
                { slot with region := slot.region.unmark.took words })).heap.loadOf i =
                  words * s.heap.supply.geometry.wordBytes := by
              have inside := (List.getElem?_eq_some_iff.1 found).1
              have found' : (published i ((a.prepared i words slot s).setSlot i
                  { slot with region := slot.region.unmark.took words })).heap.supply.slots[i]? =
                    some { slot with region := slot.region.unmark.took words } :=
                List.getElem?_set_self (Nat.lt_of_lt_of_eq inside List.length_set.symm)
              rw [Heap.loadOf_eq found']
              refine (p.unmark.load_took words).trans ?_
              change slot.region.load + _ = _
              rw [empty, Nat.zero_add]
            change Current _ (a.noting 0 s.registers.baseline) (some i)
              (some { region := i, usedBefore := s.heap.loadOf i, handedOut := _ })
            rw [zero, Heap.loadOf_eq found, empty, bytes]
            exact .busy (by rw [load, Nat.zero_add])
  | lose i words =>
      cases h
      exact nothing _ before
  | adopt i =>
      cases h with
      | @adopt _ _ slot active fresh found full =>
          refine ⟨fun j hj => ?_, ?_⟩
          · cases hj
            exact .inr rfl
          · have noted : a.noting slot.region.load s.registers.baseline = slot.region.load := by
              simp [noting, kind]
            change Current _ (a.noting slot.region.load s.registers.baseline) (some i)
              (some { region := i, usedBefore := s.heap.loadOf i, handedOut := 0 })
            rw [noted, Heap.loadOf_eq found]
            exact .busy (Heap.loadOf_eq found)
  | note bytes =>
      cases h
      exact nothing _ before
  | stop =>
      cases h
      exact nothing _ rfl

/-- The supply has recorded these stints and the tallies have counted their waste. Nothing
of the regions is missing. -/
structure Accounted (a : Arena) (purpose : Purpose) (cs : List Closing) (s s' : Store) :
    Prop where
  records : s'.heap.supply.collectorReturns =
    s.heap.supply.collectorReturns ++ cs.map Closing.record
  tallies : s'.heap.evacuation =
    cs.foldl (fun e c => e.add purpose (c.waste / a.settings.heapWordBytes)) s.heap.evacuation
  whole : ∀ c ∈ cs, c.purpose = purpose ∧
    c.stint.usedBefore + c.stint.handedOut + c.waste = s.heap.supply.geometry.bytes ∧
      a.settings.heapWordBytes ∣ c.waste

/-- Nothing is recorded and counted while a region is taken from, or over the sentinel. -/
theorem Accounted.nil (records : s'.heap.supply.collectorReturns = s.heap.supply.collectorReturns)
    (tallies : s'.heap.evacuation = s.heap.evacuation) : a.Accounted purpose [] s s' :=
  ⟨by rw [records, List.map_nil, List.append_nil], tallies, nofun⟩

/-- Afterwards nothing more has to be settled. -/
theorem Accounted.congr {cs : List Closing} {s₁ : Store} (h : a.Accounted purpose cs s s₁)
    (h' : a.Accounted purpose [] s₁ s') : a.Accounted purpose cs s s' := by
  refine ⟨?_, h'.tallies.trans h.tallies, h.whole⟩
  rw [h'.records, h.records, List.map_nil, List.append_nil]

theorem Does.fresh_accounted (h : a.Does d s s') (fresh : d.Fresh span) :
    a.Accounted purpose [] s s' := by
  cases fresh <;> cases h <;> exact .nil rfl rfl

/-- What is over is recorded and counted. -/
theorem Does.giveUp_stint {i waste : Nat} {filling : Bool}
    (h : a.Does (.giveUp i filling true waste) s s') (r : a.Ready others s)
    (kind : a.kind = .collector purpose) (noRivals : s.heap.NoRivals)
    (c : Current s.heap s.registers.baseline s.registers.filling t) :
    ∃ stint, t = some stint ∧ stint.region = i ∧ waste = s.heap.roomOf i ∧
      (∀ j, j ≠ i → s'.heap.supply.slots[j]? = s.heap.supply.slots[j]?) ∧
        a.Accounted purpose [{ purpose, stint, waste }] s s' := by
  cases h with
  | @giveUp _ _ _ slot _ _ active found wasted =>
      have here : s.registers.filling = some i := filling_eq_some_iff.2 active
      have p := r.order.placed found
      rw [here] at c
      cases c with
      | @busy _ handed load =>
          rw [Heap.loadOf_eq found] at load
          rw [Slot.waste_of_rivals_eq_nil (noRivals i slot found)] at wasted
          have live :=
            Slot.live_of_rivals_eq_nil (noRivals i slot found) a.settings.minFillWords filling
          have whole := p.load_add_room
          refine ⟨_, rfl, rfl, by rw [Heap.roomOf_eq found, wasted], ?_, ?_, ?_, ?_⟩
          · intro j ne
            exact List.getElem?_set_ne (Ne.symm ne)
          · have handed_eq : slot.region.load - s.registers.baseline = handed := by omega
            change s.heap.supply.collectorReturns ++ a.collectorReturns i (slot.live _ filling) _ = _
            rw [live]
            simp [collectorReturns, kind, Closing.record, handed_eq]
          · change a.tallied waste s.heap.evacuation = _
            simp [tallied, kind]
          · rintro _ (_ | ⟨_, ⟨⟩⟩)
            refine ⟨rfl, ?_, ?_⟩
            · change s.registers.baseline + handed + waste = _
              omega
            · rw [r.suits.word, ← wasted, ← p.left_mul]
              exact Nat.dvd_mul_left _ _

/-- A round carries the stint on, and settles what it ends. -/
theorem Round.stint (round : Round span ds) (deeds : a.Deeds ds s s') (r : a.Ready others s)
    (kind : a.kind = .collector purpose) (noRivals : s.heap.NoRivals)
    (c : Current s.heap s.registers.baseline s.registers.filling t) :
    Current s'.heap s'.registers.baseline s'.registers.filling
        (Stint.next t s.heap s.registers.filling s'.registers.filling span) ∧
      a.Accounted purpose (Stint.closings purpose t s.heap s'.registers.filling) s s' := by
  cases round with
  | idle =>
      cases deeds
      rw [c.next_self, c.closings_self]
      exact ⟨c, .nil rfl rfl⟩
  | claim i span =>
      cases deeds with
      | cons does rest =>
          cases rest
          obtain ⟨same, after⟩ := does.claim_stint r kind c
          refine ⟨after, ?_⟩
          rw [same, c.closings_self]
          cases does
          exact .nil rfl rfl
  | fresh fresh =>
      cases deeds with
      | cons does rest =>
          cases rest
          obtain ⟨before, -, after⟩ := does.fresh_stint fresh r kind
          rw [before] at c ⊢
          cases c
          exact ⟨after, does.fresh_accounted fresh⟩
  | giveUp i filling waste =>
      cases deeds with
      | cons does rest =>
          cases rest
          obtain ⟨stint, rfl, rfl, rfl, -, accounted⟩ := does.giveUp_stint r kind noRivals c
          have after : s'.registers.filling = none := by
            cases does
            rfl
          rw [after]
          exact ⟨.idle, accounted⟩
  | renew i filling waste fresh adopts_nothing =>
      cases deeds with
      | @cons _ _ _ s₁ _ does rest =>
          cases rest with
          | cons does' rest =>
              cases rest
              obtain ⟨stint, rfl, rfl, rfl, frame, accounted⟩ := does.giveUp_stint r kind noRivals c
              have r₁ := does.ready r nofun
              obtain ⟨-, arrives, after⟩ := does'.fresh_stint fresh r₁ kind
              have here := c.place_eq
              have held : stint.region ∉ s₁.heap.supply.free := by
                have mine : stint.region ∈ s.registers.regions :=
                  mem_regions_of_active (filling_eq_some_iff.1 here)
                have same : s₁.heap.supply.free = s.heap.supply.free := by
                  cases does
                  rfl
                exact same ▸ r.not_mem_free mine
              have other : s'.registers.filling ≠ some stint.region := fun eq =>
                (arrives _ eq).elim held fun adopts => adopts_nothing _ adopts
              have began : Stint.next (some stint) s.heap s.registers.filling s'.registers.filling
                  span = Stint.next none s₁.heap none s'.registers.filling span := by
                cases place : s'.registers.filling with
                | none => rfl
                | some j =>
                    have ne : j ≠ stint.region := fun eq => other (eq ▸ place)
                    have frame := (frame j ne).symm
                    have differ : s.registers.filling ≠ some j := by
                      rw [here]
                      exact fun eq => ne (Option.some.inj eq).symm
                    simp only [Stint.next, if_neg differ, Heap.loadOf_congr frame,
                      Heap.bytesIn_congr frame, reduceCtorEq, if_false]
              refine ⟨began ▸ after, ?_⟩
              rw [Stint.closings, if_neg other]
              exact accounted.congr (does'.fresh_accounted fresh)

/-- Only collections have records and tallies of this kind. -/
theorem Does.unrecorded (h : a.Does d s s') (kind : ∀ purpose, a.kind ≠ .collector purpose) :
    s'.heap.supply.collectorReturns = s.heap.supply.collectorReturns ∧
      s'.heap.evacuation = s.heap.evacuation := by
  have returns (i live before : Nat) : a.collectorReturns i live before = [] := by
    cases k : a.kind with
    | plain | mutator => simp [collectorReturns, k]
    | collector purpose => exact absurd k (kind purpose)
  have tallies (counted : Bool) (waste : Nat) (e : Evacuation) :
      (if counted then a.tallied waste e else e) = e := by
    cases k : a.kind with
    | plain | mutator => simp [tallied, k]
    | collector purpose => exact absurd k (kind purpose)
  have recorded (i live before : Nat) : s.heap.supply.collectorReturns ++
      a.collectorReturns i live before = s.heap.supply.collectorReturns := by
    rw [returns, List.append_nil]
  cases h with
  | giveUp active found wasted => exact ⟨recorded _ _ _, tallies _ _ _⟩
  | displace => exact ⟨recorded _ _ _, tallies true _ _⟩
  | drop => exact ⟨recorded _ _ _, tallies true _ _⟩
  | start | claim | outrun | keep | refuse | install | lose | adopt | note | stop =>
      exact ⟨rfl, rfl⟩

theorem Deeds.unrecorded (h : a.Deeds ds s s') (kind : ∀ purpose, a.kind ≠ .collector purpose) :
    s'.heap.supply.collectorReturns = s.heap.supply.collectorReturns ∧
      s'.heap.evacuation = s.heap.evacuation := by
  induction h with
  | nil s => exact ⟨rfl, rfl⟩
  | cons first rest ih =>
      obtain ⟨records, tallies⟩ := first.unrecorded kind
      exact ⟨ih.1.trans records, ih.2.trans tallies⟩

end Arena

end RegionHeap
