import RegionHeap.Proofs.Race.Drain

/-!
# The next region of those who drain

The thread with the lock has found that nobody can take anything. It gives the old region up
and is granted the next one, takes the first cut of it, and then lets the others see it.
-/

namespace RegionHeap.Race

namespace Basin

variable {d : Drainage} {z z' : Basin} {thread i : Nat} {slot origin : Slot} {s : Store}

/-- The basin after region `i` was made active, with its first cut taken by the thread. -/
def disclose (z : Basin) (i : Nat) (span : Span) (thread : Nat) : Basin where
  registers := { z.registers with active := some (.table i) }
  heap := z.heap
  book := { region := i, span, user := some thread } :: z.book
  seen := i :: z.seen

theorem disclose_mine_self (span : Span) :
    (z.disclose i span thread).mine thread =
      { region := i, span, user := some thread } :: z.mine thread := by
  simp [disclose, Scene.mine]

theorem disclose_mine_of_ne {other : Nat} (ne : other ≠ thread) (span : Span) :
    (z.disclose i span thread).mine other = z.mine other := by
  simp [disclose, Scene.mine, Ne.symm ne]

section
variable (next : (i :: z.seen) <:+ d.regions)
include next

theorem not_seen_of_next : i ∉ z.seen :=
  (List.nodup_cons.1 (d.regions_nodup.sublist next.sublist)).1

/-- A region comes to be seen when its first cut has been taken. -/
theorem Safe.disclose (safe : z.Safe d) (begun : d.first.heap.supply.slots[i]? = some origin)
    (found : z.heap.supply.slots[i]? = some slot)
    (cursor : slot.region.top = origin.region.top + d.words * origin.region.wordBytes)
    (thread : Nat) :
    (z.disclose i { start := origin.region.top, words := d.words } thread).Safe d where
  placed := safe.placed
  onward := safe.onward
  active := ⟨.table i, rfl, fun j eq => by cases eq; exact List.mem_cons_self⟩
  seen := next
  drawn := by
    have fresh := not_seen_of_next next
    intro j hj
    rcases List.mem_cons.1 hj with rfl | seen
    · have nothing : Taking.spansIn j z.book = [] := by
        refine List.eq_nil_iff_forall_not_mem.2 fun span hs => fresh ?_
        obtain ⟨t, ht, rfl, -⟩ := Taking.mem_spansIn.1 hs
        exact (safe.taken t ht).1
      refine ⟨origin, slot, 1, begun, found, ?_, .inl (by rw [cursor, Nat.one_mul])⟩
      refine Taking.spansIn_cons_self.trans ?_
      rw [nothing]
      simp [Region.cuts, Region.cut]
    · obtain ⟨origin', slot', n, drawn⟩ := safe.drawn j seen
      have ne : i ≠ j := by
        rintro rfl
        exact fresh seen
      exact ⟨origin', slot', n, drawn.begun, drawn.found,
        (Taking.spansIn_cons_of_ne ne).trans drawn.taken, drawn.cursor⟩
  taken := by
    intro t ht
    rcases List.mem_cons.1 ht with rfl | ht
    · exact ⟨List.mem_cons_self, Option.some_ne_none thread⟩
    · obtain ⟨seen, user⟩ := safe.taken t ht
      exact ⟨List.mem_cons_of_mem i seen, user⟩

/-- The thread with the lock lets the others see the next region. -/
theorem disclose_assures {post : Unit → Basin → Prop} (lull : z.Lull d)
    (begun : d.first.heap.supply.slots[i]? = some origin)
    (found : z.heap.supply.slots[i]? = some slot)
    (cursor : slot.region.top = origin.region.top + d.words * origin.region.wordBytes)
    (h : post () (z.disclose i { start := origin.region.top, words := d.words } thread)) :
    d.discipline.Assures thread true (Program.activate (some (.table i))) z post := by
  intro z₁ safe rely said
  obtain rfl := lull.quiet.eq_of_taps (rely.taps rfl)
  refine ⟨(), _, z₁.disclose i { start := origin.region.top, words := d.words } thread, rfl,
    ⟨rfl, rfl⟩, safe.disclose next begun found cursor thread, ?_, h⟩
  refine ⟨⟨.refl _, List.suffix_cons i z₁.seen, fun same => ?_⟩,
    fun other ne => disclose_mine_of_ne ne _, nofun⟩
  exact absurd same (List.cons_ne_self i z₁.seen)

end

/-! ## After the disclosure -/

/-- The arena is at rest, and the thread has taken these spans. -/
structure Settled (d : Drainage) (lag thread : Nat) (spans : List Span) (z : Basin) : Prop where
  rest : z.Rest d lag
  mine : (z.mine thread).map Taking.span = spans

theorem Settled.rely {lag : Nat} {spans : List Span} (h : z.Settled d lag thread spans)
    (rely : Rely d thread true z z') : z'.Settled d lag thread spans :=
  ⟨h.rest.taps (rely.taps rfl), by rw [rely.mine, h.mine]⟩

/-- The count does not matter to those who claim. -/
theorem bump_assures {spans : List Span} {post : Unit → Basin → Prop}
    (settled : z.Settled d 1 thread spans)
    (h : ∀ z', z'.Settled d 0 thread spans → post () z') :
    d.discipline.Assures thread true (Program.perform .bumpCount) z post := by
  intro z₁ safe rely said
  obtain ⟨rest, mine⟩ := settled.rely rely
  let counted : Basin :=
    { z₁ with registers.count := Word.wrapSucc32 z₁.registers.count }
  have safe' : counted.Safe d := by
    refine ⟨safe.placed, safe.onward, safe.active, safe.seen, ?_, safe.taken⟩
    intro i seen
    obtain ⟨origin, slot, n, drawn⟩ := safe.drawn i seen
    exact ⟨origin, slot, n, drawn.begun, drawn.found, drawn.taken, drawn.cursor⟩
  refine ⟨(), _, counted, rfl, ⟨rfl, rfl⟩, safe', ?_, h counted ⟨?_, mine⟩⟩
  · exact ⟨⟨.refl _, List.suffix_refl _, fun _ => .inl rfl⟩, fun _ _ => rfl, nofun⟩
  · have ready := rest.ready
    obtain ⟨granted, queue, seen, count⟩ := rest.progress
    refine ⟨⟨ready.suits, ready.order, ?_⟩, rest.spent, granted, queue, seen, count⟩
    exact ⟨ready.agree.keeper, ready.agree.real, ready.agree.baseline, ready.agree.wasted⟩

/-! ## Giving up and installing -/

/-- The thread with the lock gives the old region up. -/
theorem retire_assures {post : Nat → Basin → Prop} (rest : z.Rest d 0) (lull : z.Lull d)
    (h : ∀ waste z', z'.Rest d 0 → z'.Lull d → z'.registers.active = some .sentinel →
      z'.mine thread = z.mine thread → post waste z') :
    d.discipline.Assures thread true (d.arena.retire true) z post := by
  obtain ⟨place, active, -⟩ := lull.safe.active
  have busy : z.registers.active ≠ none := by
    rw [active]
    exact nofun
  obtain ⟨waste, s', ds, ends, deeds, how, left⟩ :=
    (Arena.retire_retires rest.ready.able true).busy busy
  have ready := deeds.ready rest.ready (Arena.unowned_of_not_mem how.adopts_nothing)
  obtain ⟨free, count⟩ := how.keeps deeds
  have here : (z.onto (z.store [])).Lull d := lull
  refine here.ahead (d.arena.withdraws_retire true).hides ends fun lull' => ?_
  refine h waste (z.onto s') ⟨⟨ready.suits, ready.order, ready.agree⟩, ?_, ?_⟩ lull' left rfl
  · exact fun i seen _ => lull'.quiet i seen
  · obtain ⟨granted, queue, seen, count'⟩ := rest.progress
    refine ⟨granted, ?_, seen, ?_⟩
    · rw [queue]
      exact congrArg (granted ++ ·) free.symm
    · exact (congrArg _ count).trans count'

/-- The installation ends at rest with the first cut of the next region, or the arena has run
dry. -/
def Refilled (d : Drainage) (thread : Nat) (z : Basin) (start : Option Nat) (z' : Basin) :
    Prop :=
  z'.Settled d 0 thread ((start.map fun start => ({ start, words := d.words } : Span)).toList ++
    (z.mine thread).map Taking.span) ∧ (start = none → z'.AllSpent d)

/-- Without a free region the arena has run dry. -/
theorem Rest.refused (rest : z.Rest d 0) (lull : z.Lull d)
    (active : z.registers.active = some .sentinel)
    (refused : z.heap.supply.grant d.words = none) :
    (z.onto (d.arena.requested d.words (z.store []))).Rest d 0 ∧
      (z.onto (d.arena.requested d.words (z.store []))).AllSpent d := by
  have enough : ¬ z.heap.supply.geometry.regionWords < d.words := by
    rw [lull.safe.onward.geometry]
    exact Nat.not_lt.2 d.fits
  have free : z.heap.supply.free = [] := by
    rw [Supply.grant, if_neg enough] at refused
    exact List.head?_eq_none_iff.1 refused
  have does : d.arena.Does _ (z.store []) (d.arena.requested d.words (z.store [])) :=
    .refuse active refused
  obtain ⟨granted, queue, seen, count⟩ := rest.progress
  have queue' : (d.arena.requested d.words (z.store [])).heap.supply.free = z.heap.supply.free := by
    simp [Arena.requested, Supply.request, Scene.store, refused]
  have ready := does.ready rest.ready fun j eq => by cases eq
  refine ⟨⟨ready, rest.spent, granted, ?_, seen, count⟩, ?_, ?_, active⟩
  · rw [queue]
    exact congrArg (granted ++ ·) queue'.symm
  · change z.seen = _
    rw [seen, Drainage.regions, queue, free, List.append_nil]
  · exact lull.quiet

section
variable (rest : z.Rest d 0) (granted : z.heap.supply.grant d.words = some i)
include rest granted

/-- The granted region is the next one to be drained, and it is as it was at first. -/
theorem Rest.next (safe : z.Safe d) :
    (i :: z.seen) <:+ d.regions ∧ ∃ origin slot, d.first.heap.supply.slots[i]? = some origin ∧
      z.heap.supply.slots[i]? = some slot ∧ slot.region.top = origin.region.top ∧
        slot.region.wordBytes = origin.region.wordBytes := by
  obtain ⟨past, queue, seen, -⟩ := rest.progress
  have first := (Supply.free_of_grant granted).2
  refine ⟨⟨z.heap.supply.free.tail.reverse, ?_⟩, ?_⟩
  · rw [Drainage.regions, queue, first, seen]
    simp
  · have free : i ∈ d.first.heap.supply.free := by
      rw [queue, first]
      simp
    obtain ⟨origin, begun, vacant⟩ := d.ready.order.vacant i free
    obtain ⟨slot, found, onward⟩ := safe.onward.slots begun
    obtain ⟨same, found', empty, -⟩ := rest.ready.slot_of_grant granted
    cases found.symm.trans found'
    have p := d.ready.order.placed begun
    have q := safe.placed.placed found
    refine ⟨origin, slot, begun, found, ?_, onward.word⟩
    have above := p.bottom_le
    have below := q.bottom_le
    have none := vacant.empty
    have bottom := onward.bottom
    unfold Region.load at empty none
    omega

/-- The arena is at rest when the others see the granted region, but it is not counted yet. -/
theorem Rest.installed (active : z.registers.active = some .sentinel)
    (found : z.heap.supply.slots[i]? = some slot) (span : Span) (thread : Nat)
    (lull : (z.onto ((d.arena.prepared i d.words slot (z.store [])).setSlot i
      { slot with region := slot.region.unmark.took d.words })).Lull d) :
    ((z.onto ((d.arena.prepared i d.words slot (z.store [])).setSlot i
      { slot with region := slot.region.unmark.took d.words })).disclose i span thread).Rest d
        1 := by
  obtain ⟨same, found', -, -, fits⟩ := rest.ready.slot_of_grant granted
  cases found.symm.trans found'
  have does : d.arena.Does _ (z.store []) _ := .install active granted found d.pos fits
  have ready := does.ready rest.ready nofun
  refine ⟨⟨ready.suits, ready.order, ?_⟩, ?_, ?_⟩
  · exact ⟨ready.agree.keeper, ready.agree.real, ready.agree.baseline, ready.agree.wasted⟩
  · intro j hj idle
    rcases List.mem_cons.1 hj with rfl | seen
    · exact absurd rfl idle
    · exact lull.quiet j seen
  · obtain ⟨past, queue, seen, count⟩ := rest.progress
    have first := (Supply.free_of_grant granted).2
    have left : (d.arena.prepared i d.words slot (z.store [])).heap.supply.free =
        z.heap.supply.free.tail := by
      simp [Arena.prepared, Arena.noted, Arena.requested, Supply.request, Scene.store, granted]
    refine ⟨past ++ [i], ?_, ?_, ?_⟩
    · rw [queue, first, List.append_assoc]
      exact congrArg (past ++ i :: ·) left.symm
    · change i :: z.seen = _
      rw [seen, List.reverse_append]
      rfl
    · refine Eq.trans (congrArg Word.wrapSucc32 count) ?_
      rw [List.length_append, List.length_singleton, Function.iterate_succ_apply']

end

/-- A region is published with its first cut taken, and then it is counted. -/
theorem publish_assures (lull : (z.onto s).Lull d) (next : (i :: z.seen) <:+ d.regions)
    (begun : d.first.heap.supply.slots[i]? = some origin)
    (found : s.heap.supply.slots[i]? = some slot) (full : slot.region.isEmpty = .ok false)
    (cursor : slot.region.top = origin.region.top + d.words * origin.region.wordBytes)
    (rest : ((z.onto s).disclose i { start := origin.region.top, words := d.words }
      thread).Rest d 1) :
    d.discipline.Assures thread true (d.arena.publish (.table i)) (z.onto s) fun _ z' =>
      z'.Settled d 0 thread
        ({ start := origin.region.top, words := d.words } :: (z.mine thread).map Taking.span) := by
  have here := Heap.find_table_eq_ok_iff.2 found
  refine .bind (lull.ahead (d.arena.withdraws_tell _).hides (Program.Ends.tell _ _ _) fun lull => ?_)
  refine .bind (lull.ahead (.perform trivial) (Program.Ends.look here) fun lull => ?_)
  refine .bind (lull.ahead (.compute _) (Program.Ends.compute full _) fun lull => ?_)
  refine .bind (lull.ahead (.require _ _) (Program.Ends.require ⟨nofun, rfl⟩ _ _) fun lull => ?_)
  have next' : (i :: (z.onto s).seen) <:+ d.regions := next
  refine .bind (disclose_assures next' lull begun found cursor ?_)
  have settled : ((z.onto s).disclose i { start := origin.region.top, words := d.words }
      thread).Settled d 1 thread
        ({ start := origin.region.top, words := d.words } :: (z.mine thread).map Taking.span) :=
    ⟨rest, by rw [disclose_mine_self]; rfl⟩
  refine .bind (bump_assures settled fun z' settled' => ?_)
  exact .tell fun z₁ safe rely => settled'.rely rely

/-- The granted region is prepared, its first cut is taken, and the others come to see it. -/
theorem installGranted_assures (rest : z.Rest d 0) (safe : z.Safe d)
    (active : z.registers.active = some .sentinel)
    (granted : z.heap.supply.grant d.words = some i)
    (lull : (z.onto (d.arena.requested d.words (z.store []))).Lull d) :
    d.discipline.Assures thread true (d.arena.installGranted (.table i) d.words)
      (z.onto (d.arena.requested d.words (z.store []))) fun start z' =>
        z'.Settled d 0 thread
          ({ start, words := d.words } :: (z.mine thread).map Taking.span) := by
  obtain ⟨next, origin, slot, begun, found, top, word⟩ := rest.next granted safe
  obtain ⟨same, found', empty, noRivals, fits⟩ := rest.ready.slot_of_grant granted
  cases found.symm.trans found'
  have found₁ : (d.arena.requested d.words (z.store [])).heap.find (.table i) = .ok slot :=
    Heap.find_table_eq_ok_iff.2 found
  have found₂ : (d.arena.prepared i d.words slot (z.store [])).heap.find (.table i) =
      .ok { slot with region := slot.region.unmark } := Arena.find_prepared found d.words
  have found₃ := Store.find_setSlot
    { slot with region := slot.region.unmark.took d.words } found₂
  obtain ⟨isEmpty, used⟩ := Arena.unmark_blank found rest.ready.order.allPlaced empty
  obtain ⟨claimed, full⟩ := Arena.first_claim found rest.ready.order.allPlaced
    (Slot.not_outruns_of_rivals_eq_nil noRivals _ _) d.pos fits
  have cursor : (slot.region.unmark.took d.words).top =
      origin.region.top + d.words * origin.region.wordBytes := by
    rw [← top, ← word]
    rfl
  refine .bind (lull.ahead (.perform trivial) (Program.Ends.unmarkAt found₁) fun lull => ?_)
  refine .bind (lull.ahead (.perform trivial)
    (Program.Ends.look (Store.find_setSlot _ found₁)) fun lull => ?_)
  refine .bind (lull.ahead (.compute _) (Program.Ends.compute isEmpty _) fun lull => ?_)
  refine .bind (lull.ahead (.require _ _) (Program.Ends.require rfl _ _) fun lull => ?_)
  refine .bind (lull.ahead (d.arena.withdraws_onInstall _).hides
    (Arena.onInstall_ends (Store.find_setSlot _ found₁) used) fun lull => ?_)
  refine .bind (lull.ahead (.perform trivial) (Program.Ends.claimAt found₂ claimed)
    fun lull => ?_)
  have resting := rest.installed granted active found
    { start := origin.region.top, words := d.words } thread lull
  refine .bind (.mono (publish_assures lull next begun (Heap.find_table_eq_ok_iff.1 found₃) full
    cursor resting) fun settled => ?_)
  refine .bind (.tell fun z₁ safe₁ rely₁ => .pure ?_)
  change z₁.Settled d 0 thread ({ start := slot.region.top, words := d.words } :: _)
  rw [top]
  exact settled.rely rely₁

/-- A region is requested over the sentinel: either the arena is at rest with the first cut of
the next region, or it has run dry. -/
theorem install_assures (rest : z.Rest d 0) (lull : z.Lull d)
    (active : z.registers.active = some .sentinel) :
    d.discipline.Assures thread true (d.arena.install d.words) z (Refilled d thread z) := by
  have here : (z.onto (z.store [])).Lull d := lull
  have asked : (Program.perform (.request d.words d.arena.purpose d.arena.node)).Ends (z.store [])
      (.ok (z.heap.supply.grant d.words)) (d.arena.requested d.words (z.store [])) :=
    Program.Ends.perform fun _ => rfl
  refine .bind (here.ahead d.arena.withdraws_current.hides (Program.Ends.current active) fun lull₁ => ?_)
  refine .bind (lull₁.ahead (.require _ _) (Program.Ends.require rfl _ _) fun lull₂ => ?_)
  refine .bind (lull₂.ahead (d.arena.withdraws_tell _).hides (Program.Ends.tell _ _ _) fun lull₃ => ?_)
  refine .bind (lull₃.ahead (.perform trivial) asked fun lull₄ => ?_)
  cases granted : z.heap.supply.grant d.words with
  | none =>
      obtain ⟨rest', allSpent⟩ := rest.refused lull active granted
      refine .bind (lull₄.ahead (d.arena.withdraws_tell _).hides (Program.Ends.tell _ _ _) fun _ => .pure ?_)
      exact ⟨⟨rest', rfl⟩, fun _ => allSpent⟩
  | some i =>
      refine .bind (.mono (installGranted_assures rest lull.safe active granted lull₄)
        fun settled => .pure ?_)
      exact ⟨settled, nofun⟩

/-! ## The attempts -/

/-- A thread without the lock takes a cut, or nothing. -/
theorem unlocked_assures (z : Basin) (thread : Nat) :
    d.discipline.Assures thread false
      (({ min := d.words, desired := d.words } : Wish).unlocked d.arena) z fun result z' =>
        (z'.mine thread).map Taking.span = result.toList ++ (z.mine thread).map Taking.span := by
  refine .bind (attempt_assures (fun z₁ z₂ place rely₁ _ rely₂ _ _ => ?_)
    fun z₁ z₂ i slot rely₁ taps rely₂ => ?_)
  · refine .pure ?_
    rw [rely₂.mine, rely₁.mine]
    rfl
  · refine .pure ?_
    rw [rely₂.mine, tap_mine_self, List.map_cons, rely₁.mine]
    rfl

/-- The thread with the lock takes a cut, if need be from the next region, or the arena has run
dry. It leaves the arena at rest. -/
theorem locked_assures (rest : z.Rest d 0) :
    d.discipline.Assures thread true
      (({ min := d.words, desired := d.words } : Wish).locked d.arena) z fun result z' =>
        z'.Settled d 0 thread (result.toList ++ (z.mine thread).map Taking.span) ∧
          (result = none → z'.AllSpent d) := by
  refine .bind (attempt_assures (fun z₁ z₂ place rely₁ here rely₂ safe spent => ?_)
    fun z₁ z₂ i slot rely₁ taps rely₂ => ?_)
  · -- What was active has no room, and no other region that was seen has any.
    have rest₂ := (rest.taps (rely₁.taps rfl)).taps (rely₂.taps rfl)
    have still : z₂.registers.active = some place := by
      rw [registers_of_taps (rely₂.taps rfl), here]
    have lull : z₂.Lull d := by
      refine ⟨safe, fun i seen => ?_⟩
      by_cases active : z₂.registers.active = some (.table i)
      · exact spent i (Option.some.inj (still.symm.trans active))
      · exact rest₂.spent i seen active
    have mine₂ : z₂.mine thread = z.mine thread := rely₂.mine.trans rely₁.mine
    refine .bind (retire_assures rest₂ lull fun waste z₃ rest₃ lull₃ active₃ mine₃ => ?_)
    refine .bind (.mono (install_assures rest₃ lull₃ active₃) ?_)
    rintro start z₄ ⟨settled, allSpent⟩
    rw [mine₃, mine₂] at settled
    cases start with
    | some start =>
        refine .bind (.tellSizes fun z₅ safe₅ rely₅ => .pure ⟨settled.rely rely₅, nofun⟩)
    | none =>
        refine .bind (.tellSizes fun z₅ safe₅ rely₅ => .pure ⟨settled.rely rely₅, fun _ => ?_⟩)
        exact (allSpent rfl).advances rely₅.advances safe₅
  · refine .pure ⟨Settled.rely ⟨(rest.taps (rely₁.taps rfl)).tap taps, ?_⟩ rely₂, nofun⟩
    rw [tap_mine_self, List.map_cons, rely₁.mine]
    rfl

end Basin

/-- The attempts of those who drain obey their discipline. -/
theorem Drainage.obeyed (d : Drainage) : d.discipline.Obeyed d.arena where
  unlocked := by
    rintro _ thread z rfl
    exact Basin.unlocked_assures z thread
  locked := by
    rintro _ thread z rfl rest
    refine .mono (Basin.locked_assures rest) ?_
    rintro result z' ⟨settled, allSpent⟩
    exact ⟨settled.mine, settled.rest, allSpent⟩

/-- The basin before anybody has taken anything. -/
def Drainage.begun (d : Drainage) : Basin where
  registers := d.first.registers
  heap := d.first.heap
  book := []
  seen := Place.position? d.first.registers.active

namespace Drainage

variable (d : Drainage)

/-- A region that is active at first has not been cut yet. -/
theorem begun_safe : d.begun.Safe d where
  placed := d.ready.order.placedNoRivals d.noRivals
  onward := .refl _
  active := by
    obtain ⟨place, active⟩ := Option.ne_none_iff_exists'.1 d.busy
    refine ⟨place, active, ?_⟩
    rintro i rfl
    exact Place.mem_position?.2 active
  seen := List.suffix_append _ _
  drawn := by
    intro i seen
    have active := Place.mem_position?.1 seen
    obtain ⟨slot, found, -⟩ := d.ready.slot_of_mem (Arena.mem_regions_of_active active)
    exact ⟨slot, slot, 0, found, found, rfl, .inl (by rw [Nat.zero_mul, Nat.add_zero])⟩
  taken := fun t ht => nomatch ht

theorem begun_rest : d.begun.Rest d 0 where
  ready := ⟨d.ready.suits, d.ready.order, d.ready.agree⟩
  spent := fun _ seen idle => absurd (Place.mem_position?.1 seen) idle
  progress := ⟨[], rfl, rfl, rfl⟩

/-- A race to drain an arena starts under the discipline. -/
theorem disciplined_new (threads : Nat) :
    (Shared.new d.arena d.first threads).Disciplined d.discipline d.begun :=
  .new ⟨rfl, rfl⟩ d.begun_safe d.begun_rest (fun _ => rfl) threads

end Drainage

end RegionHeap.Race
