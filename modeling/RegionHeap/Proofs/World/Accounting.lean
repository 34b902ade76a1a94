import RegionHeap.Proofs.World.Ledger

/-!
# Accounting of the collections

While nobody competes for their regions, what the supply records and what the tallies count
is what the ledger says: every byte of a region that goes back was there when it came, was
handed out since, or is wasted and counted as such.
-/

namespace RegionHeap

open Stint (Current)

/-- The ledger agrees with a world. -/
structure Ledger.Agrees (l : Ledger) (w : World) : Prop where
  current : ∀ k, Current w.heap (w.baseline k) (w.filling k) (l.current k)
  records : w.heap.supply.collectorReturns = l.closed.map Closing.record
  whole : ∀ c ∈ l.closed,
    c.stint.usedBefore + c.stint.handedOut + c.waste = w.heap.supply.geometry.bytes
  tallies : ∀ p, w.heap.evacuation.get p =
    Closing.tally w.heap.supply.geometry.wordBytes (l.recent p)
  words : ∀ p, ∀ c ∈ l.recent p, w.heap.supply.geometry.wordBytes ∣ c.waste

namespace World

variable {w : World} {k : Nat} {site : Site} {l : Ledger}

theorem filling_eq (here : w.sites[k]? = some site) : w.filling k = site.filling := by
  simp [filling, here]

theorem baseline_eq (here : w.sites[k]? = some site) :
    w.baseline k = site.registers.baseline := by
  simp [baseline, here]

theorem filling_of_collector {purpose : Purpose} (here : w.sites[k]? = some site)
    (kind : site.arena.kind = .collector purpose) :
    w.filling k = site.registers.filling := by
  rw [filling_eq here, Site.filling, kind]

theorem filling_of_ne_collector (here : w.sites[k]? = some site)
    (kind : ∀ purpose, site.arena.kind ≠ .collector purpose) : w.filling k = none := by
  rw [filling_eq here, Site.filling]
  cases h : site.arena.kind with
  | plain | mutator => rfl
  | collector purpose => exact absurd h (kind purpose)

theorem purposeOf_of_collector {purpose : Purpose} (here : w.sites[k]? = some site)
    (kind : site.arena.kind = .collector purpose) : w.purposeOf k = some purpose := by
  simp [purposeOf, here, Arena.purpose, kind]

theorem purposeOf_of_ne_collector (here : w.sites[k]? = some site)
    (kind : ∀ purpose, site.arena.kind ≠ .collector purpose) : w.purposeOf k = none := by
  simp only [purposeOf, here, Option.bind_some, Arena.purpose]
  cases h : site.arena.kind with
  | plain | mutator => rfl
  | collector purpose => exact absurd h (kind purpose)

/-- A collection allocates from a region that is held. -/
theorem filling_mem_heldBeside {j i : Nat} (ne : j ≠ k) (h : w.filling j = some i) :
    i ∈ w.heldBeside k := by
  obtain ⟨site, here, filling⟩ := Option.bind_eq_some_iff.1 h
  refine mem_heldBeside here ne ?_
  unfold Site.filling at filling
  cases kind : site.arena.kind with
  | plain | mutator => simp [kind] at filling
  | collector purpose =>
      have active : site.registers.filling = some i := by simpa [kind] using filling
      exact Arena.mem_regions_of_active (s := w.store site) (Arena.filling_eq_some_iff.1 active)

theorem filling_mem_held {i : Nat} (h : w.filling k = some i) : i ∈ w.held :=
  heldBeside_subset (filling_mem_heldBeside (Nat.ne_of_lt (Nat.lt_succ_self k)) h)

end World

namespace Ledger.Agrees

variable {w w' : World} {l : Ledger} {k : Nat}

open World

/-- Where an arena goes on with a region that stays as it is, so does its stint. -/
theorem current_of_same (agrees : l.Agrees w) (action : Action) {j : Nat}
    (sites : (w.perform action).2.sites[j]? = w.sites[j]?)
    (slots : ∀ i, w.filling j = some i →
      (w.perform action).2.heap.supply.slots[i]? = w.heap.supply.slots[i]?)
    (unspent : Happening.span { before := w, action } j = none) :
    Current (w.perform action).2.heap ((w.perform action).2.baseline j)
      ((w.perform action).2.filling j)
        (Happening.stint { before := w, action } j (l.current j)) := by
  have filling : (w.perform action).2.filling j = w.filling j := by
    rw [World.filling, sites]
    rfl
  have baseline : (w.perform action).2.baseline j = w.baseline j := by
    rw [World.baseline, sites]
    rfl
  have here := agrees.current j
  have same : Happening.stint { before := w, action } j (l.current j) = l.current j := by
    change Stint.next _ w.heap (w.filling j) ((w.perform action).2.filling j) _ = _
    rw [unspent, filling, here.next_self]
  rw [same, filling, baseline]
  exact here.congr fun i hi => Heap.loadOf_congr (slots i hi)

theorem span_of_ne {j : Nat} (ne : j ≠ k) (c : Call) :
    Happening.span { before := w, action := .call k c } j = none :=
  if_neg (Ne.symm ne)

/-- The ledger agrees again when what is settled was recorded and counted. -/
theorem of_settled {action : Action} {cs : List Closing} (agrees : l.Agrees w)
    (current : ∀ j, Current (w.perform action).2.heap ((w.perform action).2.baseline j)
      ((w.perform action).2.filling j)
        (Happening.stint { before := w, action } j (l.current j)))
    (closings : Happening.closings { before := w, action } l.current = cs)
    (geometry : (w.perform action).2.heap.supply.geometry = w.heap.supply.geometry)
    (records : (w.perform action).2.heap.supply.collectorReturns =
      w.heap.supply.collectorReturns ++ cs.map Closing.record)
    (whole : ∀ c ∈ cs,
      c.stint.usedBefore + c.stint.handedOut + c.waste = w.heap.supply.geometry.bytes ∧
        w.heap.supply.geometry.wordBytes ∣ c.waste)
    (tallies : ∀ p, (w.perform action).2.heap.evacuation.get p =
      if Happening.resets { before := w, action } p then {}
      else Closing.tally w.heap.supply.geometry.wordBytes
        (l.recent p ++ cs.filter fun c => c.purpose = p)) :
    (l.enter { before := w, action }).Agrees (w.perform action).2 := by
  have closed : (l.enter { before := w, action }).closed = l.closed ++ cs := by
    simp only [enter, closings]
  have recent (p : Purpose) : (l.enter { before := w, action }).recent p =
      if Happening.resets { before := w, action } p then []
      else l.recent p ++ cs.filter fun c => c.purpose = p := by
    simp only [enter, closings]
  refine ⟨current, ?_, ?_, ?_, ?_⟩
  · rw [records, closed, List.map_append, agrees.records]
  · rw [closed, geometry]
    intro c hc
    rcases List.mem_append.1 hc with hc | hc
    · exact agrees.whole c hc
    · exact (whole c hc).1
  · intro p
    rw [tallies, recent, geometry]
    split <;> rfl
  · intro p c hc
    rw [recent] at hc
    rw [geometry]
    split at hc
    · exact absurd hc List.not_mem_nil
    · rcases List.mem_append.1 hc with hc | hc
      · exact agrees.words p c hc
      · exact (whole c (List.mem_of_mem_filter hc)).2

/-- Nothing is settled beside the calls, and an arena that ends no stint settles nothing. -/
theorem of_same (agrees : l.Agrees w) (action : Action)
    (current : ∀ j, Current (w.perform action).2.heap ((w.perform action).2.baseline j)
      ((w.perform action).2.filling j)
        (Happening.stint { before := w, action } j (l.current j)))
    (closings : Happening.closings { before := w, action } l.current = [])
    (geometry : (w.perform action).2.heap.supply.geometry = w.heap.supply.geometry)
    (records : (w.perform action).2.heap.supply.collectorReturns =
      w.heap.supply.collectorReturns)
    (tallies : ∀ p, (w.perform action).2.heap.evacuation.get p =
      if Happening.resets { before := w, action } p then {} else w.heap.evacuation.get p) :
    (l.enter { before := w, action }).Agrees (w.perform action).2 := by
  refine agrees.of_settled current closings geometry ?_ nofun fun p => ?_
  · rw [records, List.map_nil, List.append_nil]
  · rw [tallies, agrees.tallies, List.filter_nil, List.append_nil]

/-- What happens beside the calls does not matter to the ledger, unless it resets a tally. -/
theorem enter_of_not_call (agrees : l.Agrees w) {action : Action} (tidy : action.Tidy w)
    (quiet : ¬ action.Contests) (counted : action.counted = true)
    (other : ∀ k c, action ≠ .call k c) :
    (l.enter { before := w, action }).Agrees (w.perform action).2 := by
  have same := sameBooks_of_not_call tidy other
  have unspent (j : Nat) : Happening.span { before := w, action } j = none := by
    cases action with
    | call k c => exact absurd rfl (other k c)
    | _ => rfl
  have closings : Happening.closings { before := w, action } l.current = [] := by
    cases action with
    | call k c => exact absurd rfl (other k c)
    | _ => rfl
  have current (j : Nat) := agrees.current_of_same action (j := j)
    (congrArg (fun sites => sites[j]?) same.sites)
    (fun i hi => held_slots_of_not_call tidy quiet other (filling_mem_held hi)) (unspent j)
  by_cases silent : ∀ c, action ≠ .onTallies c
  · refine agrees.of_same _ current closings same.geometry same.collectorReturns fun p => ?_
    rw [evacuation_of_not_call tidy other silent, if_neg]
    cases action with
    | onTallies c => exact absurd rfl (silent c)
    | _ => exact nofun
  · obtain ⟨c, rfl⟩ := Classical.not_forall_not.1 silent
    cases c with
    | add purpose words => cases counted
    | get => exact agrees.of_same _ current closings rfl rfl fun _ => rfl
    | total => exact agrees.of_same _ current closings rfl rfl fun _ => rfl
    | reset q =>
        refine agrees.of_same _ current closings rfl rfl fun p => ?_
        change (w.heap.evacuation.reset q).get p = if (q = none || q = some p) = true then _ else _
        cases q with
        | none => cases p <;> rfl
        | some q =>
            change (w.heap.evacuation.set q {}).get p = _
            rw [Evacuation.get_set]
            simp [eq_comm]

/-- A call on one arena is nothing to the stints of the others. -/
theorem current_of_ne (agrees : l.Agrees w) (order : w.Orderly) {c : Call} {site : Site}
    {s : Store} {o : Except Fault Answer} {ds : List Deed} (ran : w.Ran k c site s o ds)
    (adopts : ∀ i ∈ c.adopted (w.call k c).1, w.Unowned i) {j : Nat} (ne : j ≠ k) :
    Current (w.call k c).2.heap ((w.call k c).2.baseline j) ((w.call k c).2.filling j)
      (Happening.stint { before := w, action := .call k c } j (l.current j)) := by
  refine agrees.current_of_same (.call k c) (ran.sites_of_ne ne) (fun i hi => ?_)
    (span_of_ne ne c)
  change (w.call k c).2.heap.supply.slots[i]? = _
  rw [ran.heap]
  exact ran.deeds.frame (order.ready ran.here) (ran.unowned adopts) (filling_mem_heldBeside ne hi)

/-- An arena that does not work for a collection has no stint. -/
theorem enter_call_of_ne_collector (agrees : l.Agrees w) (order : w.Orderly) {c : Call}
    {site : Site} {s : Store} {o : Except Fault Answer} {ds : List Deed}
    (ran : w.Ran k c site s o ds) (adopts : ∀ i ∈ c.adopted (w.call k c).1, w.Unowned i)
    (kind : ∀ purpose, site.arena.kind ≠ .collector purpose) :
    (l.enter { before := w, action := .call k c }).Agrees (w.call k c).2 := by
  obtain ⟨records, tallies⟩ := ran.deeds.unrecorded kind
  refine agrees.of_same (.call k c) (fun j => ?_) ?_ ?_ ?_ fun p => ?_
  · by_cases eq : j = k
    · subst eq
      have after : (w.call j c).2.filling j = none := filling_of_ne_collector ran.here_after kind
      change Current (w.call j c).2.heap _ ((w.call j c).2.filling j)
        (Stint.next _ w.heap _ ((w.call j c).2.filling j) _)
      rw [after]
      exact .idle
    · exact agrees.current_of_ne order ran adopts eq
  · simp [Happening.closings, purposeOf_of_ne_collector ran.here kind]
  · exact (congrArg (fun h : Heap => h.supply.geometry) ran.heap).trans ran.deeds.geometry
  · exact (congrArg (fun h : Heap => h.supply.collectorReturns) ran.heap).trans records
  · exact congrArg (fun e : Evacuation => e.get p)
      ((congrArg Heap.evacuation ran.heap).trans tallies)

/-- An arena of a collection settles the stint that it ends. -/
theorem enter_call_of_collector (agrees : l.Agrees w) (order : w.Orderly)
    (noRivals : w.heap.NoRivals)
    {c : Call} {site : Site} {s : Store} {o : Except Fault Answer} {ds : List Deed}
    (ran : w.Ran k c site s o ds) (adopts : ∀ i ∈ c.adopted (w.call k c).1, w.Unowned i)
    (counted : c.counted = true) {purpose : Purpose}
    (kind : site.arena.kind = .collector purpose) :
    (l.enter { before := w, action := .call k c }).Agrees (w.call k c).2 := by
  have r := order.ready ran.here
  have before : w.filling k = site.registers.filling := filling_of_collector ran.here kind
  have after : (w.call k c).2.filling k = s.registers.filling :=
    filling_of_collector ran.here_after kind
  have current : Current w.heap site.registers.baseline site.registers.filling (l.current k) := by
    have c := agrees.current k
    rwa [before, baseline_eq ran.here] at c
  have outcome : (w.call k c).1 = o := ran.outcome fun _ => kind ▸ nofun
  obtain ⟨goesOn, accounted⟩ :=
    (ran.course.round kind counted (ran.deeds.collects kind noRivals)).stint ran.deeds r kind
      noRivals
      current
  have closings : Happening.closings { before := w, action := .call k c } l.current =
      Stint.closings purpose (l.current k) w.heap s.registers.filling := by
    simp only [Happening.closings, purposeOf_of_collector ran.here kind]
    exact congrArg (Stint.closings purpose (l.current k) w.heap) after
  have unreset (p : Purpose) :
      Happening.resets { before := w, action := .call k c } p = false := rfl
  refine agrees.of_settled (fun j => ?_) closings ?_ ?_ ?_ fun p => ?_
  · by_cases eq : j = k
    · subst eq
      have spent : Happening.span { before := w, action := .call j c } j = c.span o :=
        (if_pos rfl).trans (congrArg c.span outcome)
      change Current (w.call j c).2.heap ((w.call j c).2.baseline j) ((w.call j c).2.filling j)
        (Stint.next (l.current j) w.heap (w.filling j) ((w.call j c).2.filling j) _)
      rw [spent, before, after, ran.heap, baseline_eq ran.here_after]
      exact goesOn
    · exact agrees.current_of_ne order ran adopts eq
  · exact (congrArg (fun h : Heap => h.supply.geometry) ran.heap).trans ran.deeds.geometry
  · exact (congrArg (fun h : Heap => h.supply.collectorReturns) ran.heap).trans accounted.records
  · intro closing hc
    obtain ⟨-, whole, words⟩ := accounted.whole closing hc
    exact ⟨whole, r.suits.word ▸ words⟩
  · have word : site.arena.settings.heapWordBytes = w.heap.supply.geometry.wordBytes :=
      r.suits.word
    have evacuation : ((w.perform (.call k c)).2).heap.evacuation = s.heap.evacuation :=
      congrArg Heap.evacuation ran.heap
    rw [unreset, evacuation, accounted.tallies, word]
    exact Closing.get_foldl_add _ (fun c hc => (accounted.whole c hc).1) (agrees.tallies p)

/-- A call settles what it ends, and carries the other stints on. -/
theorem enter_call (agrees : l.Agrees w) (order : w.Orderly) (noRivals : w.heap.NoRivals) {c : Call}
    (adopts : ∀ i ∈ c.adopted (w.call k c).1, w.Unowned i) (counted : c.counted = true) :
    (l.enter { before := w, action := .call k c }).Agrees (w.call k c).2 := by
  rcases order.call_cases k c with ⟨fault, eq⟩ | ⟨site, s, o, ds, ran⟩
  · have after : (w.perform (.call k c)).2 = w := congrArg Prod.snd eq
    have unspent (j : Nat) : Happening.span { before := w, action := .call k c } j = none := by
      simp only [Happening.span, eq, c.span_error, ite_self]
    have closings : Happening.closings { before := w, action := .call k c } l.current = [] := by
      simp only [Happening.closings, Happening.after, after]
      cases w.purposeOf k with
      | none => rfl
      | some purpose => exact (agrees.current k).closings_self purpose w.heap
    refine agrees.of_same _ (fun j => ?_) closings ?_ ?_ fun p => ?_
    · exact agrees.current_of_same _ (by rw [after]) (fun i hi => by rw [after]) (unspent j)
    · rw [after]
    · rw [after]
    · rw [after]
      rfl
  · by_cases kind : ∀ purpose, site.arena.kind ≠ .collector purpose
    · exact agrees.enter_call_of_ne_collector order ran adopts kind
    · obtain ⟨purpose, kind⟩ := Classical.not_forall_not.1 kind
      exact agrees.enter_call_of_collector order noRivals ran adopts counted kind

/-- Whatever happens while nobody competes, the ledger goes on agreeing with the world. -/
theorem enter (agrees : l.Agrees w) (order : w.Orderly) (noRivals : w.heap.NoRivals)
    {action : Action}
    (tidy : action.Tidy w) (quiet : ¬ action.Contests) (counted : action.counted = true) :
    (l.enter { before := w, action }).Agrees (w.perform action).2 := by
  by_cases isCall : ∃ k c, action = .call k c
  · obtain ⟨k, c, rfl⟩ := isCall
    exact agrees.enter_call order noRivals tidy counted
  · exact agrees.enter_of_not_call tidy quiet counted fun k c eq => isCall ⟨k, c, eq⟩

end Ledger.Agrees

namespace World

variable {w : World} {k : Nat} {site : Site}

theorem ledger_concat (w : World) (actions : List Action) (action : Action) :
    w.ledger (actions ++ [action]) =
      (w.ledger actions).enter { before := w.after actions, action } := by
  simp [ledger, history_concat]

/-- The empty ledger agrees with a world that was just opened. -/
theorem Opened.agrees (opened : w.Opened) : Ledger.Agrees {} w := by
  have idle (k : Nat) : w.filling k = none := by
    rw [filling]
    cases here : w.sites[k]? with
    | none => rfl
    | some site =>
        rw [Option.bind_some, Site.filling, opened.registers (List.mem_of_getElem? here)]
        cases site.arena.kind <;> rfl
  refine ⟨fun k => ?_, opened.fresh.collectorReturns, nofun, fun p => ?_, fun _ => nofun⟩
  · rw [idle]
    exact .idle
  · cases opened
    cases p <;> rfl

/-- The ledger agrees with every world that is reached while nobody competes. -/
theorem Opened.agrees_after (opened : w.Opened) {actions : List Action}
    (tidy : ∀ h ∈ w.history actions, h.action.Tidy h.before ∧ ¬ h.action.Contests)
    (counted : ∀ action ∈ actions, action.counted = true) :
    (w.ledger actions).Agrees (w.after actions) := by
  induction actions using List.reverseRec with
  | nil => exact opened.agrees
  | append_singleton actions action ih =>
      rw [history_concat] at tidy
      have before := fun h hh => tidy h (List.mem_append_left _ hh)
      obtain ⟨last, quiet⟩ := tidy _ (List.mem_append_right _ List.mem_cons_self)
      obtain ⟨order, noRivals⟩ := opened.orderly_after before
      have agrees := ih before fun a ha => counted a (List.mem_append_left _ ha)
      rw [ledger_concat, after_concat]
      exact agrees.enter order noRivals last quiet
        (counted action (List.mem_append_right _ List.mem_cons_self))

/-- A retirement of an arena of a collection answers all that its region has left. -/
theorem Orderly.retire_answer (order : w.Orderly) (noRivals : w.heap.NoRivals) {i : Nat}
    (filling : w.filling k = some i) (b : Bool) :
    (w.call k (.retire b)).1 = .ok (.bytes (w.heap.roomOf i)) := by
  obtain ⟨site, here, place⟩ := Option.bind_eq_some_iff.1 filling
  obtain ⟨purpose, kind⟩ : ∃ purpose, site.arena.kind = .collector purpose :=
    Classical.not_forall_not.1 fun kind => by
      cases filling.symm.trans (filling_of_ne_collector here kind)
  have active : site.registers.active = some (.table i) :=
    Arena.filling_eq_some_iff.1 ((filling_of_collector here kind).symm.trans filling)
  obtain ⟨waste, s, ds, ran, how, left⟩ := order.retire_call here (by simp [active]) b
  rw [ran.outcome nofun]
  have deeds := ran.deeds
  obtain rfl | ⟨j, rfl⟩ := how.cases_giveUp (deeds.collects kind noRivals)
  · cases deeds
    cases active.symm.trans left
  · cases deeds with
    | cons does rest =>
        cases does with
        | @giveUp _ _ _ slot _ _ active' found wasted =>
            cases active.symm.trans active'
            have room : w.heap.roomOf i = slot.region.room := Heap.roomOf_eq found
            rw [Slot.waste_of_rivals_eq_nil (noRivals i slot found)] at wasted
            rw [room, wasted]

/-- What the supply has recorded for the collections is what became of their regions. Of
every region that went back, the bytes that were there when it came, the bytes handed out
since and the bytes wasted make up the whole. The tally of a purpose counts the regions and
the waste since it was last reset, as far as its counters reach; and the waste of a region
is what a retirement answers. -/
theorem accounting {w : World} (opened : w.Opened) (actions : List Action)
    (tidy : ∀ h ∈ w.history actions, h.action.Tidy h.before ∧ ¬ h.action.Contests)
    (counted : ∀ action ∈ actions, action.counted = true) :
    let now := w.after actions
    let ledger := w.ledger actions
    let geometry := now.heap.supply.geometry
    now.heap.supply.collectorReturns = ledger.closed.map Closing.record ∧
      (∀ c ∈ ledger.closed,
        c.stint.usedBefore + c.stint.handedOut + c.waste = geometry.bytes) ∧
      (∀ p, (now.heap.evacuation.get p).regionsFilled = (ledger.recent p).length % 2 ^ 32 ∧
        (now.heap.evacuation.get p).endWasteWords * geometry.wordBytes =
          ((ledger.recent p).map Closing.waste).sum % (2 ^ 64 * geometry.wordBytes)) ∧
      ∀ k i, now.filling k = some i → ∀ filling,
        (now.call k (.retire filling)).1 = .ok (.bytes (now.heap.roomOf i)) := by
  intro now ledger geometry
  have agrees := opened.agrees_after tidy counted
  obtain ⟨order, noRivals⟩ := opened.orderly_after tidy
  refine ⟨agrees.records, agrees.whole, fun p => ?_, fun k i => order.retire_answer noRivals⟩
  rw [agrees.tallies p]
  exact ⟨rfl, Closing.tally_mul _ (agrees.words p)⟩

/-- Two arenas of a purpose each, one of which fills a region that an application has left;
one tally is reset on the way. -/
theorem accounting_small :
    let actions : List Action := [.call 0 .start, .call 0 (.claimLocked 5 5),
      .call 0 (.retire false), .call 0 .release, .call 1 .start, .call 1 (.adopt (.table 0)),
      .call 1 (.claim 1 2), .call 2 .start, .call 2 (.claimLocked 7 7),
      .call 2 (.claimLocked 2 3), .onTallies (.reset (some .old)), .call 1 .release,
      .call 2 (.retire true)]
    let now := small.after actions
    let ledger := small.ledger actions
    now.heap.supply.collectorReturns = ledger.closed.map Closing.record ∧
      ledger.closed.length = 3 ∧
      (now.heap.evacuation.get .old).regionsFilled = (ledger.recent .old).length % 2 ^ 32 := by
  intro actions now ledger
  obtain ⟨records, -, tallies, -⟩ :=
    accounting small_opened actions (by decide +kernel) (by decide +kernel)
  exact ⟨records, by decide +kernel, (tallies .old).1⟩

end World

end RegionHeap
