import RegionHeap.Proofs.World.Tenure

/-!
# The slots of an arena

Whatever is asked of the arenas of a world, in the way of their kind or not, and whatever stops
halfway: an active region is in use, nothing ever comes of the sentinel, the counter counts what
was installed since the start, and a collection has noted no more than its region holds.
-/

namespace RegionHeap

namespace World

variable {w : World} {k : Nat} {c : Call} {site : Site} {actions : List Action}

/-- How the arena `site` at position `k` stands after the actions. -/
structure Kept (w : World) (actions : List Action) (k : Nat) (site : Site) : Prop where
  occupied : ∀ i, site.registers.active = some (.table i) →
    ∃ slot, (w.after actions).heap.supply.slots[i]? = some slot ∧
      slot.region.isEmpty = .ok false
  real : site.registers.retained ≠ some .sentinel
  count : site.registers.count =
    (w.sinceStart k (fun h => h.installs k) actions).length % 2 ^ 32
  unstarted : (∀ h ∈ w.history actions, h.starts k = false) → site.registers.count = 0
  withdrawn : ∀ c : Call, c.withdraws = true → ∀ site',
    ((w.after actions).call k c).2.sites[k]? = some site' →
      site'.registers.count = site.registers.count
  idle : (∀ i, site.registers.active ≠ some (.table i)) → site.registers.baseline = 0
  noted : ∀ i, site.registers.active = some (.table i) →
    ∃ slot used, (w.after actions).heap.supply.slots[i]? = some slot ∧
      slot.region.used = .ok used ∧ site.registers.baseline ≤ used

/-- A call hands regions back that its arena held, or that have just come to it. -/
theorem RegistersTrue.call_hands (regs : w.RegistersTrue) (k : Nat) (c : Call) :
    ((w.call k c).2.heap.supply.returned ++ (w.call k c).2.held).Perm
      (w.heap.supply.returned ++ w.held ++ w.installsOn k c) := by
  rcases regs.call_cases k c with ⟨fault, eq⟩ | ⟨site, granted, o, s, ex⟩
  · rw [Exchanged.installsOn_error (congrArg Prod.fst eq), eq]
    simp
  · have mine := (ex.tenure (regs.sites (List.mem_of_getElem? ex.here))).hands
    have after := ex.held_perm
    have before := World.held_perm ex.here
    rw [ex.heap]
    rw [List.perm_iff_count] at mine after before ⊢
    intro i
    have mine := mine i
    have after := after i
    have before := before i
    simp only [List.count_append] at mine after before ⊢
    omega

/-- A call that gives up what is active counts nothing. -/
theorem RegistersTrue.call_withdraws (regs : w.RegistersTrue) (here : w.sites[k]? = some site)
    (withdraws : c.withdraws = true) {site' : Site}
    (here' : (w.call k c).2.sites[k]? = some site') :
    site'.registers.count = site.registers.count := by
  rcases regs.call_cases k c with ⟨fault, eq⟩ | ⟨other, granted, o, s, ex⟩
  · rw [eq] at here'
    cases here.symm.trans here'
    rfl
  · cases here.symm.trans ex.here
    cases ex.here_after.symm.trans here'
    have stands := regs.sites (List.mem_of_getElem? here)
    have still : site.registers.count = site.registers.count % Nat.pow 2 32 :=
      (Nat.mod_eq_of_lt stands.counted).symm
    cases ex.exchange with
    | stays e nothing => rfl
    | noted => rfl
    | failed noBreach trades => exact trades.count.trans still.symm
    | begun v starts nothing begins =>
        cases c with
        | start | startPlain => cases withdraws
        | _ => cases starts
    | traded v goesOn nothing trades =>
        obtain rfl := nothing withdraws
        have own : c.adopted (.ok v) = [] := by
          cases c with
          | adopt place => cases withdraws
          | _ => rfl
        rw [own] at trades
        exact trades.count.trans still.symm

/-- The counter counts the regions installed since the start, and before the first start
nothing is installed. -/
structure Counted (w : World) (k : Nat) (actions : List Action) (site : Site) : Prop where
  count : site.registers.count =
    (w.sinceStart k (fun h => h.installs k) actions).length % Nat.pow 2 32
  unstarted : (∀ h ∈ w.history actions, h.starts k = false) →
    site.registers.active = none ∧ w.sinceStart k (fun h => h.installs k) actions = []

theorem RegistersTrue.counted (regs : w.RegistersTrue) (new : ∀ site ∈ w.sites, site.registers = {})
    (spares : ∀ h ∈ w.history actions, h.action.SparesHeld h.before)
    (here : (w.after actions).sites[k]? = some site) : w.Counted k actions site := by
  refine regs.tenure_induction (P := w.Counted k) (fun first => ?_) ?_ spares here
  · have registers := new _ (List.mem_of_getElem? first)
    constructor <;> simp [registers, sinceStart]
  · rintro actions action old site - - leaves ⟨counted, unstarted⟩
    constructor
    · rw [leaves.count, sinceStart_concat]
      by_cases starts : Happening.starts { before := w.after actions, action } k = true
      · rw [if_pos starts, if_pos starts]
        rfl
      · rw [if_neg starts, if_neg starts, counted, Nat.mod_add_mod, List.length_append]
    · rw [history_concat, sinceStart_concat]
      intro never
      obtain ⟨none, nothing⟩ := unstarted fun h mem => never h (List.mem_append_left _ mem)
      have starts : Happening.starts { before := w.after actions, action } k = false :=
        never _ (List.mem_append_right _ List.mem_cons_self)
      obtain ⟨still, installs⟩ := leaves.idle starts none
      refine ⟨still, ?_⟩
      rw [starts, nothing, installs]
      rfl

/-- All arenas with true registers over a fresh sentinel keep to what their slots are for. -/
theorem RegistersTrue.kept (regs : w.RegistersTrue) (unused : w.heap.sentinel.load = 0)
    (new : ∀ site ∈ w.sites, site.registers = {})
    (spares : ∀ h ∈ w.history actions, h.action.SparesHeld h.before)
    (here : (w.after actions).sites[k]? = some site) : w.Kept actions k site := by
  have now := (regs.after spares).1
  have stands := now.sites (List.mem_of_getElem? here)
  have notes : (w.after actions).NotesActiveOnly :=
    regs.after_notes spares (fun mem _ => by rw [new _ mem]) (regs.clear_of_unused spares unused)
  obtain ⟨count, unstarted⟩ := regs.counted new spares here
  constructor
  · intro i active
    obtain ⟨slot, found, full, -⟩ := stands.active active
    refine ⟨slot, found, ?_⟩
    rw [(now.allPlaced.placed found).isEmpty_eq]
    simpa using full
  · exact stands.agree.real
  · exact count
  · intro never
    rw [count, (unstarted never).2]
    rfl
  · intro c withdraws site' here'
    exact now.call_withdraws here withdraws here'
  · exact notes (List.mem_of_getElem? here)
  · intro i active
    obtain ⟨slot, found, -, enough⟩ := stands.active active
    exact ⟨slot, _, found, (now.allPlaced.placed found).used_eq, enough⟩

/-- In a world over a fresh sentinel whose regions are not reset while they are held, all arenas
keep to what their slots are for, whatever they are asked for. The sentinel stays as it was: no
claim on it is served, nobody puts it aside, and nobody hands it back, since what a call hands
back was held before or has just been installed. -/
theorem slot_invariant {w : World} (opened : w.Opened)
    (fresh : w.heap.sentinel.reset = w.heap.sentinel) (actions : List Action)
    (spares : ∀ h ∈ w.history actions, h.action.SparesHeld h.before) :
    let now := w.after actions
    now.heap.sentinel = w.heap.sentinel ∧
      (∀ min desired, min ≤ desired →
        now.heap.sentinel.claim min desired = .ok (none, now.heap.sentinel)) ∧
      (∀ k c, ((now.call k c).2.heap.supply.returned ++ (now.call k c).2.held).Perm
        (now.heap.supply.returned ++ now.held ++ now.installsOn k c)) ∧
      ∀ k site, now.sites[k]? = some site → w.Kept actions k site := by
  intro now
  have unused : w.heap.sentinel.load = 0 := by
    have bottom := congrArg Region.top fresh
    rw [Region.reset_top] at bottom
    rw [Region.load, bottom, Nat.sub_self]
  have start := opened.registersTrue
  obtain ⟨regs, sentinel⟩ : now.RegistersTrue ∧ now.heap.sentinel = w.heap.sentinel :=
    start.after spares
  refine ⟨sentinel, fun min desired le => ?_, regs.call_hands, fun k site here => ?_⟩
  · exact Region.claim_of_full regs.allPlaced.full regs.allPlaced.sentinelWord le
  · exact start.kept unused (fun _ mem => opened.registers mem) spares here

/-- A rival takes all of a granted region, an empty region is adopted in vain, and a region that
was handed back is adopted in the end. -/
theorem slot_invariant_small :
    let actions : List Action := [.call 1 .start, .addRival 0 8, .call 1 (.claimForced 8),
      .call 1 (.adopt (.table 2)), .call 1 (.claimFresh 0 0), .call 1 (.claimLocked 3 5),
      .call 1 (.retirePlain true), .call 1 .release, .call 1 .startPlain,
      .call 1 (.adopt (.table 2)), .call 0 .start, .call 0 (.install 8), .call 0 (.retire true)]
    let now := small.after actions
    now.heap.sentinel = .full ∧
      ∃ site, now.sites[1]? = some site ∧ small.Kept actions 1 site ∧
        site.registers.active = some (.table 2) ∧ site.registers.count = 1 := by
  intro actions now
  obtain ⟨sentinel, -, -, kept⟩ := slot_invariant small_opened rfl actions (by decide +kernel)
  have shape : (now.sites[1]?).map (fun site => (site.registers.active, site.registers.count)) =
      some (some (.table 2), 1) := by
    decide +kernel
  obtain ⟨site, here, eq⟩ := Option.map_eq_some_iff.1 shape
  obtain ⟨active, count⟩ := Prod.mk.inj eq
  exact ⟨sentinel, site, here, kept 1 site here, active, count⟩

end World

end RegionHeap
