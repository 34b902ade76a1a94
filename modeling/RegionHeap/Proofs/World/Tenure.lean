import RegionHeap.Proofs.World.Registers

/-!
# What an arena has installed since it started

The history of a world tells when an arena starts, and which regions it installs: those that it
is granted by a call that is answered, and those that it adopts. What it has counted since it
started last are these regions, and what it has handed back and what it holds are made up of
them.
-/

namespace RegionHeap

/-- The regions that the arena at a position installs on a call. -/
def World.installsOn (w : World) (k : Nat) (c : Call) : List Nat :=
  match (w.call k c).1 with
  | .ok v =>
      (w.call k c).2.heap.supply.granted.drop w.heap.supply.granted.length ++ c.adopted (.ok v)
  | .error _ => []

/-- The regions that the arena at a position hands back on a call. -/
def World.handedBackOn (w : World) (k : Nat) (c : Call) : List Nat :=
  (w.call k c).2.heap.supply.returned.diff w.heap.supply.returned

namespace Happening

/-- Whether the arena at a position starts. -/
def starts (h : Happening) (k : Nat) : Bool :=
  match h.action with
  | .call j c => j = k && c.starts && (h.before.call j c).1.isOk
  | _ => false

/-- The regions that the arena at a position installs. -/
def installs (h : Happening) (k : Nat) : List Nat :=
  match h.action with
  | .call j c => if j = k then h.before.installsOn j c else []
  | _ => []

/-- The regions that the arena at a position hands back. -/
def handBacks (h : Happening) (k : Nat) : List Nat :=
  match h.action with
  | .call j c => if j = k then h.before.handedBackOn j c else []
  | _ => []

end Happening

namespace World

/-- What is found in the history since the arena at a position has started last. -/
def sinceStart (w : World) (k : Nat) (found : Happening → List Nat) (actions : List Action) :
    List Nat :=
  (w.history actions).foldl (fun before h => if h.starts k then [] else before ++ found h) []

theorem sinceStart_concat (w : World) (k : Nat) (found : Happening → List Nat)
    (actions : List Action) (action : Action) :
    w.sinceStart k found (actions ++ [action]) =
      if Happening.starts { before := w.after actions, action } k then []
      else w.sinceStart k found actions ++ found { before := w.after actions, action } := by
  unfold sinceStart
  rw [history_concat, List.foldl_append]
  rfl

variable {w : World} {k : Nat} {c : Call} {site site' : Site} {granted : List Nat}
  {o : Except Fault Answer} {s : Store}

namespace Exchanged

theorem held_perm (ex : w.Exchanged k c site granted o s) :
    (w.call k c).2.held.Perm (s.registers.regions ++ w.heldBeside k) :=
  held_perm_set ex.here ex.sites

/-- What is installed on a call that is answered. -/
theorem installsOn_ok (ex : w.Exchanged k c site granted o s) {v : Answer}
    (answered : (w.call k c).1 = .ok v) {more : List Nat}
    (grants : s.heap.supply.granted = w.heap.supply.granted ++ more) :
    w.installsOn k c = more ++ c.adopted (.ok v) := by
  simp only [installsOn, answered]
  rw [ex.heap, grants, List.drop_left]

theorem installsOn_error {fault : Fault} (failed : (w.call k c).1 = .error fault) :
    w.installsOn k c = [] := by
  simp only [installsOn, failed]

end Exchanged

theorem handedBackOn_of_same (same : (w.call k c).2 = w) : w.handedBackOn k c = [] := by
  rw [handedBackOn, same]
  induction w.heap.supply.returned with
  | nil => rfl
  | cons i rest ih => simpa using ih

/-- How the arena stands after a call, compared to before: what it has handed back and holds,
and what it has counted. -/
structure Tenure (w : World) (k : Nat) (c : Call) (site : Site) (s : Store) : Prop where
  returned : w.heap.supply.returned.Subperm s.heap.supply.returned
  hands : (s.heap.supply.returned ++ s.registers.regions).Perm
    (w.heap.supply.returned ++ site.registers.regions ++ w.installsOn k c)
  count : s.registers.count =
    if c.starts && (w.call k c).1.isOk then 0
    else (site.registers.count + (w.installsOn k c).length) % Nat.pow 2 32
  idle : (c.starts && (w.call k c).1.isOk) = false → site.registers.active = none →
    s.registers.active = none ∧ w.installsOn k c = []
  begins : (c.starts && (w.call k c).1.isOk) = true →
    s.registers.active = some .sentinel ∧ s.registers.retained = site.registers.retained ∧
      (c.anew site.arena.kind = true → site.registers.retained = none)

/-- A trade is counted as what is installed. -/
theorem Tenure.of_trades (trades : site.arena.Trades granted (w.installsOn k c) (w.store site) s)
    (goesOn : (c.starts && (w.call k c).1.isOk) = false) : w.Tenure k c site s where
  returned := trades.returned
  hands := trades.hands
  count := by
    rw [goesOn]
    exact trades.count
  idle := fun _ => trades.idle
  begins := fun starts => by
    rw [goesOn] at starts
    cases starts

/-- A start brings nothing. -/
theorem Tenure.of_begins (begins : site.arena.Begins (c.anew site.arena.kind) (w.store site) s)
    (starts : (c.starts && (w.call k c).1.isOk) = true) (none : w.installsOn k c = []) :
    w.Tenure k c site s := by
  have before : (w.store site).registers.active = Option.none := begins.idle
  have idle : site.registers.active = Option.none := before
  have heap : s.heap = w.heap := begins.heap
  have registers := begins.registers
  refine ⟨?_, ?_, ?_, fun not => ?_, fun _ => ⟨?_, ?_, begins.clear⟩⟩
  · rw [heap]
  · rw [none, heap, registers]
    simp [Registers.regions, idle, store]
  · rw [starts, registers]
    rfl
  · rw [starts] at not
    cases not
  · rw [registers]
  · rw [registers]
    rfl

theorem Exchanged.tenure (ex : w.Exchanged k c site granted o s)
    (regs : site.arena.RegistersTrue (w.store site)) : w.Tenure k c site s := by
  have outcome := ex.outcome
  have failed {fault : Fault} {granted : List Nat} {s : Store}
      (failed : (w.call k c).1 = .error fault)
      (trades : site.arena.Trades granted [] (w.store site) s) : w.Tenure k c site s := by
    rw [← Exchanged.installsOn_error failed] at trades
    refine .of_trades trades ?_
    rw [failed]
    exact Bool.and_false _
  cases ex.exchange with
  | stays e nothing =>
      rcases outcome with same | ⟨v, eq, -⟩
      · exact failed same (.refl regs)
      · cases eq
  | noted adopts found used active =>
      rcases outcome with same | ⟨v, eq, -⟩
      · have still := failed same (.refl regs)
        exact ⟨still.returned, still.hands, still.count, still.idle, still.begins⟩
      · cases eq
  | failed noBreach trades =>
      rcases outcome with same | ⟨v, eq, -⟩
      · exact failed same trades
      · cases eq
  | begun v starts nothing begins =>
      rcases outcome with same | ⟨v, -, rfl, -⟩
      · have grants : s.heap.supply.granted = w.heap.supply.granted ++ [] := by
          rw [begins.heap, List.append_nil]
          rfl
        have own : c.adopted (.ok v) = [] := by
          cases c with
          | start | startPlain => rfl
          | _ => cases starts
        have none := ex.installsOn_ok same grants
        rw [own] at none
        refine .of_begins begins ?_ none
        rw [starts, same]
        rfl
      · cases starts
  | traded v goesOn nothing trades =>
      have still : (c.starts && (w.call k c).1.isOk) = false := by
        rw [goesOn]
        rfl
      rcases outcome with same | ⟨v, -, rfl, overflow⟩
      · rw [← ex.installsOn_ok same trades.granted] at trades
        exact .of_trades trades still
      · obtain rfl := nothing rfl
        exact failed overflow trades

/-- What is handed back on a call and what is held then are made up of what was held and what is
installed. -/
theorem Exchanged.matched (ex : w.Exchanged k c site granted o s)
    (regs : site.arena.RegistersTrue (w.store site)) :
    (w.installsOn k c ++ site.registers.regions).Perm
      (w.handedBackOn k c ++ s.registers.regions) := by
  have tenure := ex.tenure regs
  rw [List.perm_iff_count]
  intro i
  have more := tenure.returned.count_le i
  have hands := tenure.hands.count_eq i
  rw [handedBackOn, ex.heap]
  simp only [List.count_append, List.count_diff] at hands ⊢
  omega

end World

/-- How the arena at a position stands after something has happened, compared to before. -/
structure Happening.Leaves (h : Happening) (k : Nat) (site site' : Site) : Prop where
  arena : site'.arena = site.arena
  matched : (h.installs k ++ site.registers.regions).Perm
    (h.handBacks k ++ site'.registers.regions)
  count : site'.registers.count =
    if h.starts k then 0 else (site.registers.count + (h.installs k).length) % Nat.pow 2 32
  idle : h.starts k = false → site.registers.active = none →
    site'.registers.active = none ∧ h.installs k = []
  begins : h.starts k = true → ∃ c, h.action = .call k c ∧ c.starts = true ∧
    site'.registers.active = some .sentinel ∧
      site'.registers.retained = site.registers.retained ∧
        (c.anew site.arena.kind = true → site.registers.retained = none)

namespace World

variable {w : World} {k : Nat} {site' : Site}

/-- How the arena at a position stands after an action. -/
theorem RegistersTrue.leaves (regs : w.RegistersTrue) {action : Action}
    (spares : action.SparesHeld w)
    (here : (w.perform action).2.sites[k]? = some site') :
    ∃ site, w.sites[k]? = some site ∧
      Happening.Leaves { before := w, action } k site site' := by
  have unchanged {h : Happening} (same : w.sites[k]? = some site') (starts : h.starts k = false)
      (installs : h.installs k = []) (handBacks : h.handBacks k = []) :
      ∃ site, w.sites[k]? = some site ∧ h.Leaves k site site' := by
    refine ⟨site', same, rfl, ?_, ?_, fun _ none => ⟨none, installs⟩, fun begins => ?_⟩
    · rw [installs, handBacks]
    · rw [starts, installs]
      exact (Nat.mod_eq_of_lt (regs.sites (List.mem_of_getElem? same)).counted).symm
    · rw [starts] at begins
      cases begins
  by_cases isCall : ∃ j c, action = .call j c
  · obtain ⟨j, c, rfl⟩ := isCall
    change (w.call j c).2.sites[k]? = some site' at here
    rcases regs.call_cases j c with ⟨fault, eq⟩ | ⟨site, granted, o, s, ex⟩
    · have failed : (w.call j c).1 = .error fault := congrArg Prod.fst eq
      have same : (w.call j c).2 = w := congrArg Prod.snd eq
      rw [same] at here
      refine unchanged here ?_ ?_ ?_
      · simp [Happening.starts, failed, Except.isOk, Except.toBool]
      · simp [Happening.installs, Exchanged.installsOn_error failed]
      · simp [Happening.handBacks, handedBackOn_of_same same]
    · by_cases mine : j = k
      · subst mine
        cases ex.here_after.symm.trans here
        have stands := regs.sites (List.mem_of_getElem? ex.here)
        have tenure := ex.tenure stands
        refine ⟨site, ex.here, rfl, ?_, ?_, ?_, ?_⟩
        · simpa [Happening.installs, Happening.handBacks] using ex.matched stands
        · simpa [Happening.starts, Happening.installs] using tenure.count
        · simpa [Happening.starts, Happening.installs] using tenure.idle
        · intro starts
          have starts : (c.starts && (w.call j c).1.isOk) = true := by
            simpa [Happening.starts] using starts
          exact ⟨c, rfl, (Bool.and_eq_true_iff.1 starts).1, tenure.begins starts⟩
      · rw [ex.sites_of_ne (Ne.symm mine)] at here
        refine unchanged here ?_ ?_ ?_
        · simp [Happening.starts, mine]
        · simp [Happening.installs, mine]
        · simp [Happening.handBacks, mine]
  · have other : ∀ k c, action ≠ .call k c := fun k c eq => isCall ⟨k, c, eq⟩
    rw [(spares_of_not_call regs.allPlaced spares other).2] at here
    cases action with
    | call j c => exact absurd rfl (other j c)
    | _ => exact unchanged here rfl rfl rfl

/-- What holds of the arena at a position at first, and goes on to hold however it is left, holds
of it after all actions. -/
theorem RegistersTrue.tenure_induction {P : List Action → Site → Prop} (regs : w.RegistersTrue)
    (start : ∀ {site}, w.sites[k]? = some site → P [] site)
    (step : ∀ {actions action site site'}, (w.after actions).RegistersTrue →
      (w.after actions).sites[k]? = some site →
        Happening.Leaves { before := w.after actions, action } k site site' →
          P actions site → P (actions ++ [action]) site')
    {actions : List Action} (spares : ∀ h ∈ w.history actions, h.action.SparesHeld h.before)
    {site : Site} (here : (w.after actions).sites[k]? = some site) : P actions site := by
  induction actions using List.reverseRecOn generalizing site with
  | nil => exact start here
  | append_singleton actions action ih =>
      rw [history_concat] at spares
      rw [after_concat] at here
      have before := fun h mem => spares h (List.mem_append_left _ mem)
      have now : action.SparesHeld (w.after actions) :=
        spares _ (List.mem_append_right _ List.mem_cons_self)
      have stands := (regs.after before).1
      obtain ⟨old, there, leaves⟩ := stands.leaves now here
      exact step stands there leaves (ih before there)

end World

end RegionHeap
