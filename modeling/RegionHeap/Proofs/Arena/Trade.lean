import RegionHeap.Proofs.Arena.Course

/-!
# What an arena trades with the supply

The registers of an arena are *true* if the arena is able, its counter is a counter of 32 bits,
and the active region holds at least the bytes that were noted when it was installed. Whatever
such an arena does apart from starting is a trade: its registers stay true, the regions are
worked on at most, the sentinel is not touched, and what was handed back and is held is what
it was before, together with what was gained. Each region gained is counted once. If bytes
were noted of an active region only, this goes on to hold.
-/

namespace RegionHeap

/-- Bytes are noted of an active region only. -/
def Registers.NotesActiveOnly (r : Registers) : Prop :=
  (∀ i, r.active ≠ some (.table i)) → r.baseline = 0

/-- Whether a deed is part of a trade: it is no start, and no note of a region that is not
adopted. -/
def Deed.isTrade : Deed → Bool
  | start _ | note _ => false
  | _ => true

namespace Arena

/-- An able arena whose counter is a counter and whose notes are true. -/
structure RegistersTrue (a : Arena) (s : Store) : Prop extends Able a s where
  counted : s.registers.count < Nat.pow 2 32
  /-- The active region is in use, with at least the bytes noted when it was installed. -/
  active : ∀ {i : Nat}, s.registers.active = some (.table i) →
    s.heap.Loaded i s.registers.baseline
  /-- Only an arena that works for a collection takes notes. -/
  noteless : a.purpose = none → s.registers.baseline = 0
  /-- Only an arena that keeps regions counts what is wasted. -/
  wasteless : a.kind ≠ .mutator → s.registers.wasted = 0

variable {a : Arena} {s s' s'' : Store} {d : Deed} {ds : List Deed}
  {granted gained granted' gained' : List Nat}

/-- An arena that works for a collection notes what it is told to. -/
theorem noting_of_purpose (collects : a.purpose ≠ none) (bytes before : Nat) :
    a.noting bytes before = bytes := by
  unfold purpose at collects
  unfold noting
  cases kind : a.kind with
  | collector purpose => rfl
  | plain | mutator => exact absurd (by rw [kind]) collects

/-- Any other arena notes nothing. -/
theorem noting_of_no_purpose (none : a.purpose = none) (bytes before : Nat) :
    a.noting bytes before = before := by
  unfold purpose at none
  unfold noting
  cases kind : a.kind with
  | plain | mutator => rfl
  | collector purpose =>
      rw [kind] at none
      cases none

namespace RegistersTrue

/-- Only an arena that works for a collection has notes. -/
theorem noting_of_noteless (regs : a.RegistersTrue s) (none : a.purpose = none) (bytes : Nat) :
    a.noting bytes s.registers.baseline = 0 :=
  (noting_of_no_purpose none _ _).trans (regs.noteless none)

/-- Handing a region back clears the notes. -/
theorem noting_zero (regs : a.RegistersTrue s) : a.noting 0 s.registers.baseline = 0 := by
  by_cases none : a.purpose = none
  · exact regs.noting_of_noteless none 0
  · exact noting_of_purpose none 0 _

/-- Others may do what spares the regions of the arena. -/
theorem spared (regs : a.RegistersTrue s) (spares : s.heap.Spares s.registers.regions s'.heap)
    (registers : s'.registers = s.registers) : a.RegistersTrue s' where
  suits := spares.geometry ▸ regs.suits
  allPlaced := spares.allPlaced
  occupied := by
    rw [registers]
    intro i mine
    exact spares.loaded mine (regs.occupied i mine)
  agree := by
    rw [registers]
    refine { regs.agree with baseline := ?_ }
    intro purpose i slot kind active found
    obtain ⟨slot', found', -, enough⟩ :=
      spares.loaded (mem_regions_of_active active) (regs.active active)
    cases found.symm.trans found'
    exact enough
  counted := registers ▸ regs.counted
  active := by
    rw [registers]
    intro i active
    exact spares.loaded (mem_regions_of_active active) (regs.active active)
  noteless := registers ▸ regs.noteless
  wasteless := registers ▸ regs.wasteless

/-- Others may work on the heap. -/
theorem moved (regs : a.RegistersTrue s) (worked : s.heap.Worked s'.heap)
    (registers : s'.registers = s.registers) : a.RegistersTrue s' :=
  regs.spared (worked.spares regs.allPlaced _) registers

/-- For an able arena that holds no active region, it does not matter what a collection has
noted. -/
theorem of_idle (able : a.Able s) (counted : s.registers.count < Nat.pow 2 32)
    (none : ∀ i, s.registers.active ≠ some (.table i))
    (noteless : a.purpose = Option.none → s.registers.baseline = 0)
    (wasteless : a.kind ≠ .mutator → s.registers.wasted = 0) : a.RegistersTrue s where
  toAble := able
  counted := counted
  active := fun {i} active => absurd active (none i)
  noteless := noteless
  wasteless := wasteless

/-- Over the sentinel, an arena may note what it likes. -/
theorem noted (regs : a.RegistersTrue s) (active : s.registers.active = some .sentinel)
    (bytes : Nat) :
    a.RegistersTrue (a.noted bytes s) where
  suits := regs.suits
  allPlaced := regs.allPlaced
  occupied := regs.occupied
  agree := { regs.agree with
    baseline := fun kind here found => by
      have here : s.registers.active = some _ := here
      rw [active] at here
      cases here }
  counted := regs.counted
  active := fun {i} here => by
    have here : s.registers.active = some (.table i) := here
    rw [active] at here
    cases here
  noteless := fun none => regs.noting_of_noteless none bytes
  wasteless := regs.wasteless

/-- The registers of a new arena are true, if the sizes suit it. -/
theorem new {h : Heap} (suits : a.Suits h.supply.geometry) (allPlaced : h.AllPlaced) :
    a.RegistersTrue { registers := {}, heap := h } := by
  have agree : a.RegistersAgree h {} :=
    ⟨fun kept => absurd rfl kept, nofun, nofun, Nat.two_pow_pos 64⟩
  exact .of_idle ⟨suits, allPlaced, nofun, agree⟩ (Nat.two_pow_pos 32) nofun (fun _ => rfl)
    fun _ => rfl

end RegistersTrue

/-- Between the two stores the arena has traded: it was granted some regions, and has gained
some. -/
structure Trades (a : Arena) (granted gained : List Nat) (s s' : Store) : Prop where
  registersTrue : a.RegistersTrue s'
  worked : s.heap.Worked s'.heap
  granted : s'.heap.supply.granted = s.heap.supply.granted ++ granted
  returned : s.heap.supply.returned.Subperm s'.heap.supply.returned
  hands : (s'.heap.supply.returned ++ s'.registers.regions).Perm
    (s.heap.supply.returned ++ s.registers.regions ++ gained)
  count : s'.registers.count = (s.registers.count + gained.length) % Nat.pow 2 32
  /-- An idle arena has nothing to trade with. -/
  idle : s.registers.active = none → s'.registers.active = none ∧ gained = []
  notes : s.registers.NotesActiveOnly → s'.registers.NotesActiveOnly

namespace Trades

theorem refl (regs : a.RegistersTrue s) : a.Trades [] [] s s where
  registersTrue := regs
  worked := .refl regs.allPlaced
  granted := (List.append_nil _).symm
  returned := .refl _
  hands := by simp
  count := (Nat.mod_eq_of_lt regs.counted).symm
  idle := fun none => ⟨none, rfl⟩
  notes := id

theorem trans (first : a.Trades granted gained s s') (second : a.Trades granted' gained' s' s'') :
    a.Trades (granted ++ granted') (gained ++ gained') s s'' where
  registersTrue := second.registersTrue
  worked := first.worked.trans second.worked
  granted := by rw [second.granted, first.granted, List.append_assoc]
  returned := first.returned.trans second.returned
  hands := by
    rw [← List.append_assoc]
    exact second.hands.trans (first.hands.append_right gained')
  count := by
    rw [second.count, first.count, Nat.mod_add_mod, List.length_append, Nat.add_assoc]
  idle := by
    intro none
    obtain ⟨still, nothing⟩ := first.idle none
    obtain ⟨last, more⟩ := second.idle still
    exact ⟨last, by rw [nothing, more]; rfl⟩
  notes := second.notes ∘ first.notes

/-- The arena was granted some regions and left them. -/
theorem left (regs : a.RegistersTrue s) (worked : s.heap.Worked s'.heap)
    (registers : s'.registers = s.registers)
    (granted : s'.heap.supply.granted = s.heap.supply.granted ++ granted')
    (returned : s'.heap.supply.returned = s.heap.supply.returned) :
    a.Trades granted' [] s s' where
  registersTrue := regs.moved worked registers
  worked := worked
  granted := granted
  returned := by rw [returned]
  hands := by simp [registers, returned]
  count := by
    rw [registers]
    exact (Nat.mod_eq_of_lt regs.counted).symm
  idle := by
    rw [registers]
    exact fun none => ⟨none, rfl⟩
  notes := by
    rw [registers]
    exact id

/-- Over the sentinel, the arena has taken note of an empty region. -/
theorem noted_zero (regs : a.RegistersTrue s) (active : s.registers.active = some .sentinel) :
    a.Trades [] [] s (a.noted 0 s) where
  registersTrue := regs.noted active 0
  worked := .refl regs.allPlaced
  granted := (List.append_nil _).symm
  returned := .refl _
  hands := by simp [noted, Registers.regions]
  count := (Nat.mod_eq_of_lt regs.counted).symm
  idle := fun none => ⟨none, rfl⟩
  notes := fun _ _ => regs.noting_zero

end Trades

/-- Between the two stores the arena, which was idle, has started. If it counts waste anew, it
had nothing put aside. -/
structure Begins (a : Arena) (anew : Bool) (s s' : Store) : Prop where
  registersTrue : a.RegistersTrue s'
  idle : s.registers.active = none
  clear : anew = true → s.registers.retained = none
  heap : s'.heap = s.heap
  registers : s'.registers = { s.registers with
    active := some .sentinel
    count := 0
    wasted := if anew then 0 else s.registers.wasted }

/-- A start notes nothing. -/
theorem Begins.notes {anew : Bool} (h : a.Begins anew s s') (before : s.registers.NotesActiveOnly) :
    s'.registers.NotesActiveOnly := by
  intro _
  rw [h.registers]
  exact before (by simp [h.idle])

/-- What was handed back and is held changes by what is gained. -/
theorem Does.hands (h : a.Does d s s') :
    (s'.heap.supply.returned ++ s'.registers.regions).Perm
      (s.heap.supply.returned ++ s.registers.regions ++ d.gained) := by
  rw [List.perm_iff_count]
  intro i
  have returned := h.returned.count_eq i
  have regions := h.regions.count_eq i
  simp only [List.count_append] at returned regions ⊢
  omega

/-- A deed that is part of a trade counts what it gains. -/
theorem Does.count (h : a.Does d s s') (trade : d.isTrade = true)
    (counted : s.registers.count < Nat.pow 2 32) :
    s'.registers.count = (s.registers.count + d.gained.length) % Nat.pow 2 32 := by
  have still : s.registers.count = (s.registers.count + 0) % Nat.pow 2 32 :=
    (Nat.mod_eq_of_lt counted).symm
  cases h with
  | start | note => cases trade
  | install | adopt => rfl
  | claim | outrun | giveUp | keep | displace | drop | refuse | lose | stop => exact still

/-- An idle arena stays idle while it trades, and gains nothing. -/
theorem Does.idle (h : a.Does d s s') (trade : d.isTrade = true)
    (idle : s.registers.active = none) : s'.registers.active = none ∧ d.gained = [] := by
  cases h with
  | start | note => cases trade
  | claim | outrun | drop => exact ⟨idle, rfl⟩
  | stop => exact ⟨rfl, rfl⟩
  | giveUp active | keep kind active | displace kind active | refuse active | install active
  | lose active | adopt active =>
      rw [idle] at active
      cases active

/-- What an arena wastes that keeps no regions is not counted. -/
theorem Does.wasteless (h : a.Does d s s') (kind : a.kind ≠ .mutator)
    (zero : s.registers.wasted = 0) : s'.registers.wasted = 0 := by
  have uncounted (counted : Bool) (waste : Nat) :
      (if counted then a.wasting waste s.registers.wasted else s.registers.wasted) = 0 := by
    unfold wasting
    cases own : a.kind with
    | mutator => exact absurd own kind
    | plain | collector => cases counted <;> exact zero
  cases h with
  | start anew =>
      cases anew with
      | true => rfl
      | false => exact zero
  | giveUp => exact uncounted _ _
  | displace keeps | drop keeps | keep keeps => exact absurd keeps kind
  | claim | outrun | refuse | install | lose | adopt | note | stop => exact zero

/-- What is noted by an arena that does not work for a collection is nothing. -/
theorem Does.noteless (h : a.Does d s s') (regs : a.RegistersTrue s) (none : a.purpose = none) :
    s'.registers.baseline = 0 := by
  have zero := regs.noteless none
  have noted := regs.noting_of_noteless none
  cases h with
  | giveUp | displace | drop | install | lose | adopt | note => exact noted _
  | start | claim | outrun | keep | refuse | stop => exact zero

/-- A deed that is part of a trade leaves the registers true. -/
theorem Does.registersTrue (h : a.Does d s s') (regs : a.RegistersTrue s)
    (trade : d.isTrade = true) :
    a.RegistersTrue s' := by
  have able := h.able regs.toAble
  have counted : s'.registers.count < Nat.pow 2 32 := by
    rw [h.count trade regs.counted]
    exact Nat.mod_lt _ (Nat.two_pow_pos 32)
  have worked := h.worked regs.allPlaced
  have noteless := h.noteless regs
  have wasteless := fun kind => h.wasteless kind (regs.wasteless kind)
  have new := h.gained_loaded regs.allPlaced
  cases h with
  | start | note => cases trade
  | claim | outrun | refuse => exact regs.moved worked rfl
  | giveUp | keep | displace | stop => exact .of_idle able counted nofun noteless wasteless
  | drop kind idle retained foundKept wasted =>
      refine .of_idle able counted ?_ noteless wasteless
      intro i active
      have here : s.registers.active = some (.table i) := active
      rw [idle] at here
      cases here
  | @install _ i words slot active granted found pos fits =>
      refine ⟨able, counted, ?_, noteless, wasteless⟩
      rintro j ⟨⟩
      obtain ⟨slot', found', full, -⟩ := new i List.mem_cons_self
      exact ⟨slot', found', full, Nat.le_trans (Nat.le_of_eq regs.noting_zero) (Nat.zero_le _)⟩
  | @lose _ i words slot active granted found zero =>
      refine .of_idle able counted ?_ noteless wasteless
      intro j here
      have here : s.registers.active = some (.table j) := here
      rw [active] at here
      cases here
  | @adopt _ i slot active fresh found full =>
      have noted : a.noting slot.region.load s.registers.baseline ≤ slot.region.load := by
        by_cases none : a.purpose = none
        · rw [regs.noting_of_noteless none]
          exact Nat.zero_le _
        · exact Nat.le_of_eq (noting_of_purpose none _ _)
      refine ⟨able, counted, ?_, noteless, wasteless⟩
      rintro j ⟨⟩
      exact ⟨slot, found, full, noted⟩

/-- A deed that is part of a trade takes no notes but of what becomes active. -/
theorem Does.notes (h : a.Does d s s') (regs : a.RegistersTrue s) (trade : d.isTrade = true)
    (before : s.registers.NotesActiveOnly) : s'.registers.NotesActiveOnly := by
  intro none
  cases h with
  | start | note => cases trade
  | claim | outrun | refuse => exact before none
  | giveUp | displace | drop | lose => exact regs.noting_zero
  | keep kind => exact regs.noteless (by simp [purpose, kind])
  | stop active => exact before (by simp [active])
  | @install _ i | @adopt _ i => exact absurd rfl (none i)

/-- A start leaves the registers true, with a new count. -/
theorem Does.begins {anew : Bool} (h : a.Does (.start anew) s s') (regs : a.RegistersTrue s) :
    a.Begins anew s s' := by
  have able := h.able regs.toAble
  have noteless := h.noteless regs
  have wasteless := fun kind => h.wasteless kind (regs.wasteless kind)
  cases h with
  | start anew idle none =>
      exact ⟨.of_idle able (Nat.two_pow_pos 32) nofun noteless wasteless, idle, none, rfl, rfl⟩

theorem Does.trades (h : a.Does d s s') (regs : a.RegistersTrue s) (trade : d.isTrade = true) :
    a.Trades d.granted d.gained s s' where
  registersTrue := h.registersTrue regs trade
  worked := h.worked regs.allPlaced
  granted := h.granted
  returned := (List.sublist_append_left _ _).subperm.trans h.returned.symm.subperm
  hands := h.hands
  count := h.count trade regs.counted
  idle := h.idle trade
  notes := h.notes regs trade

theorem Deeds.trades (h : a.Deeds ds s s') (regs : a.RegistersTrue s)
    (trade : ∀ d ∈ ds, d.isTrade = true) :
    a.Trades (ds.flatMap Deed.granted) (ds.flatMap Deed.gained) s s' := by
  induction h with
  | nil s => exact .refl regs
  | cons first rest ih =>
      have one := first.trades regs (trade _ List.mem_cons_self)
      exact one.trans (ih one.registersTrue fun d mem => trade d (List.mem_cons_of_mem _ mem))

end Arena

end RegionHeap
