import RegionHeap.Proofs.Race.Return

/-!
# Retiring among threads

The thread with the lock finds the arena at rest: it holds regions that have not gone back,
and whatever became a filler is in one that has. Retirement in the way of any kind of arena
leaves it at rest, with the sentinel in the place of the active region.
-/

namespace RegionHeap.Race

open Scene

variable {a : Arena} {base : Supply} {thread i : Nat} {z z₁ z' : Scene}

/-- Nobody is about to give up or to install a region. -/
structure Rest (a : Arena) (base : Supply) (z : Scene) : Prop where
  holding : Holding base z.registers.regions z
  baseline : ∀ purpose, a.kind = .collector purpose →
    z.registers.active = some .sentinel ∨ z.registers.baseline = 0
  kept : z.registers.retained ≠ some .sentinel

theorem Rest.still {least : Nat} (h : Rest a base z) (grows : Grows base z z')
    (still : Still base least z z') : Rest a base z' :=
  have same := still.registers
  ⟨same ▸ h.holding.still grows still, same ▸ h.baseline, same ▸ h.kept⟩

theorem Rest.rely (h : Rest a base z) (rely : Rely a base thread true z z') : Rest a base z' :=
  h.still rely.grows (rely.still rfl)

theorem Holding.perm {held held' : List Nat} (h : Holding base held z) (same : held.Perm held') :
    Holding base held' z :=
  ⟨same.nodup_iff.1 h.nodup, fun i hi => h.usable i (same.mem_iff.2 hi),
    fun i hi => h.out i (same.mem_iff.2 hi), h.plugs⟩

namespace Assures

variable {place : Place} {post : Unit → Scene → Prop}

theorem activate (usable : z.Usable base place)
    (h : ∀ z₁, z₁.Safe a base → Rely a base thread true z z₁ →
      post () { z₁ with registers.active := some place }) :
    Assures a base thread true (Program.activate (some place)) z post :=
  registersAt (f := fun r => { r with active := some place })
    (fun _ _ rely => ⟨place, rfl, usable.grows rely.grows⟩) (fun _ safe _ => safe.retained) h

theorem retain (usable : z.Usable base place)
    (h : ∀ z₁, z₁.Safe a base → Rely a base thread true z z₁ →
      post () { z₁ with registers.retained := some place }) :
    Assures a base thread true (Program.retain (some place)) z post :=
  registersAt (f := fun r => { r with retained := some place }) (fun _ safe _ => safe.active)
    (fun _ _ rely _ eq => Option.some.inj eq ▸ usable.grows rely.grows) h

theorem waste {bytes : Nat}
    (h : ∀ z₁, z₁.Safe a base → Rely a base thread true z z₁ →
      post () { z₁ with registers.wasted := Waste.add z₁.registers.wasted bytes }) :
    Assures a base thread true (Program.waste bytes) z post :=
  registersAt (f := fun r => { r with wasted := Waste.add r.wasted bytes })
    (fun _ safe _ => safe.active) (fun _ safe _ => safe.retained) h

theorem tally {purpose : Purpose} {words : Nat}
    (h : ∀ z₁, z₁.Safe a base → Rely a base thread true z z₁ →
      post () { z₁ with heap.evacuation := z₁.heap.evacuation.add purpose words }) :
    Assures a base thread true (Program.perform (.tally purpose words)) z post :=
  fun z₁ safe rely _ => ⟨(), _, z₁.book, rfl,
    { safe with order := safe.order.congr rfl rfl rfl rfl },
    ⟨{ Grows.refl base z₁ with }, fun _ _ => rfl, nofun⟩, h z₁ safe rely⟩

end Assures

/-- All that the thread with the lock still holds is the region put aside, whatever stands in
the register of the active region. -/
structure Aside (base : Supply) (thread : Nat) (z z' : Scene) : Prop where
  holding : Holding base (Place.position? z'.registers.retained) z'
  kept : z'.registers.retained ≠ some .sentinel
  mine : z'.mine thread = z.mine thread

/-- The arena is at rest and holds the sentinel. -/
structure Retired (a : Arena) (base : Supply) (thread : Nat) (z z' : Scene) : Prop where
  rest : Rest a base z'
  idle : z'.registers.active = some .sentinel
  mine : z'.mine thread = z.mine thread

namespace Retired

theorem refl (rest : Rest a base z) (idle : z.registers.active = some .sentinel) :
    Retired a base thread z z :=
  ⟨rest, idle, rfl⟩

theorem rely (h : Retired a base thread z z₁) (rely : Rely a base thread true z₁ z') :
    Retired a base thread z z' :=
  ⟨h.rest.rely rely, (rely.still rfl).registers ▸ h.idle, rely.mine.trans h.mine⟩

theorem of_rely (rely : Rely a base thread true z z₁) (h : Retired a base thread z₁ z') :
    Retired a base thread z z' :=
  ⟨h.rest, h.idle, h.mine.trans rely.mine⟩

/-- What an arena has counted is not what it holds. -/
theorem waste (h : Retired a base thread z z') (bytes : Nat) :
    Retired a base thread z { z' with registers.wasted := bytes } :=
  ⟨⟨{ h.rest.holding with }, h.rest.baseline, h.rest.kept⟩, h.idle, h.mine⟩

theorem tally (h : Retired a base thread z z') (evacuation : Evacuation) :
    Retired a base thread z { z' with heap.evacuation := evacuation } :=
  ⟨⟨{ h.rest.holding with }, h.rest.baseline, h.rest.kept⟩, h.idle, h.mine⟩

end Retired

/-- The sentinel takes the place of the active region. -/
theorem Aside.retired (h : Aside base thread z z₁) (rely : Rely a base thread true z₁ z') :
    Retired a base thread z { z' with registers.active := some .sentinel } where
  rest := by
    have same := (rely.still rfl).registers
    exact ⟨{ same ▸ h.holding.rely rely with }, fun _ _ => .inl rfl, same ▸ h.kept⟩
  idle := rfl
  mine := rely.mine.trans h.mine

theorem GaveUp.aside {held : List Nat} (h : GaveUp base thread held z z')
    (kept : z.registers.retained ≠ some .sentinel)
    (same : held = Place.position? z.registers.retained) : Aside base thread z z' := by
  have retained : z'.registers.retained = z.registers.retained := by rw [h.registers]
  exact ⟨retained ▸ same ▸ h.holding, retained ▸ kept, h.mine⟩

namespace Rest

theorem holding_active (h : Rest a base z) (here : z.registers.active = some (.table i)) :
    Holding base (i :: Place.position? z.registers.retained) z := by
  have held := h.holding
  rw [Registers.regions, here] at held
  exact held

theorem agree (h : Rest a base z) (here : z.registers.active = some (.table i)) :
    ∀ purpose, a.kind = .collector purpose → z.registers.baseline = 0 := fun purpose hk => by
  rcases h.baseline purpose hk with idle | zero
  · rw [idle] at here
    cases here
  · exact zero

end Rest

/-- The active region is given up. -/
theorem giveUpActive_assures (rest : Rest a base z)
    (here : z.registers.active = some (.table i)) :
    Assures a base thread true (a.giveUp (.table i) true) z fun _ => Aside base thread z :=
  .mono (giveUp_assures (rest.holding_active here) (rest.agree here))
    fun gave => gave.aside rest.kept rfl

theorem retirePlain_assures (rest : Rest a base z) :
    Assures a base thread true (a.retirePlain true) z fun _ => Retired a base thread z := by
  refine .bind (.current fun z₁ place safe₁ rely₁ here usable => .bind (.tell fun z₂ safe₂ rely₂ => ?_))
  have rely := rely₁.trans rely₂
  have here₂ : z₂.registers.active = some place := (rely₂.still rfl).registers ▸ here
  split
  · rename_i idle
    subst idle
    refine .bind (.tell fun z₃ safe₃ rely₃ => .pure ?_)
    exact .of_rely rely ((Retired.refl (rest.rely rely) here₂).rely rely₃)
  · rename_i real
    cases place with
    | sentinel => exact absurd rfl real
    | table i =>
        refine .bind (.mono (giveUpActive_assures (rest.rely rely) here₂) fun {_ z₃} left => ?_)
        refine .bind (.activate trivial fun z₄ safe₄ rely₄ => .bind (.tell fun z₅ safe₅ rely₅ =>
          .pure ?_))
        exact .of_rely rely ((left.retired rely₄).rely rely₅)

/-! ## Retention -/

/-- Whether a region is worth retaining is only asked. -/
theorem worthRetaining_assures (there : ∃ slot, z.heap.supply.slots[i]? = some slot)
    (kept : z.registers.retained ≠ some .sentinel) :
    Assures a base thread true (a.worthRetaining (.table i)) z fun _ =>
      Rely a base thread true z := by
  refine .bind (.freeBytes there fun z₁ slot₁ safe₁ rely₁ found₁ => ?_)
  split
  · exact .pure rely₁
  · refine .bind (.retained fun z₂ safe₂ rely₂ => ?_)
    have rely := rely₁.trans rely₂
    rw [← (rely.still rfl).registers] at kept
    cases hk : z₂.registers.retained with
    | none => exact .pure rely
    | some place =>
        cases place with
        | sentinel => exact absurd hk kept
        | table k =>
            obtain ⟨-, slot, found, -⟩ := safe₂.retained _ hk
            exact .bind (.freeBytes ⟨slot, found⟩ fun z₃ slot₃ safe₃ rely₃ found₃ =>
              .pure (rely.trans rely₃))

/-- The region that is put aside displaces the one that was. -/
theorem retainInstead_assures (rest : Rest a base z)
    (here : z.registers.active = some (.table i)) :
    Assures a base thread true (a.retainInstead (.table i)) z fun _ => Aside base thread z := by
  refine .bind (.tell fun z₁ safe₁ rely₁ => .bind (.retained fun z₂ safe₂ rely₂ => ?_))
  have rely := rely₁.trans rely₂
  have rest₂ := rest.rely rely
  have here₂ : z₂.registers.active = some (.table i) := (rely.still rfl).registers ▸ here
  have holding := rest₂.holding_active here₂
  cases hk : z₂.registers.retained with
  | none =>
      rw [hk] at holding
      refine .bind (.retain (holding.usable i List.mem_cons_self) fun z₃ safe₃ rely₃ => .pure ?_)
      exact ⟨{ holding.rely rely₃ with }, nofun, rely₃.mine.trans rely.mine⟩
  | some place =>
      cases place with
      | sentinel => exact absurd hk rest₂.kept
      | table k =>
          rw [hk] at holding
          refine .bind (.mono (giveUp_assures (holding.perm (List.Perm.swap k i []))
            (rest₂.agree here₂)) fun {_ z₃} gave => ?_)
          refine .bind (.retain (gave.holding.usable i List.mem_cons_self)
            fun z₄ safe₄ rely₄ => .pure ?_)
          exact ⟨{ gave.holding.rely rely₄ with }, nofun,
            (rely₄.mine.trans gave.mine).trans rely.mine⟩

theorem retireRetaining_assures (rest : Rest a base z) :
    Assures a base thread true (a.retireRetaining true) z fun _ => Retired a base thread z := by
  refine .bind (.current fun z₁ place safe₁ rely₁ here usable => .bind (.tell fun z₂ safe₂ rely₂ => ?_))
  have rely := rely₁.trans rely₂
  have here₂ : z₂.registers.active = some place := (rely₂.still rfl).registers ▸ here
  split
  · rename_i idle
    subst idle
    refine .bind (.waste fun z₃ safe₃ rely₃ => .bind (.tell fun z₄ safe₄ rely₄ => .pure ?_))
    exact .of_rely rely
      ((((Retired.refl (rest.rely rely) here₂).rely rely₃).waste _).rely rely₄)
  · rename_i real
    cases place with
    | sentinel => exact absurd rfl real
    | table i =>
        obtain ⟨-, slot, found, -⟩ := usable.grows rely₂.grows
        refine .bind (.mono (worthRetaining_assures ⟨slot, found⟩ (rest.rely rely).kept)
          fun {keep z₃} rely₃ => ?_)
        have relyAll := rely.trans rely₃
        have rest₃ := rest.rely relyAll
        have here₃ : z₃.registers.active = some (.table i) := (rely₃.still rfl).registers ▸ here₂
        have left : Assures a base thread true
            (if keep then a.retainInstead (.table i) else a.giveUp (.table i) true) z₃
              fun _ => Aside base thread z₃ := by
          split
          · exact retainInstead_assures rest₃ here₃
          · exact giveUpActive_assures rest₃ here₃
        refine .bind (.mono left fun {_ z₄} left => ?_)
        refine .bind (.activate trivial fun z₅ safe₅ rely₅ => .bind (.waste fun z₆ safe₆ rely₆ =>
          .bind (.tell fun z₇ safe₇ rely₇ => .pure ?_)))
        exact .of_rely relyAll ((((left.retired rely₅).rely rely₆).waste _).rely rely₇)

/-! ## Collections -/

theorem retireTallying_assures (purpose : Purpose) (rest : Rest a base z) :
    Assures a base thread true (a.retireTallying purpose true) z fun _ =>
      Retired a base thread z := by
  refine .bind (.bind (.active fun z₁ safe₁ rely₁ => ?_))
  have retires : Assures a base thread true (a.retirePlain true) z₁ fun _ =>
      Retired a base thread z :=
    .mono (retirePlain_assures (rest.rely rely₁)) (Retired.of_rely rely₁)
  have word : a.settings.heapWordBytes ≠ 0 := by
    have := safe₁.order.sound.word
    rw [safe₁.suits.word]
    omega
  cases z₁.registers.active with
  | none => exact retires
  | some place =>
      cases place with
      | sentinel => exact retires
      | table i =>
          refine .bind (.mono retires fun {_ z₂} retired => .bind (.compute (Word.div_eq_ok word)
            (.bind (.tally fun z₃ safe₃ rely₃ => .pure ?_))))
          exact (retired.rely rely₃).tally _

/-- Every kind of arena retires without a fault while threads claim from it. -/
theorem retire_assures (rest : Rest a base z) :
    Assures a base thread true (a.retire true) z fun _ => Retired a base thread z := by
  unfold Arena.retire
  cases a.kind with
  | plain => exact retirePlain_assures rest
  | mutator => exact retireRetaining_assures rest
  | collector purpose => exact retireTallying_assures purpose rest

end RegionHeap.Race
