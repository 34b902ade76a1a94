import RegionHeap.Proofs.Race.Fill

/-!
# Handing a region back among threads

Nobody takes anything from a sealed region, so the bytes that its arena reports are those
that the threads have taken from it, whenever they took them.
-/

namespace RegionHeap

namespace Supply

variable {base s : Supply} {i bytes : Nat} {purpose : Purpose}

theorem returnsSince_takeBack (follows : base.Follows s) :
    (base.returnsSince (s.takeBack i bytes)).Perm ((i, bytes) :: base.returnsSince s) := by
  simp only [returnsSince, takeBack, List.drop_append_of_le_length follows.mutatorReturns,
    List.map_append, List.map_cons, List.map_nil, List.append_assoc]
  exact List.perm_middle

theorem returnsSince_takeBackFrom (follows : base.Follows s) :
    (base.returnsSince (s.takeBackFrom purpose i bytes)).Perm
      ((i, bytes) :: base.returnsSince s) := by
  simp only [returnsSince, takeBackFrom, List.drop_append_of_le_length follows.collectorReturns,
    List.map_append, List.map_cons, List.map_nil, ← List.append_assoc]
  exact List.perm_append_singleton _ _

end Supply

namespace Race

open Scene

variable {a : Arena} {base : Supply} {thread i live : Nat} {z z₁ z' : Scene}

namespace Scene

/-- The scene with other records of what went back. -/
def record (z : Scene) (ms : List MutatorReturn) (cs : List CollectorReturn) : Scene :=
  { z with
    heap.supply.mutatorReturns := ms
    heap.supply.collectorReturns := cs }

variable {ms : List MutatorReturn} {cs : List CollectorReturn}

/-- Nothing is taken from region `i` any more, and `live` bytes of it are with threads. -/
structure Closed (a : Arena) (base : Supply) (i live : Nat) (z : Scene) : Prop where
  mine : i ∈ z.granted base
  out : ∀ r ∈ z.returns base, r.1 ≠ i
  sealed : ∃ slot, z.heap.supply.slots[i]? = some slot ∧
    slot.region.left < a.settings.minFillWords ∧ slot.region.load = live + z.plugged i

theorem Closed.rely (closed : z.Closed a base i live) (rely : Rely a base thread true z z') :
    z'.Closed a base i live where
  mine := rely.grows.granted closed.mine
  out := rely.kept.returns ▸ closed.out
  sealed := by
    obtain ⟨slot, found, few, parts⟩ := closed.sealed
    exact ⟨slot, (rely.still rfl).quiet found (.inr few), few, plugged_of_rely rely i ▸ parts⟩

theorem Closed.lent (closed : z.Closed a base i live) (safe : z.Safe a base) :
    live = Taking.bytes z.heap.supply.geometry.wordBytes (Taking.lent i) z.book := by
  obtain ⟨slot, found, -, parts⟩ := closed.sealed
  have total := safe.total i closed.mine slot found
  have sum := Taking.lent_add_plug z.heap.supply.geometry.wordBytes i z.book
  rw [bytes_plug_eq] at sum
  omega

/-- A closed region can go on record. -/
theorem Safe.record (safe : z.Safe a base) (closed : z.Closed a base i live)
    (follows : base.Follows (z.record ms cs).heap.supply)
    (adds : ((z.record ms cs).returns base).Perm ((i, live) :: z.returns base)) :
    (z.record ms cs).Safe a base :=
  { safe with
    order := safe.order.congr rfl rfl rfl rfl
    follows := follows
    once := (adds.map Prod.fst).nodup_iff.2 (List.nodup_cons.2 ⟨fun old => by
      obtain ⟨q, hq, eq⟩ := List.mem_map.1 old
      exact closed.out q hq eq, safe.once⟩)
    returned := fun r hr => by
      rcases List.mem_cons.1 (adds.mem_iff.1 hr) with rfl | hr
      · refine ⟨closed.mine, fun slot found => ?_, closed.lent safe⟩
        obtain ⟨slot', found', few, -⟩ := closed.sealed
        cases found'.symm.trans found
        exact few
      · exact safe.returned r hr }

theorem record_grows
    (adds : ((z.record ms cs).returns base).Perm ((i, live) :: z.returns base)) : Grows base z (z.record ms cs) where
  geometry := rfl
  granted := List.Subset.refl _
  returns := fun _ hq => adds.mem_iff.2 (List.mem_cons_of_mem _ hq)
  slots := fun found => ⟨_, found, .refl _⟩
  frozen := fun _ _ => rfl
  book := List.suffix_refl _

end Scene

namespace Assures

variable {post : Unit → Scene → Prop}

/-- A step of the thread with the lock that puts a closed region on record. -/
theorem recordAt {f : Supply → List MutatorReturn} {g : Supply → List CollectorReturn}
    (closed : z.Closed a base i live)
    (adds : ∀ z₁ : Scene, base.Follows z₁.heap.supply →
      base.Follows (z₁.record (f z₁.heap.supply) (g z₁.heap.supply)).heap.supply ∧
        ((z₁.record (f z₁.heap.supply) (g z₁.heap.supply)).returns base).Perm
          ((i, live) :: z₁.returns base))
    (h : ∀ z₁ ms cs, Rely a base thread true z z₁ →
      ((z₁.record ms cs).returns base).Perm ((i, live) :: z₁.returns base) →
        post () (z₁.record ms cs))
    (z₁ : Scene) (safe : z₁.Safe a base) (rely : Rely a base thread true z z₁)
    (said : List Entry) :
    ∃ answer s book, Except.ok
        ((), (z₁.record (f z₁.heap.supply) (g z₁.heap.supply)).store said) =
          (.ok (answer, s) : Except Fault (Unit × Store)) ∧
      Safe a base { registers := s.registers, heap := s.heap, book } ∧
        Guar a base thread true z₁ { registers := s.registers, heap := s.heap, book } ∧
          post answer { registers := s.registers, heap := s.heap, book } := by
  obtain ⟨follows, one⟩ := adds z₁ safe.follows
  exact ⟨(), _, z₁.book, rfl, safe.record (closed.rely rely) follows one,
    ⟨record_grows one, fun _ _ => rfl, nofun⟩, h z₁ _ _ rely one⟩

theorem takeBack (closed : z.Closed a base i live)
    (h : ∀ z₁ ms cs, Rely a base thread true z z₁ →
      ((z₁.record ms cs).returns base).Perm ((i, live) :: z₁.returns base) →
        post () (z₁.record ms cs)) :
    Assures a base thread true (Program.perform (.takeBack i live)) z post :=
  recordAt (f := fun s => (s.takeBack i live).mutatorReturns)
    (g := fun s => (s.takeBack i live).collectorReturns) closed
    (fun _ follows => ⟨⟨follows.requests,
      Nat.le_trans follows.mutatorReturns (by simp [record, Supply.takeBack]),
      follows.collectorReturns⟩, Supply.returnsSince_takeBack follows⟩) h

theorem takeBackFrom {purpose : Purpose} (closed : z.Closed a base i live)
    (h : ∀ z₁ ms cs, Rely a base thread true z z₁ →
      ((z₁.record ms cs).returns base).Perm ((i, live) :: z₁.returns base) →
        post () (z₁.record ms cs)) :
    Assures a base thread true (Program.perform (.takeBackFrom purpose i live)) z post :=
  recordAt (f := fun s => (s.takeBackFrom purpose i live).mutatorReturns)
    (g := fun s => (s.takeBackFrom purpose i live).collectorReturns) closed
    (fun _ follows => ⟨⟨follows.requests, follows.mutatorReturns,
      Nat.le_trans follows.collectorReturns (by simp [record, Supply.takeBackFrom])⟩,
      Supply.returnsSince_takeBackFrom follows⟩) h

/-- A step of the thread with the lock on the registers. -/
theorem registersAt {f : Registers → Registers}
    (active : ∀ z₁ : Scene, z₁.Safe a base → Rely a base thread true z z₁ →
      ∃ place, (f z₁.registers).active = some place ∧ z₁.Usable base place)
    (retained : ∀ z₁ : Scene, z₁.Safe a base → Rely a base thread true z z₁ →
      ∀ place, (f z₁.registers).retained = some place → z₁.Usable base place)
    (h : ∀ z₁, z₁.Safe a base → Rely a base thread true z z₁ →
      post () { z₁ with registers := f z₁.registers })
    (z₁ : Scene) (safe : z₁.Safe a base) (rely : Rely a base thread true z z₁)
    (said : List Entry) :
    ∃ answer s book, Except.ok ((), { z₁.store said with registers := f z₁.registers }) =
        (.ok (answer, s) : Except Fault (Unit × Store)) ∧
      Safe a base { registers := s.registers, heap := s.heap, book } ∧
        Guar a base thread true z₁ { registers := s.registers, heap := s.heap, book } ∧
          post answer { registers := s.registers, heap := s.heap, book } :=
  ⟨(), _, z₁.book, rfl, { safe with
      active := active z₁ safe rely
      retained := retained z₁ safe rely },
    ⟨{ Grows.refl base z₁ with }, fun _ _ => rfl, nofun⟩, h z₁ safe rely⟩

theorem storeBaseline {bytes : Nat}
    (h : ∀ z₁, z₁.Safe a base → Rely a base thread true z z₁ →
      post () { z₁ with registers.baseline := bytes }) :
    Assures a base thread true (Program.perform (.storeBaseline bytes)) z post :=
  registersAt (f := fun r => { r with baseline := bytes }) (fun _ safe _ => safe.active)
    (fun _ safe _ => safe.retained) h

end Assures

/-- Region `i` went back, and the thread with the lock changed nothing else. -/
structure HandedBack (base : Supply) (thread i live : Nat) (z z' : Scene) : Prop where
  grows : Grows base z z'
  mine : z'.mine thread = z.mine thread
  registers : z'.registers = { z.registers with baseline := z'.registers.baseline }
  plugs : z'.plugs = z.plugs
  returns : (z'.returns base).Perm ((i, live) :: z.returns base)

theorem handBack_assures (closed : z.Closed a base i live)
    (agree : ∀ purpose, a.kind = .collector purpose → z.registers.baseline = 0) :
    Assures a base thread true (a.handBack i live) z fun _ z' =>
      HandedBack base thread i live z z' := by
  have handed {z z₁ : Scene} {ms : List MutatorReturn} {cs : List CollectorReturn}
      (rely : Rely a base thread true z z₁)
      (adds : ((z₁.record ms cs).returns base).Perm ((i, live) :: z₁.returns base)) :
      HandedBack base thread i live z (z₁.record ms cs) :=
    ⟨rely.grows.trans (record_grows adds), rely.mine, (rely.still rfl).registers ▸ rfl,
      (rely.still rfl).plugs, rely.kept.returns ▸ adds⟩
  unfold Arena.handBack
  cases hk : a.kind with
  | plain | mutator => exact .takeBack closed fun z₁ ms cs rely adds => handed rely adds
  | collector purpose =>
      refine .bind (.quiet (fun z => z.registers.baseline) (fun _ said => ⟨said, rfl⟩)
        fun z₁ safe₁ rely₁ => ?_)
      have zero : z₁.registers.baseline = 0 := by
        rw [(rely₁.still rfl).registers]
        exact agree purpose hk
      rw [zero]
      refine .bind (.require (Nat.zero_le live) (.bind ?_))
      refine .takeBackFrom (closed.rely rely₁) fun z₂ ms cs rely₂ adds => ?_
      refine .storeBaseline fun z₃ safe₃ rely₃ => ?_
      have before := handed (rely₁.trans rely₂) adds
      have kept := rely₃.kept
      exact ⟨before.grows.trans { kept.grows with }, kept.mine.trans before.mine,
        by rw [kept.registers, before.registers], (rely₃.still rfl).plugs.trans before.plugs,
        (List.Perm.of_eq kept.returns).trans before.returns⟩

/-- The thread with the lock holds these regions, and all fillers are in regions that went
back. -/
structure Holding (base : Supply) (held : List Nat) (z : Scene) : Prop where
  nodup : held.Nodup
  usable : ∀ i ∈ held, z.Usable base (.table i)
  out : ∀ i ∈ held, ∀ r ∈ z.returns base, r.1 ≠ i
  plugs : ∀ t ∈ z.plugs, ∃ r ∈ z.returns base, r.1 = t.region

namespace Holding

variable {held : List Nat}

theorem still {least : Nat} (h : Holding base held z) (grows : Grows base z z')
    (still : Still base least z z') : Holding base held z' where
  nodup := h.nodup
  usable := fun i hi => (h.usable i hi).grows grows
  out := still.returns ▸ h.out
  plugs := by
    rw [still.plugs, still.returns]
    exact h.plugs

theorem rely (h : Holding base held z) (rely : Rely a base thread true z z') :
    Holding base held z' :=
  h.still rely.grows (rely.still rfl)

/-- Nothing became a filler in a region that is held. -/
theorem plugged_eq_zero (h : Holding base held z) (hi : i ∈ held) : z.plugged i = 0 := by
  refine Taking.bytes_eq_zero fun t ht => ?_
  obtain ⟨r, hr, eq⟩ := h.plugs t ht
  exact decide_eq_false fun here => h.out i hi r hr (eq.trans here)

end Holding

/-- The thread with the lock gave a region up and still holds the others. -/
structure GaveUp (base : Supply) (thread : Nat) (held : List Nat) (z z' : Scene) : Prop where
  holding : Holding base held z'
  mine : z'.mine thread = z.mine thread
  registers : z'.registers = { z.registers with baseline := z'.registers.baseline }

/-- A region is given up while other threads still claim from it. What it is reported to
hold is what the threads have taken. -/
theorem giveUp_assures {held : List Nat} (h : Holding base (i :: held) z)
    (agree : ∀ purpose, a.kind = .collector purpose → z.registers.baseline = 0) :
    Assures a base thread true (a.giveUp (.table i) true) z fun _ z' =>
      GaveUp base thread held z z' := by
  obtain ⟨-, slot, found, full⟩ := h.usable i List.mem_cons_self
  refine .bind (.look ⟨slot, found⟩ fun z₁ slot₁ safe₁ rely₁ found₁ => ?_)
  have h₁ := h.rely rely₁
  obtain ⟨mine₁, slot₁', found₁', full₁⟩ := h₁.usable i List.mem_cons_self
  cases found₁.symm.trans found₁'
  have p₁ := safe₁.order.placed found₁
  have filling : Arena.settle a (.table i) true = a.fillUp (.table i) := rfl
  refine .bind (.compute p₁.isEmpty_eq (.bind (.require (by simpa using full₁) ?_)))
  rw [filling, p₁.index]
  refine .bind (.mono (fillUp_assures mine₁ (h₁.out i List.mem_cons_self) found₁)
    fun {parts z₂} filled => ?_)
  obtain ⟨slot₂, found₂, few⟩ := filled.sealed
  refine .bind (.usedBytes ⟨slot₂, found₂⟩ fun z₃ slot₃ safe₃ rely₃ found₃ => ?_)
  cases found₃.symm.trans ((rely₃.still rfl).quiet found₂ (.inr few))
  have filled₃ := filled.rely rely₃
  have mine₃ := filled₃.kept.grows.granted mine₁
  have counted := filled₃.plugged
  rw [h₁.plugged_eq_zero List.mem_cons_self, Nat.zero_add] at counted
  have total := safe₃.total i mine₃ _ found₃
  have sum := Taking.lent_add_plug z₃.heap.supply.geometry.wordBytes i z₃.book
  rw [bytes_plug_eq] at sum
  have fits : parts.2 ≤ slot₂.region.load := by omega
  have closed : z₃.Closed a base i (slot₂.region.load - parts.2) :=
    ⟨mine₃, filled₃.kept.returns ▸ h₁.out i List.mem_cons_self, slot₂, found₃, few, by omega⟩
  have registers : z₃.registers = z.registers :=
    filled₃.kept.registers.trans (rely₁.still rfl).registers
  refine .bind (.compute (Word.sub_eq_ok fits) (.bind (.mono (handBack_assures closed ?_)
    fun {_ z₄} back => .pure ?_)))
  · rw [registers]
    exact agree
  · refine ⟨⟨(List.nodup_cons.1 h.nodup).2, fun j hj => ?_, fun j hj r hr => ?_, fun t ht => ?_⟩,
      (back.mine.trans filled₃.kept.mine).trans rely₁.mine, registers ▸ back.registers⟩
    · have grows := filled₃.kept.grows.trans back.grows
      exact (h₁.usable j (List.mem_cons_of_mem i hj)).grows grows
    · rcases List.mem_cons.1 (back.returns.mem_iff.1 hr) with rfl | hr
      · rintro rfl
        exact (List.nodup_cons.1 h.nodup).1 hj
      · exact h₁.out j (List.mem_cons_of_mem i hj) r (filled₃.kept.returns ▸ hr)
    · rw [back.plugs] at ht
      rcases filled₃.plugs t ht with ht | eq
      · obtain ⟨r, hr, eq⟩ := h₁.plugs t ht
        have old : r ∈ z₃.returns base := filled₃.kept.returns ▸ hr
        exact ⟨r, back.returns.mem_iff.2 (List.mem_cons_of_mem _ old), eq⟩
      · exact ⟨_, back.returns.mem_iff.2 List.mem_cons_self, eq.symm⟩

end Race

end RegionHeap
