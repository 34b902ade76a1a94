import RegionHeap.Proofs.Race.Retire

/-!
# Installing a region among threads

A granted region is in nobody's sight until it is published, so its first words go to the
thread with the lock. From then on the others may claim from it, and it has not gone back.
-/

namespace RegionHeap

/-- A request adds what it is granted. -/
theorem Supply.grantedSince_request {base s : Supply} (follows : base.Follows s) (words : Nat)
    (purpose : Option Purpose) (node : Nat) :
    base.grantedSince (s.request words purpose node).2 =
      base.grantedSince s ++ (s.grant words).toList := by
  simp only [grantedSince, request, List.drop_append_of_le_length follows.requests,
    List.filterMap_append]
  cases s.grant words <;> rfl

namespace Race

open Scene

variable {a : Arena} {base : Supply} {thread i words : Nat} {z z₁ z' : Scene}

namespace Scene

/-- The scene after a request. -/
def ask (z : Scene) (words : Nat) (purpose : Option Purpose) (node : Nat) : Scene :=
  { z with heap.supply := (z.heap.supply.request words purpose node).2 }

variable {purpose : Option Purpose} {node : Nat}

theorem ask_granted (follows : base.Follows z.heap.supply) :
    (z.ask words purpose node).granted base =
      z.granted base ++ (z.heap.supply.grant words).toList :=
  Supply.grantedSince_request follows words purpose node

theorem ask_grows (follows : base.Follows z.heap.supply) :
    Grows base z (z.ask words purpose node) where
  geometry := rfl
  granted := by
    rw [ask_granted follows]
    exact List.subset_append_left _ _
  returns := List.Subset.refl _
  slots := fun found => ⟨_, found, .refl _⟩
  frozen := fun _ _ => rfl
  book := List.suffix_refl _

/-- A region that is granted was free, and is not in the book. -/
theorem Safe.fresh (safe : z.Safe a base) (granted : z.heap.supply.grant words = some i) :
    i ∉ z.granted base ∧ i ∉ z.heap.supply.free.tail ∧
      ∃ slot, z.heap.supply.slots[i]? = some slot ∧ slot.Vacant := by
  have first := (Supply.free_of_grant granted).2
  have free : i ∈ z.heap.supply.free := first ▸ List.mem_cons_self
  exact ⟨fun old => (safe.granted i old).1 free, safe.order.not_mem_tail first,
    safe.order.vacant i free⟩

theorem Safe.ask (safe : z.Safe a base) : (z.ask words purpose node).Safe a base := by
  have grows : Grows base z (z.ask words purpose node) := ask_grows safe.follows
  have order : (z.ask words purpose node).heap.Orderly [] := by
    cases granted : z.heap.supply.grant words with
    | none =>
        refine safe.order.congr rfl rfl ?_ rfl
        simp [Scene.ask, Supply.request, granted]
    | some i =>
        refine safe.order.pop.congr rfl rfl ?_ rfl
        simp [Scene.ask, Supply.request, granted]
  -- What was granted before is as it was; what is granted now is vacant.
  have mem {j : Nat} (hj : j ∈ (z.ask words purpose node).granted base) :
      j ∈ z.granted base ∨ z.heap.supply.grant words = some j := by
    rw [ask_granted safe.follows] at hj
    simpa using hj
  refine { safe with
    order := order
    follows := ⟨Nat.le_trans safe.follows.requests (by simp [Scene.ask, Supply.request]),
      safe.follows.mutatorReturns, safe.follows.collectorReturns⟩
    active := ?_
    retained := fun place here => (safe.retained place here).grows grows
    granted := fun j hj => ?_
    returned := fun r hr => ?_
    inside := fun t ht => ?_
    total := fun j hj slot found => ?_
    fillers := fun j hj slot found => ?_ }
  · obtain ⟨place, here, usable⟩ := safe.active
    exact ⟨place, here, usable.grows grows⟩
  · rcases mem hj with old | new
    · obtain ⟨notFree, there⟩ := safe.granted j old
      refine ⟨fun free => notFree ?_, there⟩
      simp only [Scene.ask, Supply.request] at free
      split at free
      · exact List.mem_of_mem_tail free
      · exact free
    · obtain ⟨-, notFree, slot, found, -⟩ := safe.fresh new
      refine ⟨?_, slot, found⟩
      simpa [Scene.ask, Supply.request, new] using notFree
  · obtain ⟨mine, rest⟩ := safe.returned r hr
    exact ⟨grows.granted mine, rest⟩
  · obtain ⟨mine, rest⟩ := safe.inside t ht
    exact ⟨grows.granted mine, rest⟩
  · rcases mem hj with old | new
    · exact safe.total j old slot found
    · obtain ⟨notMine, -, slot', found', vacant⟩ := safe.fresh new
      cases found'.symm.trans found
      rw [vacant.empty]
      refine Taking.bytes_eq_zero fun t ht => decide_eq_false ?_
      rintro rfl
      exact notMine (safe.inside t ht).1
  · rcases mem hj with old | new
    · exact safe.fillers j old slot found
    · obtain ⟨-, -, slot', found', vacant⟩ := safe.fresh new
      cases found'.symm.trans found
      rw [vacant.clear]
      exact List.forall_mem_nil _

/-- Region `i` was granted, is in nobody's sight, and has room for so many words. -/
structure Hidden (base : Supply) (i words : Nat) (z : Scene) : Prop where
  mine : i ∈ z.granted base
  out : ∀ r ∈ z.returns base, r.1 ≠ i
  vacant : ∃ slot, z.heap.supply.slots[i]? = some slot ∧ slot.region.load = 0 ∧
    words ≤ slot.region.left

theorem Hidden.rely (h : z.Hidden base i words) (rely : Rely a base thread true z z') :
    z'.Hidden base i words where
  mine := rely.grows.granted h.mine
  out := rely.kept.returns ▸ h.out
  vacant := by
    obtain ⟨slot, found, empty, room⟩ := h.vacant
    exact ⟨slot, (rely.still rfl).quiet found (.inl empty), empty, room⟩

theorem Hidden.redraw {slot : Slot} {region : Region} (h : z.Hidden base i words)
    (found : z.heap.supply.slots[i]? = some slot) (redrawn : slot.region.Redrawn region) :
    (z.redraw i slot region).Hidden base i words where
  mine := h.mine
  out := h.out
  vacant := by
    obtain ⟨slot', found', empty, room⟩ := h.vacant
    cases found'.symm.trans found
    exact ⟨_, redraw_slot_self found, redrawn.load_eq.trans empty,
      Nat.le_trans room (Nat.le_of_eq redrawn.left_eq.symm)⟩

theorem Safe.hidden (safe : z.Safe a base) (granted : z.heap.supply.grant words = some i) :
    (z.ask words purpose node).Hidden base i words where
  mine := by
    rw [ask_granted safe.follows, granted]
    exact List.mem_append_right _ List.mem_cons_self
  out := by
    rintro r hr rfl
    exact (safe.fresh granted).1 (safe.returned r hr).1
  vacant := by
    obtain ⟨-, -, slot, found, vacant⟩ := safe.fresh granted
    have p := safe.order.placed found
    have whole := p.load_add_room
    rw [vacant.empty, Nat.zero_add, ← p.left_mul, Geometry.bytes] at whole
    have left := Nat.eq_of_mul_eq_mul_right safe.order.sound.word whole
    exact ⟨slot, found, vacant.empty, left ▸ (Supply.free_of_grant granted).1⟩

end Scene

namespace Assures

theorem request {purpose : Option Purpose} {node : Nat} {post : Option Nat → Scene → Prop}
    (h : ∀ z₁, z₁.Safe a base → Rely a base thread true z z₁ →
      post (z₁.heap.supply.grant words) (z₁.ask words purpose node)) :
    Assures a base thread true (Program.perform (.request words purpose node)) z post :=
  fun z₁ safe rely _ => ⟨_, _, z₁.book, rfl, safe.ask,
    ⟨ask_grows safe.follows, fun _ _ => rfl, nofun⟩, h z₁ safe rely⟩

theorem bumpCount {post : Unit → Scene → Prop}
    (h : ∀ z₁, z₁.Safe a base → Rely a base thread true z z₁ →
      post () { z₁ with registers.count := Word.wrapSucc32 z₁.registers.count }) :
    Assures a base thread true (Program.perform .bumpCount) z post :=
  registersAt (f := fun r => { r with count := Word.wrapSucc32 r.count })
    (fun _ safe _ => safe.active) (fun _ safe _ => safe.retained) h

end Assures

/-- A granted region waits to be installed. -/
structure Pending (base : Supply) (thread i words : Nat) (z z' : Scene) : Prop extends
    Aside base thread z z' where
  hidden : z'.Hidden base i words

namespace Pending

theorem rely (h : Pending base thread i words z z₁) (rely : Rely a base thread true z₁ z') :
    Pending base thread i words z z' where
  holding := (rely.still rfl).registers ▸ h.holding.rely rely
  kept := (rely.still rfl).registers ▸ h.kept
  mine := rely.mine.trans h.mine
  hidden := h.hidden.rely rely

theorem redraw {slot : Slot} {region : Region} (h : Pending base thread i words z z')
    (found : z'.heap.supply.slots[i]? = some slot) (redrawn : slot.region.Redrawn region) :
    Pending base thread i words z (z'.redraw i slot region) where
  holding := ⟨h.holding.nodup, fun j hj => (h.holding.usable j hj).grows
    (redraw_grows found redrawn h.hidden.out), h.holding.out, h.holding.plugs⟩
  kept := h.kept
  mine := h.mine
  hidden := h.hidden.redraw found redrawn

theorem baseline (h : Pending base thread i words z z') (bytes : Nat) :
    Pending base thread i words z { z' with registers.baseline := bytes } where
  holding := { h.holding with }
  kept := h.kept
  mine := h.mine
  hidden := { h.hidden with }

/-- Once its first words are taken, the region is held. -/
theorem take {slot : Slot} (h : Pending base thread i words z z')
    (found : z'.heap.supply.slots[i]? = some slot)
    (full : (slot.region.took words).load ≠ 0) :
    Holding base (i :: Place.position? z'.registers.retained)
      (z'.take i slot words (some thread)) where
  nodup := by
    refine List.nodup_cons.2 ⟨fun held => ?_, h.holding.nodup⟩
    obtain ⟨-, slot', found', load⟩ := h.holding.usable i held
    obtain ⟨slot'', found'', empty, -⟩ := h.hidden.vacant
    cases found'.symm.trans found''
    exact load empty
  usable := by
    have grows : Grows base z' (z'.take i slot words (some thread)) :=
      take_grows found h.hidden.out
    rintro j (_ | ⟨_, hj⟩)
    · exact ⟨h.hidden.mine, _, take_slot_self found, full⟩
    · exact (h.holding.usable j hj).grows grows
  out := by
    rintro j (_ | ⟨_, hj⟩)
    · exact h.hidden.out
    · exact h.holding.out j hj
  plugs := by
    have same : (z'.take i slot words (some thread)).plugs = z'.plugs := by
      simp [Scene.plugs, Scene.take]
    rw [same]
    exact h.holding.plugs

end Pending

/-- A collection has not found anything in the region that it is about to fill. -/
def Unspent (a : Arena) (z : Scene) : Prop :=
  ∀ purpose, a.kind = .collector purpose → z.registers.baseline = 0

theorem onInstall_assures (pending : Pending base thread i words z z₁) :
    Assures a base thread true (a.onInstall (.table i)) z₁ fun _ z' =>
      Pending base thread i words z z' ∧ Unspent a z' := by
  unfold Arena.onInstall
  cases hk : a.kind with
  | plain | mutator => exact .pure ⟨pending, fun purpose eq => by rw [hk] at eq; cases eq⟩
  | collector purpose =>
      obtain ⟨slot, found, empty, -⟩ := pending.hidden.vacant
      refine .bind (.usedBytes ⟨slot, found⟩ fun z₂ slot₂ safe₂ rely₂ found₂ => ?_)
      cases found₂.symm.trans ((rely₂.still rfl).quiet found (.inl empty))
      rw [empty]
      exact .storeBaseline fun z₃ safe₃ rely₃ =>
        ⟨((pending.rely rely₂).rely rely₃).baseline 0, fun _ _ => rfl⟩

/-- A region that is held can be published. -/
theorem publish_assures (h : Holding base (i :: Place.position? z.registers.retained) z)
    (kept : z.registers.retained ≠ some .sentinel) (unspent : Unspent a z) :
    Assures a base thread true (a.publish (.table i)) z fun _ z' =>
      Rest a base z' ∧ z'.mine thread = z.mine thread := by
  obtain ⟨-, slot, found, -⟩ := h.usable i List.mem_cons_self
  refine .bind (.tell fun z₁ safe₁ rely₁ => ?_)
  obtain ⟨slot₁, found₁, -⟩ := rely₁.grows.slots found
  refine .bind (.look ⟨slot₁, found₁⟩ fun z₂ slot₂ safe₂ rely₂ found₂ => ?_)
  have h₂ := (h.rely rely₁).rely rely₂
  have usable := h₂.usable i List.mem_cons_self
  have ⟨_, slot₂', found₂', full⟩ := usable
  cases found₂.symm.trans found₂'
  refine .bind (.compute (safe₂.order.placed found₂).isEmpty_eq
    (.bind (.require ⟨nofun, by simpa using full⟩ ?_)))
  refine .bind (.activate usable fun z₃ safe₃ rely₃ => .bind (.bumpCount fun z₄ safe₄ rely₄ =>
    .tell fun z₅ safe₅ rely₅ => ?_))
  have rely := (rely₁.trans rely₂).trans rely₃
  have same := (rely.still rfl).registers
  have held : Holding base (i :: Place.position? z₃.registers.retained) z₃ :=
    same ▸ h₂.rely rely₃
  have rest₃ : Rest a base { z₃ with registers.active := some (.table i) } :=
    ⟨{ held with }, fun purpose hk => .inr (same ▸ unspent purpose hk), same ▸ kept⟩
  have rest₄ := rest₃.rely rely₄
  have rest : Rest a base
      { z₄ with registers.count := Word.wrapSucc32 z₄.registers.count } :=
    ⟨{ rest₄.holding with }, rest₄.baseline, rest₄.kept⟩
  exact ⟨rest.rely rely₅, rely₅.mine.trans (rely₄.mine.trans rely.mine)⟩

/-- The granted region is installed, and its first words belong to the thread. -/
theorem installGranted_assures (enough : a.settings.minFillWords ≤ words)
    (pending : Pending base thread i words z z₁) :
    Assures a base thread true (a.installGranted (.table i) words) z₁ fun start z' =>
      Rest a base z' ∧
        (z'.mine thread).map Taking.span = { start, words } :: (z.mine thread).map Taking.span := by
  have hidden := pending.hidden
  refine .bind (.unmark hidden.mine hidden.out fun z₂ slot₂ region₂ rely₂ found₂ redrawn₂ => ?_)
  have pending₂ := (pending.rely rely₂).redraw found₂ redrawn₂
  obtain ⟨slot, found, empty, room⟩ := pending₂.hidden.vacant
  refine .bind (.look ⟨slot, found⟩ fun z₃ slot₃ safe₃ rely₃ found₃ => ?_)
  cases found₃.symm.trans ((rely₃.still rfl).quiet found (.inl empty))
  refine .bind (.compute (safe₃.order.placed found₃).isEmpty_eq
    (.bind (.require (by simp [empty]) ?_)))
  refine .bind (.mono (onInstall_assures (pending₂.rely rely₃)) ?_)
  rintro ⟨⟩ z₄ ⟨pending₄, unspent⟩
  have least := safe₃.suits.least
  refine .bind (.claimAt pending₄.hidden.mine enough (Nat.le_refl words) (.inl rfl)
    (fun unlocked => nomatch unlocked)
    (fun z₅ slot₅ safe₅ rely₅ found₅ taken => ?_)
    fun z₅ slot₅ took safe₅ rely₅ found₅ taken safe₆ grows => ?_)
  · obtain ⟨slot₅', found₅', -, room₅⟩ := (pending₄.rely rely₅).hidden.vacant
    cases found₅.symm.trans found₅'
    rw [Region.takes_self (by omega) room₅] at taken
    cases taken
  · have pending₅ := pending₄.rely rely₅
    obtain ⟨pos, -, least, most⟩ := Region.takes_le taken
    obtain rfl : took = words := by omega
    have full : (slot₅.region.took took).load ≠ 0 := by
      have p := safe₅.order.placed found₅
      have bytes := Nat.mul_pos pos safe₅.order.sound.word
      rw [p.load_took]
      omega
    have unspent₅ : Unspent a z₅ := fun purpose hk =>
      (rely₅.still rfl).registers ▸ unspent purpose hk
    refine .bind (.mono (publish_assures (pending₅.take found₅ full) pending₅.kept unspent₅) ?_)
    rintro ⟨⟩ z₇ ⟨rest, mine⟩
    refine .bind (.tell fun z₈ safe₈ rely₈ => .pure ⟨rest.rely rely₈, ?_⟩)
    rw [rely₈.mine, mine, take_mine, List.map_cons, pending₅.mine]

/-- A fresh region is installed over the sentinel, or there is none. -/
theorem install_assures (enough : a.settings.minFillWords ≤ words) (rest : Rest a base z)
    (idle : z.registers.active = some .sentinel) :
    Assures a base thread true (a.install words) z fun result z' =>
      Rest a base z' ∧ (z'.mine thread).map Taking.span =
        (result.map fun start => ({ start, words } : Span)).toList ++
          (z.mine thread).map Taking.span := by
  refine .bind (.current fun z₁ place safe₁ rely₁ here usable => ?_)
  obtain rfl : place = .sentinel := by
    rw [(rely₁.still rfl).registers, idle] at here
    exact (Option.some.inj here).symm
  refine .bind (.require rfl (.bind (.tell fun z₂ safe₂ rely₂ => ?_)))
  refine .bind (.request fun z₃ safe₃ rely₃ => ?_)
  have rely := (rely₁.trans rely₂).trans rely₃
  have rest₃ := rest.rely rely
  have grows : Grows base z₃ (z₃.ask words a.purpose a.node) := ask_grows safe₃.follows
  have holding {held : List Nat} (h : Holding base held z₃) :
      Holding base held (z₃.ask words a.purpose a.node) :=
    ⟨h.nodup, fun i hi => (h.usable i hi).grows grows, h.out, h.plugs⟩
  cases granted : z₃.heap.supply.grant words with
  | none =>
      refine .bind (.tell fun z₄ safe₄ rely₄ => .pure ⟨?_, ?_⟩)
      · exact Rest.rely ⟨holding rest₃.holding, rest₃.baseline, rest₃.kept⟩ rely₄
      · rw [rely₄.mine]
        exact congrArg (List.map Taking.span) rely.mine
  | some i =>
      have held := rest₃.holding
      have idle₃ : z₃.registers.active = some .sentinel := (rely.still rfl).registers ▸ idle
      rw [Registers.regions, idle₃] at held
      have pending : Pending base thread i words z (z₃.ask words a.purpose a.node) :=
        { holding := holding held
          kept := rest₃.kept
          mine := rely.mine
          hidden := safe₃.hidden granted }
      exact .bind (.mono (installGranted_assures enough pending) fun installed =>
        .pure installed)

/-! ## The attempt with the lock -/

variable {w : Wish} {before : List Span}

theorem claimFresh_assures (apt : w.Apt a) (got : w.Got thread before none z)
    (rest : Rest a base z) :
    Assures a base thread true (a.claimFresh w.min w.desired) z fun result z' =>
      w.Got thread before result z' ∧ Rest a base z' := by
  have enough := Nat.le_trans apt.enough apt.le
  refine .bind (.mono (retire_assures rest) fun {_ z₁} retired => ?_)
  refine .bind (.mono (install_assures enough retired.rest retired.idle) ?_)
  rintro (_ | start) z₂ ⟨rest₂, spans⟩
  · refine .bind (.tellSizes fun z₃ safe₃ rely₃ => .pure ⟨⟨?_, nofun⟩, rest₂.rely rely₃⟩)
    rw [rely₃.mine, spans, retired.mine, got.spans]
    rfl
  · refine .bind (.tellSizes fun z₃ safe₃ rely₃ => .pure ⟨⟨?_, ?_⟩, rest₂.rely rely₃⟩)
    · rw [rely₃.mine, spans, retired.mine, got.spans]
      rfl
    · rintro _ ⟨⟩
      exact ⟨apt.le, Nat.le_refl _⟩

/-- What a thread gets with the lock is its own, and the arena is at rest again. -/
theorem locked_assures (apt : w.Apt a) (got : w.Got thread before none z)
    (rest : Rest a base z) :
    Assures a base thread true (w.locked a) z fun result z' =>
      w.Got thread before result z' ∧ Rest a base z' := by
  refine .bind (.mono (claimActive_assures apt got) ?_)
  rintro (_ | span) z₁ ⟨got₁, grows, still⟩
  · exact claimFresh_assures apt got₁ (rest.still grows (still rfl))
  · exact .pure ⟨got₁, rest.still grows (still rfl)⟩

end Race

end RegionHeap
