import RegionHeap.Proofs.World.Orderly

/-!
# Tidy actions

A tidy action is a call, or something that the owner of the heap may do beside the
calls: it takes no region away from an arena and frees none that is held. Tidy actions
keep the world orderly.
-/

namespace RegionHeap

namespace Region

/-- Whether a command takes words at most. -/
def Command.takes : Command → Bool
  | .claim .. | .take _ | .inFiller _ | .contains _ | .words | .state | .describe => true
  | .fill _ | .mark _ | .unmark | .reset | .race .. => false

section
variable {r : Region} {g : Geometry} {i : Nat} (p : r.Placed g i) (sound : g.Sound)
include p sound

theorem took_of_claim {min desired : Nat} {span : Option Span} {r' : Region}
    (h : r.claim min desired = .ok (span, r')) : ∃ n, n ≤ r.left ∧ r' = r.took n := by
  by_cases lt : desired < min
  · rw [claim_of_lt lt] at h
    cases h
  · rw [p.claim_eq sound (Nat.not_lt.1 lt)] at h
    cases taken : r.takes min desired with
    | none =>
        rw [taken] at h
        cases h
        exact ⟨0, Nat.zero_le _, r.took_zero.symm⟩
    | some n =>
        rw [taken] at h
        cases h
        exact ⟨n, (takes_le taken).2.1, rfl⟩

theorem took_of_obey {c : Command} (takes : c.takes = true) {reply : Reply} {r' : Region}
    (h : r.obey c = .ok (reply, r')) : ∃ n, n ≤ r.left ∧ r' = r.took n := by
  have unchanged : ∃ n, n ≤ r.left ∧ r = r.took n := ⟨0, Nat.zero_le _, r.took_zero.symm⟩
  cases c with
  | claim min desired =>
      cases claimed : r.claim min desired with
      | error fault => simp [obey, claimed, Bind.bind, Except.bind] at h
      | ok result =>
          simp only [obey, claimed, Bind.bind, Except.bind, Pure.pure, Except.pure,
            Except.ok.injEq, Prod.mk.injEq] at h
          exact h.2 ▸ took_of_claim p sound claimed
  | take words =>
      cases claimed : r.claim words words with
      | error fault => simp [obey, claimed, Bind.bind, Except.bind] at h
      | ok result =>
          simp only [obey, claimed, Bind.bind, Except.bind, Pure.pure, Except.pure,
            Except.ok.injEq, Prod.mk.injEq] at h
          exact h.2 ▸ took_of_claim p sound claimed
  | inFiller address =>
      cases inside : r.inFiller address with
      | error fault => simp [obey, inside, Bind.bind, Except.bind] at h
      | ok b =>
          simp only [obey, inside, Bind.bind, Except.bind, Pure.pure, Except.pure,
            Except.ok.injEq, Prod.mk.injEq] at h
          exact h.2 ▸ unchanged
  | words =>
      cases free : r.freeInWords with
      | error fault => simp [obey, free, Bind.bind, Except.bind] at h
      | ok n =>
          cases capacity : r.capacityInWords with
          | error fault => simp [obey, free, capacity, Bind.bind, Except.bind] at h
          | ok m =>
              simp only [obey, free, capacity, Bind.bind, Except.bind, Pure.pure, Except.pure,
                Except.ok.injEq, Prod.mk.injEq] at h
              exact h.2 ▸ unchanged
  | contains address =>
      cases h
      exact unchanged
  | state =>
      cases h
      exact unchanged
  | describe =>
      cases h
      exact unchanged
  | fill | mark | unmark | reset | race => cases takes

/-- Such a command moves the cursor over words that were left. -/
theorem took_of_respond {c : Command} (takes : c.takes = true) :
    ∃ n, n ≤ r.left ∧ (r.respond c).2 = r.took n := by
  unfold respond
  cases h : r.obey c with
  | error fault => exact ⟨0, Nat.zero_le _, r.took_zero.symm⟩
  | ok result => exact took_of_obey p sound takes h

end

end Region

namespace Heap

variable {h : Heap} {held : List Nat} {i : Nat} {slot : Slot}

/-- Without free regions there is less to keep in order. -/
theorem Orderly.exhaust (o : h.Orderly held) :
    ({ h with supply := h.supply.exhaust } : Heap).Orderly held :=
  { o with
    vacant := nofun
    nodup := o.nodup_held }

/-- A region that nobody holds can be reset and freed. -/
theorem Orderly.recycle (o : h.Orderly held) (found : h.supply.slots[i]? = some slot)
    (rested : slot.rivals = []) (notFree : i ∉ h.supply.free) (notHeld : i ∉ held) :
    ({ h with supply := { h.supply.setSlot i { slot with region := slot.region.reset } with
        free := h.supply.free ++ [i] } } : Heap).Orderly held := by
  have p := o.placed found
  have hi := (List.getElem?_eq_some_iff.1 found).1
  have q := p.reset
  refine ⟨o.sound, ?_, o.full, o.sentinelWord, ?_, ?_, ?_⟩
  · intro j other hj
    obtain ⟨rfl, rfl⟩ | ⟨-, before⟩ := Supply.slots_set_cases hj
    · exact q
    · exact o.placed before
  · intro j hj
    change ∃ other, (h.supply.slots.set i _)[j]? = some other ∧ _
    rcases List.mem_append.1 hj with hj | hj
    · have ne : i ≠ j := fun eq => notFree (eq ▸ hj)
      obtain ⟨other, ho, empty⟩ := o.vacant j hj
      exact ⟨other, by rw [List.getElem?_set_ne ne, ho], empty⟩
    · obtain rfl := List.mem_singleton.1 hj
      exact ⟨_, List.getElem?_set_self hi, by simp [Region.load, Region.reset], rested, rfl⟩
  · intro j hj
    change ∃ other, (h.supply.slots.set i _)[j]? = some other ∧ _
    have ne : i ≠ j := fun eq => notHeld (eq ▸ hj)
    obtain ⟨other, ho, full⟩ := o.occupied j hj
    exact ⟨other, by rw [List.getElem?_set_ne ne, ho], full⟩
  · change (h.supply.free ++ [i] ++ held).Nodup
    rw [List.append_assoc]
    have fresh : i ∉ h.supply.free ++ held := fun hi =>
      (List.mem_append.1 hi).elim notFree notHeld
    exact List.perm_middle.nodup_iff.2 (List.nodup_cons.2 ⟨fresh, o.nodup⟩)

end Heap

namespace Action

/-- The action leaves the regions of the arenas to them. A region is adopted or recycled
only while nobody has it. -/
def Tidy (w : World) : Action → Prop
  | .call k c => ∀ i ∈ c.adopted (w.call k c).1, w.Unowned i
  | .recycle i => w.Unowned i
  | .onRegion i c => c.takes = true ∧ i ∉ w.heap.supply.free
  | .addRival i _ => i ∉ w.heap.supply.free
  | .exhaust | .onTallies _ | .isSentinel _ | .read _ | .hangUp | .clearRecord => True
  | .drain .. | .request .. | .takeBack .. | .takeBackFrom .. => False

instance (w : World) : DecidablePred (Tidy w)
  | .call _ c => inferInstanceAs (Decidable (∀ i ∈ c.adopted _, w.Unowned i))
  | .recycle i => inferInstanceAs (Decidable (w.Unowned i))
  | .onRegion _ _ => inferInstanceAs (Decidable (_ ∧ _))
  | .addRival i _ => inferInstanceAs (Decidable (i ∉ _))
  | .exhaust | .onTallies _ | .isSentinel _ | .read _ | .hangUp | .clearRecord => .isTrue trivial
  | .drain .. | .request .. | .takeBack .. | .takeBackFrom .. => .isFalse id

/-- Nobody waits at a region that is recycled. -/
def Rested (w : World) : Action → Prop
  | .recycle i => ∀ slot, w.heap.supply.slots[i]? = some slot → slot.rivals = []
  | _ => True

instance (w : World) : DecidablePred (Rested w)
  | .recycle i =>
      inferInstanceAs (Decidable (∀ slot ∈ w.heap.supply.slots[i]?, slot.rivals = []))
  | .call .. | .onRegion .. | .addRival .. | .exhaust | .onTallies _ | .isSentinel _ | .read _
  | .hangUp | .clearRecord | .drain .. | .request .. | .takeBack .. | .takeBackFrom .. =>
      .isTrue trivial

/-- The action lets others compete for a region. -/
def Contests : Action → Prop
  | .onRegion .. | .addRival .. => True
  | _ => False

instance : DecidablePred Contests
  | .onRegion .. | .addRival .. => .isTrue trivial
  | .call .. | .recycle _ | .exhaust | .onTallies _ | .isSentinel _ | .read _ | .hangUp
  | .clearRecord | .drain .. | .request .. | .takeBack .. | .takeBackFrom .. => .isFalse id

end Action

namespace World

variable {w : World}

/-- Another heap is as good, if the same regions are held and none was emptied. -/
theorem Orderly.setHeap (o : w.Orderly) {h : Heap} (order : h.Orderly w.held)
    (geometry : h.supply.geometry = w.heap.supply.geometry)
    (grown : ∀ {i slot slot'}, i ∈ w.held → w.heap.supply.slots[i]? = some slot →
      h.supply.slots[i]? = some slot' → slot.region.load ≤ slot'.region.load) :
    ({ w with heap := h } : World).Orderly where
  order := order
  suits := fun site hs => geometry ▸ o.suits site hs
  agree := fun site hs => by
    have agree := o.agree site hs
    refine { agree with baseline := fun {purpose i slot'} kind active found => ?_ }
    have mine : i ∈ w.held := List.mem_flatMap.2 ⟨site, hs, by simp [Registers.regions, active]⟩
    obtain ⟨slot, before, -⟩ := o.order.occupied i mine
    exact Nat.le_trans (agree.baseline kind active before) (grown mine before found)

/-- A region that is not free may be used up further. -/
theorem Orderly.setSlot (o : w.Orderly) {i : Nat} {slot slot' : Slot}
    (found : w.heap.supply.slots[i]? = some slot) (notFree : i ∉ w.heap.supply.free)
    (p : slot'.region.Placed w.heap.supply.geometry i)
    (more : slot.region.load ≤ slot'.region.load) :
    (w.setSupply (w.heap.supply.setSlot i slot')).Orderly := by
  refine o.setHeap (o.order.put found p more fun h => absurd h notFree) rfl ?_
  intro j other other' mine before after
  obtain ⟨rfl, rfl⟩ | ⟨-, same⟩ := Supply.slots_set_cases after
  · cases found.symm.trans before
    exact more
  · cases before.symm.trans same
    exact Nat.le_refl _

/-- Tidy actions keep the world orderly. -/
theorem Orderly.perform (o : w.Orderly) {a : Action} (tidy : a.Tidy w) (rested : a.Rested w) :
    (w.perform a).2.Orderly := by
  cases a with
  | call k c => exact Orderly.call o tidy
  | exhaust =>
      refine o.setHeap o.order.exhaust rfl fun mine before after => ?_
      cases before.symm.trans after
      exact Nat.le_refl _
  | recycle i =>
      cases found : w.heap.supply.slots[i]? with
      | none => simpa [World.perform, onSupply, Supply.recycle, Supply.slot, found] using o
      | some slot =>
          have order := o.order.recycle found (rested slot found) tidy.1 tidy.2
          have eq : (w.perform (.recycle i)).2 = { w with heap := { w.heap with
              supply := { w.heap.supply.setSlot i { slot with region := slot.region.reset } with
                free := w.heap.supply.free ++ [i] } } } := by
            simp [World.perform, onSupply, Supply.recycle, Supply.slot, Supply.setSlot, found,
              setSupply]
          rw [eq]
          refine o.setHeap order rfl fun {j other other'} mine before after => ?_
          have ne : i ≠ j := fun eq => tidy.2 (eq ▸ mine)
          change (w.heap.supply.slots.set i _)[j]? = some other' at after
          rw [List.getElem?_set_ne ne] at after
          cases before.symm.trans after
          exact Nat.le_refl _
  | onRegion i c =>
      cases found : w.heap.supply.slots[i]? with
      | none => simpa [World.perform, onRegion, Supply.slot, found] using o
      | some slot =>
          have p := o.order.placed found
          obtain ⟨n, fits, taken⟩ := Region.took_of_respond p o.order.sound tidy.1
          have eq : (w.perform (.onRegion i c)).2 =
              w.setSupply (w.heap.supply.setSlot i { slot with region := slot.region.took n }) := by
            simp [World.perform, onRegion, Supply.slot, found, taken]
          rw [eq]
          refine o.setSlot found tidy.2 (p.took fits) ?_
          exact Nat.le_trans (Nat.le_add_right _ _) (Nat.le_of_eq (p.load_took n).symm)
  | addRival i words =>
      cases found : w.heap.supply.slots[i]? with
      | none => simpa [World.perform, onSupply, Supply.addRival, Supply.slot, found] using o
      | some slot =>
          have eq : (w.perform (.addRival i words)).2 = w.setSupply
              (w.heap.supply.setSlot i { slot with rivals := slot.rivals ++ [words] }) := by
            simp [World.perform, onSupply, Supply.addRival, Supply.slot, found, setSupply]
          rw [eq]
          have p := o.order.placed found
          exact o.setSlot found tidy p (Nat.le_refl _)
  | onTallies c =>
      refine o.setHeap (o.order.congr rfl rfl rfl rfl) rfl fun mine before after => ?_
      cases before.symm.trans after
      exact Nat.le_refl _
  | isSentinel candidate => exact o
  | read max =>
      change (w.read max).2.Orderly
      unfold World.read
      cases w.diagnostics.channel? with
      | none => exact o
      | some channel => exact ⟨o.order, o.suits, o.agree⟩
  | hangUp => exact ⟨o.order, o.suits, o.agree⟩
  | clearRecord => exact ⟨o.order, o.suits, o.agree⟩
  | drain | request | takeBack | takeBackFrom => exact absurd tidy id

/-- Two worlds with the same arenas and the same records, and regions of the same size. -/
structure SameBooks (w w' : World) : Prop where
  geometry : w'.heap.supply.geometry = w.heap.supply.geometry
  sites : w'.sites = w.sites
  requests : w'.heap.supply.requests = w.heap.supply.requests
  mutatorReturns : w'.heap.supply.mutatorReturns = w.heap.supply.mutatorReturns
  collectorReturns : w'.heap.supply.collectorReturns = w.heap.supply.collectorReturns

theorem SameBooks.refl (w : World) : w.SameBooks w := ⟨rfl, rfl, rfl, rfl, rfl⟩

/-- Only calls write into the books. -/
theorem sameBooks_of_not_call {a : Action} (tidy : a.Tidy w) (other : ∀ k c, a ≠ .call k c) :
    w.SameBooks (w.perform a).2 := by
  cases a with
  | call k c => exact absurd rfl (other k c)
  | recycle i =>
      cases found : w.heap.supply.slots[i]? with
      | none =>
          have eq : (w.perform (.recycle i)).2 = w := by
            simp [World.perform, onSupply, Supply.recycle, Supply.slot, found]
          rw [eq]
          exact .refl w
      | some slot =>
          simp only [World.perform, onSupply, Supply.recycle, Supply.slot, found, Supply.setSlot,
            Bind.bind, Except.bind, Pure.pure, Except.pure, setSupply]
          exact ⟨rfl, rfl, rfl, rfl, rfl⟩
  | addRival i words =>
      cases found : w.heap.supply.slots[i]? with
      | none =>
          have eq : (w.perform (.addRival i words)).2 = w := by
            simp [World.perform, onSupply, Supply.addRival, Supply.slot, found]
          rw [eq]
          exact .refl w
      | some slot =>
          simp only [World.perform, onSupply, Supply.addRival, Supply.slot, found, Supply.setSlot,
            Bind.bind, Except.bind, Pure.pure, Except.pure, setSupply]
          exact ⟨rfl, rfl, rfl, rfl, rfl⟩
  | onRegion i c =>
      change w.SameBooks (w.onRegion i c).2
      unfold onRegion
      cases w.heap.supply.slot i with
      | error fault => exact .refl w
      | ok slot => exact ⟨rfl, rfl, rfl, rfl, rfl⟩
  | read max =>
      change w.SameBooks (w.read max).2
      unfold World.read
      cases w.diagnostics.channel? with
      | none => exact .refl w
      | some channel => exact ⟨rfl, rfl, rfl, rfl, rfl⟩
  | exhaust | onTallies | isSentinel | hangUp | clearRecord => exact ⟨rfl, rfl, rfl, rfl, rfl⟩
  | drain | request | takeBack | takeBackFrom => exact absurd tidy id

theorem SameBooks.held {w w' : World} (same : w.SameBooks w') : w'.held = w.held := by
  rw [World.held, same.sites]
  rfl

theorem rested_of_noRivals (noRivals : w.heap.NoRivals) (a : Action) : a.Rested w := by
  cases a with
  | recycle i => exact noRivals i
  | _ => exact trivial

/-- Only calls and those who compete use up a region, and only a recycling resets it. -/
theorem slots_of_not_call {a : Action} (tidy : a.Tidy w) (quiet : ¬ a.Contests)
    (other : ∀ k c, a ≠ .call k c) {i : Nat} (kept : a ≠ .recycle i) :
    (w.perform a).2.heap.supply.slots[i]? = w.heap.supply.slots[i]? := by
  cases a with
  | call k c => exact absurd rfl (other k c)
  | recycle j =>
      have ne : j ≠ i := fun eq => kept (eq ▸ rfl)
      cases found : w.heap.supply.slots[j]? with
      | none => simp [World.perform, onSupply, Supply.recycle, Supply.slot, found]
      | some slot =>
          simp only [World.perform, onSupply, Supply.recycle, Supply.slot, found, Supply.setSlot,
            Bind.bind, Except.bind, Pure.pure, Except.pure, setSupply]
          exact List.getElem?_set_ne ne
  | read max =>
      change (w.read max).2.heap.supply.slots[i]? = _
      unfold World.read
      cases w.diagnostics.channel? <;> rfl
  | exhaust | onTallies | isSentinel | hangUp | clearRecord => rfl
  | onRegion | addRival => exact absurd trivial quiet
  | drain | request | takeBack | takeBackFrom => exact absurd tidy id

/-- So the regions that are held stay as they are. -/
theorem held_slots_of_not_call {a : Action} (tidy : a.Tidy w) (quiet : ¬ a.Contests)
    (other : ∀ k c, a ≠ .call k c) {i : Nat} (mine : i ∈ w.held) :
    (w.perform a).2.heap.supply.slots[i]? = w.heap.supply.slots[i]? := by
  refine slots_of_not_call tidy quiet other ?_
  rintro rfl
  exact tidy.2 mine

/-- But for calls, only a recycling frees a region. -/
theorem not_free_of_not_call {a : Action} (tidy : a.Tidy w) (other : ∀ k c, a ≠ .call k c)
    {i : Nat} (kept : a ≠ .recycle i) (free : i ∉ w.heap.supply.free) :
    i ∉ (w.perform a).2.heap.supply.free := by
  cases a with
  | call k c => exact absurd rfl (other k c)
  | recycle j =>
      have ne : i ≠ j := fun eq => kept (eq ▸ rfl)
      cases found : w.heap.supply.slots[j]? with
      | none => simpa [World.perform, onSupply, Supply.recycle, Supply.slot, found] using free
      | some slot =>
          simpa [World.perform, onSupply, Supply.recycle, Supply.slot, found, Supply.setSlot,
            setSupply, ne] using free
  | addRival j words =>
      cases found : w.heap.supply.slots[j]? <;>
        simpa [World.perform, onSupply, Supply.addRival, Supply.slot, found, Supply.setSlot,
          setSupply] using free
  | onRegion j c =>
      change i ∉ (w.onRegion j c).2.heap.supply.free
      unfold onRegion
      cases w.heap.supply.slot j <;> exact free
  | read max =>
      change i ∉ (w.read max).2.heap.supply.free
      unfold World.read
      cases w.diagnostics.channel? <;> exact free
  | exhaust => exact List.not_mem_nil
  | onTallies | isSentinel | hangUp | clearRecord => exact free
  | drain | request | takeBack | takeBackFrom => exact absurd tidy id

/-- Only calls and commands to the tallies change them. -/
theorem evacuation_of_not_call {a : Action} (tidy : a.Tidy w) (other : ∀ k c, a ≠ .call k c)
    (silent : ∀ c, a ≠ .onTallies c) :
    (w.perform a).2.heap.evacuation = w.heap.evacuation := by
  cases a with
  | call k c => exact absurd rfl (other k c)
  | onTallies c => exact absurd rfl (silent c)
  | recycle j =>
      cases found : w.heap.supply.slots[j]? <;>
        simp [World.perform, onSupply, Supply.recycle, Supply.slot, found, setSupply]
  | addRival j words =>
      cases found : w.heap.supply.slots[j]? <;>
        simp [World.perform, onSupply, Supply.addRival, Supply.slot, found, setSupply]
  | onRegion j c =>
      change (w.onRegion j c).2.heap.evacuation = _
      unfold onRegion
      cases w.heap.supply.slot j <;> rfl
  | read max =>
      change (w.read max).2.heap.evacuation = _
      unfold World.read
      cases w.diagnostics.channel? <;> rfl
  | exhaust | isSentinel | hangUp | clearRecord => rfl
  | drain | request | takeBack | takeBackFrom => exact absurd tidy id

/-- Where nobody waits, an action that lets nobody compete brings nobody there. -/
theorem Orderly.noRivals_perform (o : w.Orderly) {a : Action} (noRivals : w.heap.NoRivals)
    (tidy : a.Tidy w) (quiet : ¬ a.Contests) : (w.perform a).2.heap.NoRivals := by
  cases a with
  | call k c =>
      change (w.call k c).2.heap.NoRivals
      rcases o.call_cases k c with ⟨fault, eq⟩ | ⟨site, s, o, ds, ran⟩
      · rw [eq]
        exact noRivals
      · rw [ran.heap]
        exact ran.deeds.noRivals noRivals
  | recycle i =>
      cases found : w.heap.supply.slots[i]? with
      | none => simpa [World.perform, onSupply, Supply.recycle, Supply.slot, found] using noRivals
      | some slot =>
          intro j other hj
          simp only [World.perform, onSupply, Supply.recycle, Supply.slot, found, Supply.setSlot,
            Bind.bind, Except.bind, Pure.pure, Except.pure, setSupply] at hj
          obtain ⟨rfl, rfl⟩ | ⟨-, before⟩ := Supply.slots_set_cases hj
          · exact noRivals _ slot found
          · exact noRivals j other before
  | exhaust => exact noRivals
  | onTallies c => exact noRivals
  | isSentinel candidate => exact noRivals
  | read max =>
      change (w.read max).2.heap.NoRivals
      unfold World.read
      cases w.diagnostics.channel? with
      | none => exact noRivals
      | some channel => exact noRivals
  | hangUp => exact noRivals
  | clearRecord => exact noRivals
  | onRegion | addRival => exact absurd trivial quiet
  | drain | request | takeBack | takeBackFrom => exact absurd tidy id

/-- A world stays orderly while what happens is tidy. -/
theorem Orderly.after (o : w.Orderly) {actions : List Action}
    (tidy : ∀ h ∈ w.history actions, h.action.Tidy h.before ∧ h.action.Rested h.before) :
    (w.after actions).Orderly :=
  after_invariant (P := World.Orderly)
    (fun h hh order => order.perform (tidy h hh).1 (tidy h hh).2) o

/-- The requests of a world stay on record. -/
theorem Orderly.requests (o : w.Orderly) {a : Action} (tidy : a.Tidy w) :
    w.heap.supply.requests <+: (w.perform a).2.heap.supply.requests := by
  by_cases isCall : ∃ k c, a = .call k c
  · obtain ⟨k, c, rfl⟩ := isCall
    change _ <+: (w.call k c).2.heap.supply.requests
    rcases o.call_cases k c with ⟨fault, eq⟩ | ⟨site, s, result, ds, ran⟩
    · rw [eq]
    · rw [ran.heap]
      exact ran.deeds.requests
  · have other : ∀ k c, a ≠ .call k c := fun k c eq => isCall ⟨k, c, eq⟩
    rw [(sameBooks_of_not_call tidy other).requests]

theorem Orderly.requests_after (o : w.Orderly) {actions : List Action}
    (tidy : ∀ h ∈ w.history actions, h.action.Tidy h.before ∧ h.action.Rested h.before) :
    w.heap.supply.requests <+: (w.after actions).heap.supply.requests := by
  induction actions generalizing w with
  | nil => exact List.prefix_refl _
  | cons a rest ih =>
      rw [history_cons] at tidy
      obtain ⟨now, rested⟩ := tidy _ List.mem_cons_self
      exact (o.requests now).trans (ih (o.perform now rested)
        fun h hh => tidy h (List.mem_cons_of_mem _ hh))

end World

end RegionHeap
