import RegionHeap.Proofs.Heap.Each
import RegionHeap.Proofs.Race.Keeping
import RegionHeap.Proofs.World.Opened

/-!
# What holds of every region

Whatever happens to a world, in order or not, by one thread or by many: what work on a region
and resets leave alone is found at every region of the table. So every cursor stands between
the ends of its region, the ends are where they were, and the regions keep their indices.
-/

namespace RegionHeap

variable {least n : Nat} {P : Nat → Region → Prop}

/-- Whatever threads that share an arena do to the regions is work on them. -/
theorem Race.keeping_each (a : Arena) (keptByWork : ∀ i, Region.KeptByWork (P i)) :
    Keeping a (fun _ => True) fun s => s.heap.Each n P where
  unlocked wish := .any _
  locked wish := .any _
  step st s s' answer _ each performed := Step.perform_each keptByWork each performed
  access each accessed := by
    obtain ⟨slot, found, accessed⟩ := Except.bind_eq_ok accessed
    obtain ⟨⟨_, slot'⟩, stepped, accessed⟩ := Except.bind_eq_ok accessed
    cases accessed
    exact each.put found fun i holds => Slot.step_keptByWork (keptByWork i) holds stepped

namespace World

variable {w : World}

theorem call_each (keptByWork : ∀ i, Region.KeptByWork (P i)) (each : w.heap.Each n P) (k : Nat)
    (c : Call) : (w.call k c).2.heap.Each n P := by
  cases reached : w.siteFor k c with
  | error fault =>
      simp only [World.call, reached]
      exact each
  | ok site =>
      obtain ⟨heap, -⟩ := call_eq reached (Prod.eta _).symm
      rw [heap]
      exact Program.run_invariant (fun s => s.heap.Each n P)
        (fun st s s' answer each performed => Step.perform_each keptByWork each performed) _ each

theorem drain_each (keptByWork : ∀ i, Region.KeptByWork (P i)) (each : w.heap.Each n P)
    (k threads words : Nat) : (w.drain k threads words).2.heap.Each n P := by
  cases reached : w.site k with
  | error fault =>
      simp only [World.drain, reached]
      exact each
  | ok site =>
      have drained : ((Race.Shared.new site.arena (w.store site) threads).drain
          words).store.heap.Each n P :=
        Race.Shared.drain_keeps (Race.keeping_each site.arena keptByWork) each threads words
      simp only [World.drain, reached, absorb]
      generalize (Race.Shared.new site.arena (w.store site) threads).drain words = race at drained
      cases (w.diagnostics.noteAll race.store.transcript).1 with
      | some fault => exact drained
      | none =>
          cases race.fault? with
          | some fault => exact drained
          | none => exact drained

theorem onSupply_each (each : w.heap.Each n P) {f : Supply → Except Fault Supply}
    (keeps : ∀ supply, f w.heap.supply = .ok supply → ({ w.heap with supply } : Heap).Each n P) :
    (w.onSupply f).2.heap.Each n P := by
  unfold World.onSupply
  cases done : f w.heap.supply with
  | ok supply => exact keeps supply done
  | error fault => exact each

/-- Whatever an action does to the regions of the table is work on them, or resets them. -/
theorem perform_each (keptByWork : ∀ i, Region.KeptByWork (P i))
    (reset : ∀ i r, P i r → P i r.reset) (each : w.heap.Each n P) (action : Action) :
    (w.perform action).2.heap.Each n P := by
  have holds {i : Nat} {slot : Slot} (found : w.heap.supply.slot i = .ok slot) :
      P i slot.region := each.holds (Supply.slot_eq_ok_iff.1 found)
  cases action with
  | call k c => exact call_each keptByWork each k c
  | drain k threads words => exact drain_each keptByWork each k threads words
  | exhaust =>
      refine onSupply_each each fun supply done => ?_
      cases done
      exact each.congr rfl
  | recycle i =>
      refine onSupply_each each fun supply done => ?_
      obtain ⟨slot, found, done⟩ := Except.bind_eq_ok done
      cases done
      exact each.set { slot with region := slot.region.reset } (reset i _ (holds found)) rfl
  | addRival i words =>
      refine onSupply_each each fun supply done => ?_
      obtain ⟨slot, found, done⟩ := Except.bind_eq_ok done
      cases done
      have still := holds found
      exact each.set { slot with rivals := slot.rivals ++ [words] } still rfl
  | takeBack i bytes =>
      refine onSupply_each each fun supply done => ?_
      obtain ⟨slot, -, done⟩ := Except.bind_eq_ok done
      cases done
      exact each.congr rfl
  | takeBackFrom purpose i bytes =>
      refine onSupply_each each fun supply done => ?_
      obtain ⟨slot, -, done⟩ := Except.bind_eq_ok done
      cases done
      exact each.congr rfl
  | onRegion i command =>
      simp only [World.perform, World.onRegion]
      cases found : w.heap.supply.slot i with
      | error fault => exact each
      | ok slot =>
          refine each.set { slot with region := (slot.region.respond command).2 } ?_ rfl
          by_cases resets : command = .reset
          · subst resets
            exact reset i _ (holds found)
          · exact (keptByWork i).respond (holds found) resets
  | read max =>
      simp only [World.perform, World.read]
      split
      · exact each
      · exact each
  | request | onTallies | isSentinel | hangUp | clearRecord => exact each.congr rfl

/-- What lasts and outlasts resets is found whatever happened. -/
theorem after_each (keptByWork : ∀ i, Region.KeptByWork (P i)) (reset : ∀ i r, P i r → P i r.reset)
    (each : w.heap.Each n P) (actions : List Action) : (w.after actions).heap.Each n P :=
  after_invariant (P := fun later => later.heap.Each n P)
    (fun h _ each => perform_each keptByWork reset each h.action) each

/-- No action takes a cursor out of its region or an end away from its place. -/
theorem perform_narrow (narrow : w.heap.NarrowerThan least) (action : Action) :
    (w.perform action).2.heap.NarrowerThan least :=
  (perform_each (fun _ => Region.NarrowerThan.keptByWork least)
    (fun _ _ => Region.NarrowerThan.reset)
    narrow.each action).narrow

/-- In a world that was opened, whatever happened since, every region is in its place. -/
theorem Opened.placed_after (opened : w.Opened) (actions : List Action) :
    (w.after actions).heap.Each w.heap.supply.slots.length fun i r =>
      r.Placed w.heap.supply.geometry i := by
  have sound := opened.fresh.sound
  have keptByWork (i : Nat) := Region.Placed.keptByWork sound i 0
  have start : w.heap.Each w.heap.supply.slots.length fun i r =>
      r.Placed w.heap.supply.geometry i ∧ 0 ≤ r.load :=
    ⟨rfl, fun found => ⟨(opened.fresh.placed found).1, Nat.zero_le _⟩⟩
  have reset : ∀ i (r : Region), r.Placed w.heap.supply.geometry i ∧ 0 ≤ r.load →
      r.reset.Placed w.heap.supply.geometry i ∧ 0 ≤ r.reset.load :=
    fun i r holds => ⟨holds.1.reset, Nat.zero_le _⟩
  have each := after_each keptByWork reset start actions
  exact ⟨each.length, fun found => (each.holds found).1⟩

/-- So the cursor of every region stands between its ends. -/
theorem Opened.inBounds_after (opened : w.Opened) (actions : List Action) :
    ∀ slot ∈ (w.after actions).heap.supply.slots, slot.region.InBounds := by
  intro slot mem
  obtain ⟨i, found⟩ := List.getElem?_of_mem mem
  have p := (opened.placed_after actions).holds found
  exact ⟨Nat.pos_of_ne_zero (p.word_ne opened.fresh.sound), p.bottom_le, p.le_limit, p.inside⟩

end World

end RegionHeap
