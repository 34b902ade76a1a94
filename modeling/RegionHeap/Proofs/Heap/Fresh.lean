import RegionHeap.Proofs.Heap.Orderly
import RegionHeap.Setup

/-!
# Fresh heaps

A table that was just built has every region in its place, empty and free. A sentinel
that setup accepts has no room. So the heap over both is in order while nothing is held.
-/

namespace RegionHeap

namespace Word

theorem eq_of_mul_eq_ok {a b c : Nat} (h : mul a b = .ok c) : c = a * b ∧ c < bound := by
  unfold mul at h
  split at h
  · cases h
    exact ⟨rfl, ‹_›⟩
  · cases h

theorem eq_of_add_eq_ok {a b c : Nat} (h : add a b = .ok c) : c = a + b ∧ c < bound := by
  unfold add at h
  split at h
  · cases h
    exact ⟨rfl, ‹_›⟩
  · cases h

end Word

/-- A value that comes of a sequence comes of its second part. -/
theorem Except.bind_eq_ok {ε α β : Type} {x : Except ε α} {f : α → Except ε β} {b : β}
    (h : x.bind f = .ok b) : ∃ a, x = .ok a ∧ f a = .ok b := by
  cases x with
  | error e => cases h
  | ok a => exact ⟨a, rfl, h⟩

/-- An address is reached if it is one. -/
theorem Address.advance_eq_ok {a words wordBytes : Nat} (h : a + words * wordBytes < Word.bound) :
    Address.advance a words wordBytes = .ok (a + words * wordBytes) := by
  have product : words * wordBytes < Word.bound := by omega
  simp only [Address.advance, Word.mul_eq_ok product, Bind.bind, Except.bind]
  exact Word.add_eq_ok h

theorem Region.new_eq_ok {index bottom words wordBytes : Nat} {r : Region}
    (h : Region.new index bottom words wordBytes = .ok r) :
    bottom + words * wordBytes < Word.bound ∧
      r = { index, bottom, top := bottom, limit := bottom + words * wordBytes, wordBytes,
            marker := none, fillers := [] } := by
  obtain ⟨limit, hl, hr⟩ := Except.bind_eq_ok h
  obtain ⟨bytes, hb, hl⟩ := Except.bind_eq_ok hl
  obtain ⟨rfl, -⟩ := Word.eq_of_mul_eq_ok hb
  obtain ⟨rfl, inside⟩ := Word.eq_of_add_eq_ok hl
  cases hr
  exact ⟨inside, rfl⟩

namespace Geometry

variable {g : Geometry} {i : Nat}

/-- A region of the geometry is built in its place, and empty. -/
theorem region_eq_ok {r : Region} (h : g.region i = .ok r) :
    r.Placed g i ∧ r.load = 0 ∧ r.fillers = [] := by
  obtain ⟨start, hs, hr⟩ := Except.bind_eq_ok h
  obtain ⟨bytes, hb, hs⟩ := Except.bind_eq_ok hs
  obtain ⟨offset, ho, hs⟩ := Except.bind_eq_ok hs
  obtain ⟨rfl, -⟩ := Word.eq_of_mul_eq_ok hb
  obtain ⟨rfl, -⟩ := Word.eq_of_mul_eq_ok ho
  obtain ⟨rfl, -⟩ := Word.eq_of_add_eq_ok hs
  obtain ⟨inside, rfl⟩ := Region.new_eq_ok hr
  exact ⟨⟨rfl, rfl, rfl, rfl, inside, Nat.le_refl _, Nat.le_add_right _ _, by simp⟩,
    Nat.sub_self _, rfl⟩

theorem regionsFrom_eq_ok {first count : Nat} {rs : List Region}
    (h : g.regionsFrom first count = .ok rs) :
    rs.length = count ∧ ∀ {j r}, rs[j]? = some r → g.region (first + j) = .ok r := by
  induction count generalizing first rs with
  | zero =>
      cases h
      exact ⟨rfl, by simp⟩
  | succ count ih =>
      obtain ⟨r, hr, h⟩ := Except.bind_eq_ok h
      obtain ⟨rest, hrest, h⟩ := Except.bind_eq_ok h
      cases h
      obtain ⟨length, each⟩ := ih hrest
      refine ⟨congrArg Nat.succ length, ?_⟩
      intro j other hj
      cases j with
      | zero =>
          cases hj
          exact hr
      | succ j =>
          have := each (List.getElem?_cons_succ ▸ hj)
          rwa [Nat.add_right_comm] at this

end Geometry

/-- A table that was just built. -/
structure Supply.Fresh (s : Supply) : Prop where
  sound : s.geometry.Sound
  placed : ∀ {i : Nat} {slot : Slot}, s.slots[i]? = some slot →
    slot.region.Placed s.geometry i ∧ slot.Vacant
  free : s.free = List.range s.slots.length
  requests : s.requests = []
  mutatorReturns : s.mutatorReturns = []
  collectorReturns : s.collectorReturns = []

/-- A table is built of the regions of a valid geometry. -/
theorem Supply.new_built {g : Geometry} {count : Nat} {s : Supply} (h : Supply.new g count = .ok s) :
    g.validate = .ok () ∧ ∃ rs, g.regionsFrom 0 count = .ok rs ∧
      s = { geometry := g, slots := rs.map fun region => { region }, free := List.range count } := by
  unfold Supply.new at h
  cases valid : g.validate with
  | error why => simp [valid] at h
  | ok u =>
      simp only [valid] at h
      obtain ⟨rs, hrs, h⟩ := Except.bind_eq_ok h
      cases h
      exact ⟨rfl, rs, hrs, rfl⟩

theorem Supply.new_slot {g : Geometry} {count : Nat} {s : Supply} (h : Supply.new g count = .ok s)
    {i : Nat} {slot : Slot} (found : s.slots[i]? = some slot) :
    ∃ r, g.region i = .ok r ∧ slot = { region := r } := by
  obtain ⟨-, rs, hrs, rfl⟩ := Supply.new_built h
  simp only [List.getElem?_map, Option.map_eq_some_iff] at found
  obtain ⟨r, hr, rfl⟩ := found
  have built := (Geometry.regionsFrom_eq_ok hrs).2 hr
  rw [Nat.zero_add] at built
  exact ⟨r, built, rfl⟩

theorem Supply.new_eq_ok {g : Geometry} {count : Nat} {s : Supply} (h : Supply.new g count = .ok s) :
    s.Fresh ∧ s.geometry = g ∧ s.slots.length = count := by
  have slots := @Supply.new_slot g count s h
  obtain ⟨valid, rs, hrs, rfl⟩ := Supply.new_built h
  have length := (Geometry.regionsFrom_eq_ok hrs).1
  refine ⟨⟨Geometry.sound_of_validate valid, ?_, ?_, rfl, rfl, rfl⟩, rfl, ?_⟩
  · intro i slot found
    obtain ⟨r, built, rfl⟩ := slots found
    obtain ⟨p, empty, clear⟩ := Geometry.region_eq_ok built
    exact ⟨p, empty, rfl, clear⟩
  · simp [length]
  · simp [length]

/-- A sentinel that is accepted has no room, and words of some size. -/
theorem SentinelOffer.accept_eq_ok {offer : SentinelOffer} {r : Region}
    (h : offer.accept = .ok r) : r.limit = r.top ∧ r.wordBytes ≠ 0 := by
  cases offer with
  | leaking => cases h
  | region r₀ =>
      obtain ⟨free, hf, h⟩ := Except.bind_eq_ok h
      by_cases room : free ≠ 0
      · rw [if_pos room] at h
        cases h
      · rw [if_neg room] at h
        obtain rfl := Classical.not_not.1 room
        have full : r₀.limit = r₀.top := by
          unfold Region.free Address.distanceFrom at hf
          split at hf
          · have := Except.ok.inj hf
            omega
          · cases hf
        obtain ⟨⟨span, r₁⟩, hc, h⟩ := Except.bind_eq_ok h
        have word : r₀.wordBytes ≠ 0 := by
          intro zero
          simp [Region.claim, Region.propose, full, Word.sub_eq_ok (Nat.le_refl r₀.top), Word.div,
            zero, Bind.bind, Except.bind] at hc
        rw [Region.claim_of_full full word (Nat.le_refl 1)] at hc
        cases hc
        cases h
        exact ⟨full, word⟩

/-- The heap over a fresh table is in order. -/
theorem Heap.Orderly.fresh {h : Heap} (fresh : h.supply.Fresh)
    (full : h.sentinel.limit = h.sentinel.top) (word : h.sentinel.wordBytes ≠ 0) :
    h.Orderly [] where
  sound := fresh.sound
  placed := fun hs => (fresh.placed hs).1
  full := full
  sentinelWord := word
  vacant := fun i hi => by
    rw [fresh.free, List.mem_range] at hi
    exact ⟨_, List.getElem?_eq_getElem hi, (fresh.placed (List.getElem?_eq_getElem hi)).2⟩
  occupied := nofun
  nodup := by
    rw [fresh.free, List.append_nil]
    exact List.nodup_range

end RegionHeap
