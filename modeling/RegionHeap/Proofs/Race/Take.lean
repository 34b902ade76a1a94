import RegionHeap.Proofs.Race.Assures

/-!
# Taking words among threads

A claim that is served takes words that nobody has, from a region that has not gone back.
So the scene stays safe when the words are entered into the book. A region that went back
is sealed: it has less room than the least request.
-/

namespace RegionHeap.Race

open Scene

namespace Scene

/-- The scene after words were taken from the cursor of region `i`. -/
def take (z : Scene) (i : Nat) (slot : Slot) (words : Nat) (user : Option Nat) : Scene where
  registers := z.registers
  heap := z.heap.put (.table i) { slot with region := slot.region.took words }
  book := { region := i, span := { start := slot.region.top, words }, user } :: z.book

variable {a : Arena} {base : Supply} {z : Scene} {i words : Nat} {slot : Slot}
  {user : Option Nat}

theorem take_slot_self (found : z.heap.supply.slots[i]? = some slot) :
    (z.take i slot words user).heap.supply.slots[i]? =
      some { slot with region := slot.region.took words } :=
  List.getElem?_set_self (List.getElem?_eq_some_iff.1 found).1

theorem take_slot_of_ne {j : Nat} (ne : j ≠ i) :
    (z.take i slot words user).heap.supply.slots[j]? = z.heap.supply.slots[j]? :=
  List.getElem?_set_ne (Ne.symm ne)

theorem take_grows (found : z.heap.supply.slots[i]? = some slot)
    (out : ∀ r ∈ z.returns base, r.1 ≠ i) : Grows base z (z.take i slot words user) where
  geometry := rfl
  granted := List.Subset.refl _
  returns := List.Subset.refl _
  slots := fun {j other} hj => by
    obtain ⟨rfl, after⟩ | ⟨-, after⟩ := Supply.slots_set_of_slots i
      { slot with region := slot.region.took words } hj
    · cases found.symm.trans hj
      exact ⟨_, after, .took _ _⟩
    · exact ⟨other, after, .refl _⟩
  frozen := fun r hr => take_slot_of_ne (out r hr)
  book := List.suffix_cons _ _

/-- Taking from a region that is shown and not sealed disturbs nobody. -/
theorem take_still {least thread : Nat} (found : z.heap.supply.slots[i]? = some slot)
    (full : slot.region.load ≠ 0) (room : least ≤ slot.region.left) :
    Still base least z (z.take i slot words (some thread)) where
  registers := rfl
  returns := rfl
  plugs := by simp [plugs, take]
  quiet := fun {j other} hj why => by
    have ne : j ≠ i := by
      rintro rfl
      cases found.symm.trans hj
      omega
    exact (take_slot_of_ne ne).trans hj

/-- What was taken before from the same region ends at the cursor; what was taken from
another lies apart from it. -/
theorem Safe.apart_take (safe : z.Safe a base) (found : z.heap.supply.slots[i]? = some slot)
    (fits : words ≤ slot.region.left) {u : Taking} (hu : u ∈ z.book) :
    Span.Apart z.heap.supply.geometry.wordBytes { start := slot.region.top, words } u.span := by
  obtain ⟨mine, -, inside⟩ := safe.inside u hu
  have p := safe.order.placed found
  have q := (p.took fits).le_limit
  simp only [Region.took, p.word] at q
  by_cases eq : u.region = i
  · exact .inr (inside slot (eq ▸ found)).2
  · obtain ⟨-, other, found'⟩ := safe.granted _ mine
    have p' := safe.order.placed found'
    obtain ⟨lower, upper⟩ := inside other found'
    have below := p'.le_limit
    have above := p.bottom_le
    rcases p.apart p' (Ne.symm eq) with left | right
    · exact .inl (by simp only; omega)
    · exact .inr (by simp only; omega)

/-- A scene stays safe when words are taken from a region that has not gone back. -/
theorem Safe.take (safe : z.Safe a base) (user : Option Nat) (mine : i ∈ z.granted base)
    (found : z.heap.supply.slots[i]? = some slot) (pos : 0 < words)
    (fits : words ≤ slot.region.left) (out : ∀ r ∈ z.returns base, r.1 ≠ i) :
    (z.take i slot words user).Safe a base := by
  have p := safe.order.placed found
  have grows : Grows base z (z.take i slot words user) := take_grows found out
  have load : (slot.region.took words).load =
      slot.region.load + words * z.heap.supply.geometry.wordBytes := p.load_took words
  refine {
    suits := safe.suits
    order := safe.order.put found (p.took fits) (by simp only; omega)
      fun free => absurd free (safe.granted i mine).1
    noRivals := ?_
    follows := ⟨safe.follows.requests, safe.follows.mutatorReturns,
      safe.follows.collectorReturns⟩
    active := ?_
    retained := fun place here => (safe.retained place here).grows grows
    granted := ?_
    once := safe.once
    returned := ?_
    inside := ?_
    apart := List.pairwise_cons.2 ⟨fun u hu => safe.apart_take found fits hu, safe.apart⟩
    total := ?_
    fillers := ?_ }
  · intro j other hj
    obtain ⟨rfl, rfl⟩ | ⟨-, before⟩ := Supply.slots_set_cases hj
    · exact safe.noRivals _ slot found
    · exact safe.noRivals j other before
  · obtain ⟨place, here, usable⟩ := safe.active
    exact ⟨place, here, usable.grows grows⟩
  · intro j hj
    obtain ⟨notFree, other, found'⟩ := safe.granted j hj
    obtain ⟨slot', found'', -⟩ := grows.slots found'
    exact ⟨notFree, slot', found''⟩
  · intro r hr
    have ne := out r hr
    obtain ⟨granted, sealed, reported⟩ := safe.returned r hr
    refine ⟨granted, fun other ho => sealed other ((take_slot_of_ne ne).symm.trans ho), ?_⟩
    have notLent : Taking.lent r.1
        { region := i, span := { start := slot.region.top, words }, user } = false := by
      simp [Taking.lent, Ne.symm ne]
    change r.2 = Taking.bytes z.heap.supply.geometry.wordBytes _ (_ :: z.book)
    rw [Taking.bytes_cons, notLent]
    simpa using reported
  · intro t ht
    rcases List.mem_cons.1 ht with rfl | ht
    · refine ⟨mine, pos, fun other ho => ?_⟩
      cases (take_slot_self found).symm.trans ho
      refine ⟨p.bottom_le, ?_⟩
      change _ + words * z.heap.supply.geometry.wordBytes ≤
        slot.region.top + words * slot.region.wordBytes
      rw [p.word]
    · obtain ⟨granted, size, inside⟩ := safe.inside t ht
      refine ⟨granted, size, fun other ho => ?_⟩
      by_cases eq : t.region = i
      · rw [eq, take_slot_self found] at ho
        cases ho
        obtain ⟨lower, upper⟩ := inside slot (eq ▸ found)
        exact ⟨lower, Nat.le_trans upper (Nat.le_add_right _ _)⟩
      · exact inside other ((take_slot_of_ne eq).symm.trans ho)
  · intro j hj other ho
    change Taking.bytes z.heap.supply.geometry.wordBytes _ (_ :: z.book) = _
    rw [Taking.bytes_cons]
    obtain ⟨rfl, rfl⟩ | ⟨ne, same⟩ := Supply.slots_set_cases ho
    · have before := safe.total j hj slot found
      have here : Taking.inRegion j
          { region := j, span := { start := slot.region.top, words }, user } = true := by
        simp [Taking.inRegion]
      change (if _ then words * z.heap.supply.geometry.wordBytes else 0) +
        Taking.bytes z.heap.supply.geometry.wordBytes _ _ = (slot.region.took words).load
      rw [if_pos here, before, load, Nat.add_comm]
    · have elsewhere : Taking.inRegion j
          { region := i, span := { start := slot.region.top, words }, user } = false := by
        simp [Taking.inRegion, Ne.symm ne]
      rw [elsewhere]
      simpa using safe.total j hj other same
  · intro j hj other ho filler hf
    refine List.mem_cons_of_mem _ ?_
    obtain ⟨rfl, rfl⟩ | ⟨-, before⟩ := Supply.slots_set_cases ho
    · exact safe.fillers j hj slot found filler hf
    · exact safe.fillers j hj other before filler hf

/-- A region that went back is sealed. -/
theorem Safe.out_of_room (safe : z.Safe a base) (found : z.heap.supply.slots[i]? = some slot)
    (room : a.settings.minFillWords ≤ slot.region.left) : ∀ r ∈ z.returns base, r.1 ≠ i := by
  rintro r hr rfl
  have := (safe.returned r hr).2.1 slot found
  omega

end Scene

end RegionHeap.Race
