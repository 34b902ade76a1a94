import RegionHeap.Proofs.Race.Claim

/-!
# Drawing a region anew

The thread with the lock writes marks and records fillers. Neither concerns those who claim
words, so a scene stays safe if every filler of a region stands in the book.
-/

namespace RegionHeap

/-- Only the mark and the fillers of the region are drawn anew. -/
structure Region.Redrawn (r r' : Region) : Prop where
  index : r'.index = r.index
  bottom : r'.bottom = r.bottom
  top : r'.top = r.top
  limit : r'.limit = r.limit
  word : r'.wordBytes = r.wordBytes

namespace Region.Redrawn

variable {r r' : Region} {g : Geometry} {i : Nat}

theorem onward (h : r.Redrawn r') : r.Onward r' :=
  ⟨h.bottom, h.limit, h.word, Nat.le_of_eq h.top.symm⟩

theorem load_eq (h : r.Redrawn r') : r'.load = r.load := by
  rw [load, load, h.bottom, h.top]

theorem left_eq (h : r.Redrawn r') : r'.left = r.left := by
  simp only [left, room, h.limit, h.top, h.word]

theorem placed (h : r.Redrawn r') (p : r.Placed g i) : r'.Placed g i where
  index := h.index.trans p.index
  word := h.word.trans p.word
  bottom := h.bottom.trans p.bottom
  limit := by rw [h.limit, h.bottom, p.limit]
  inside := h.limit ▸ p.inside
  bottom_le := by rw [h.bottom, h.top]; exact p.bottom_le
  le_limit := by rw [h.limit, h.top]; exact p.le_limit
  aligned := by rw [h.bottom, h.top]; exact p.aligned

end Region.Redrawn

namespace Race

open Scene

namespace Scene

/-- What the thread with the lock leaves alone unless it means to. -/
structure Kept (base : Supply) (thread : Nat) (z z' : Scene) : Prop where
  grows : Grows base z z'
  mine : z'.mine thread = z.mine thread
  registers : z'.registers = z.registers
  returns : z'.returns base = z.returns base

/-- The scene with the region at `i` drawn anew. -/
def redraw (z : Scene) (i : Nat) (slot : Slot) (region : Region) : Scene :=
  { z with heap := z.heap.put (.table i) { slot with region } }

variable {a : Arena} {base : Supply} {thread : Nat} {z z' z'' : Scene} {i : Nat} {slot : Slot}
  {region : Region}

theorem Kept.trans (h : Kept base thread z z') (h' : Kept base thread z' z'') :
    Kept base thread z z'' :=
  ⟨h.grows.trans h'.grows, h'.mine.trans h.mine, h'.registers.trans h.registers,
    h'.returns.trans h.returns⟩

/-- While it has the lock, a thread can rely on what it leaves alone itself. -/
theorem Rely.kept (rely : Rely a base thread true z z') : Kept base thread z z' :=
  ⟨rely.grows, rely.mine, (rely.still rfl).registers, (rely.still rfl).returns⟩

theorem redraw_slot_self (found : z.heap.supply.slots[i]? = some slot) :
    (z.redraw i slot region).heap.supply.slots[i]? = some { slot with region } :=
  List.getElem?_set_self (List.getElem?_eq_some_iff.1 found).1

theorem redraw_slot_of_ne {j : Nat} (ne : j ≠ i) :
    (z.redraw i slot region).heap.supply.slots[j]? = z.heap.supply.slots[j]? :=
  List.getElem?_set_ne (Ne.symm ne)

theorem redraw_grows (found : z.heap.supply.slots[i]? = some slot)
    (redrawn : slot.region.Redrawn region) (out : ∀ r ∈ z.returns base, r.1 ≠ i) :
    Grows base z (z.redraw i slot region) where
  geometry := rfl
  granted := List.Subset.refl _
  returns := List.Subset.refl _
  slots := fun {j other} hj => by
    obtain ⟨rfl, after⟩ | ⟨-, after⟩ := Supply.slots_set_of_slots i { slot with region } hj
    · cases found.symm.trans hj
      exact ⟨_, after, redrawn.onward⟩
    · exact ⟨other, after, .refl _⟩
  frozen := fun r hr => redraw_slot_of_ne (out r hr)
  book := List.suffix_refl _

theorem redraw_kept (thread : Nat) (found : z.heap.supply.slots[i]? = some slot)
    (redrawn : slot.region.Redrawn region) (out : ∀ r ∈ z.returns base, r.1 ≠ i) :
    Kept base thread z (z.redraw i slot region) :=
  ⟨redraw_grows found redrawn out, rfl, rfl, rfl⟩

/-- A region is drawn anew by the thread with the lock, and its fillers are entered. -/
theorem Safe.redraw (safe : z.Safe a base) (mine : i ∈ z.granted base)
    (found : z.heap.supply.slots[i]? = some slot) (redrawn : slot.region.Redrawn region)
    (out : ∀ r ∈ z.returns base, r.1 ≠ i)
    (entered : ∀ filler ∈ region.fillers,
      { region := i, span := filler, user := none } ∈ z.book) :
    (z.redraw i slot region).Safe a base := by
  have p := safe.order.placed found
  have grows : Grows base z (z.redraw i slot region) := redraw_grows found redrawn out
  have back {j : Nat} {other : Slot}
      (hj : (z.redraw i slot region).heap.supply.slots[j]? = some other) :
      ∃ before, z.heap.supply.slots[j]? = some before ∧ before.rivals = other.rivals ∧
        before.region.Redrawn other.region ∧ (j ≠ i → before = other) := by
    obtain ⟨rfl, rfl⟩ | ⟨-, before⟩ := Supply.slots_set_cases hj
    · exact ⟨slot, found, rfl, redrawn, fun ne => absurd rfl ne⟩
    · exact ⟨other, before, rfl, ⟨rfl, rfl, rfl, rfl, rfl⟩, fun _ => rfl⟩
  refine {
    suits := safe.suits
    order := safe.order.put found (redrawn.placed p) (Nat.le_of_eq redrawn.load_eq.symm)
      fun free => absurd free (safe.granted i mine).1
    noRivals := fun j other hj => ?_
    follows := ⟨safe.follows.requests, safe.follows.mutatorReturns,
      safe.follows.collectorReturns⟩
    active := ?_
    retained := fun place here => (safe.retained place here).grows grows
    granted := ?_
    once := safe.once
    returned := ?_
    inside := ?_
    apart := safe.apart
    total := ?_
    fillers := ?_ }
  · obtain ⟨before, hb, same, -⟩ := back hj
    exact same ▸ safe.noRivals j before hb
  · obtain ⟨place, here, usable⟩ := safe.active
    exact ⟨place, here, usable.grows grows⟩
  · intro j hj
    obtain ⟨notFree, other, found'⟩ := safe.granted j hj
    obtain ⟨slot', found'', -⟩ := grows.slots found'
    exact ⟨notFree, slot', found''⟩
  · intro r hr
    obtain ⟨granted, sealed, reported⟩ := safe.returned r hr
    exact ⟨granted, fun other ho => sealed other ((redraw_slot_of_ne (out r hr)).symm.trans ho),
      reported⟩
  · intro t ht
    obtain ⟨granted, size, inside⟩ := safe.inside t ht
    refine ⟨granted, size, fun other ho => ?_⟩
    obtain ⟨before, hb, -, same, -⟩ := back ho
    rw [same.bottom, same.top]
    exact inside before hb
  · intro j hj other ho
    obtain ⟨before, hb, -, same, -⟩ := back ho
    rw [same.load_eq]
    exact safe.total j hj before hb
  · intro j hj other ho filler hf
    by_cases eq : j = i
    · subst eq
      cases (redraw_slot_self found).symm.trans ho
      exact entered filler hf
    · obtain ⟨before, hb, -, -, same⟩ := back ho
      exact safe.fillers j hj other (same eq ▸ hb) filler hf

end Scene

namespace Assures

variable {a : Arena} {base : Supply} {thread : Nat} {z : Scene} {i : Nat}
  {post : Unit → Scene → Prop}

/-- A step of the thread with the lock that draws a region anew. -/
theorem redrawAt {f : Region → Except Fault Region} (mine : i ∈ z.granted base)
    (out : ∀ r ∈ z.returns base, r.1 ≠ i)
    (draws : ∀ z₁ slot, z₁.Safe a base → Rely a base thread true z z₁ →
      z₁.heap.supply.slots[i]? = some slot →
        ∃ region, f slot.region = .ok region ∧ slot.region.Redrawn region ∧
          ∀ filler ∈ region.fillers, { region := i, span := filler, user := none } ∈ z₁.book)
    (h : ∀ z₁ slot region, Rely a base thread true z z₁ →
      z₁.heap.supply.slots[i]? = some slot → slot.region.Redrawn region →
        post () (z₁.redraw i slot region))
    (z₁ : Scene) (safe : z₁.Safe a base) (rely : Rely a base thread true z z₁)
    (said : List Entry) :
    ∃ answer s book, Step.onRegion (z₁.store said) (.table i) f = .ok (answer, s) ∧
      Safe a base { registers := s.registers, heap := s.heap, book } ∧
        Guar a base thread true z₁ { registers := s.registers, heap := s.heap, book } ∧
          post answer { registers := s.registers, heap := s.heap, book } := by
  have mine₁ := rely.grows.granted mine
  have out₁ : ∀ r ∈ z₁.returns base, r.1 ≠ i := rely.kept.returns ▸ out
  obtain ⟨-, slot, found⟩ := safe.granted i mine₁
  obtain ⟨region, drawn, redrawn, entered⟩ := draws z₁ slot safe rely found
  have here : (z₁.store said).heap.find (.table i) = .ok slot :=
    Heap.find_table_eq_ok_iff.2 found
  refine ⟨(), (z₁.redraw i slot region).store said, z₁.book, ?_,
    safe.redraw mine₁ found redrawn out₁ entered, ⟨redraw_grows found redrawn out₁,
      fun _ _ => rfl, nofun⟩, h z₁ slot region rely found redrawn⟩
  rw [Step.onRegion_eq, here]
  simp only [Except.bind, drawn, Except.map]
  rfl

/-- A filler that was entered into the book is recorded in its region. -/
theorem addFiller {filler : Span} (mine : i ∈ z.granted base)
    (out : ∀ r ∈ z.returns base, r.1 ≠ i)
    (entered : { region := i, span := filler, user := none } ∈ z.book)
    (fits : ∀ z₁ slot, Rely a base thread true z z₁ → z₁.heap.supply.slots[i]? = some slot →
      slot.region.addFiller filler = .ok { slot.region with
        fillers := Region.insertFiller filler slot.region.fillers })
    (h : ∀ z₁ slot region, Rely a base thread true z z₁ →
      z₁.heap.supply.slots[i]? = some slot → slot.region.Redrawn region →
        post () (z₁.redraw i slot region)) :
    Assures a base thread true (Program.perform (.addFiller (.table i) filler)) z post := by
  refine redrawAt (f := fun r => r.addFiller filler) mine out (fun z₁ slot safe rely found => ?_) h
  refine ⟨_, fits z₁ slot rely found, ⟨rfl, rfl, rfl, rfl, rfl⟩, fun f hf => ?_⟩
  rcases Region.mem_insertFiller.1 hf with rfl | hf
  · exact rely.grows.book.subset entered
  · exact safe.fillers i (rely.grows.granted mine) slot found f hf

theorem mark {address : Nat} (mine : i ∈ z.granted base) (out : ∀ r ∈ z.returns base, r.1 ≠ i)
    (h : ∀ z₁ slot region, Rely a base thread true z z₁ →
      z₁.heap.supply.slots[i]? = some slot → slot.region.Redrawn region →
        post () (z₁.redraw i slot region)) :
    Assures a base thread true (Program.perform (.mark (.table i) address)) z post :=
  redrawAt (f := fun r => .ok (r.mark address)) mine out
    (fun _ slot safe rely found => ⟨_, rfl, ⟨rfl, rfl, rfl, rfl, rfl⟩,
      fun f hf => safe.fillers i (rely.grows.granted mine) slot found f hf⟩) h

theorem unmark (mine : i ∈ z.granted base) (out : ∀ r ∈ z.returns base, r.1 ≠ i)
    (h : ∀ z₁ slot region, Rely a base thread true z z₁ →
      z₁.heap.supply.slots[i]? = some slot → slot.region.Redrawn region →
        post () (z₁.redraw i slot region)) :
    Assures a base thread true (Program.perform (.unmark (.table i))) z post :=
  redrawAt (f := fun r => .ok r.unmark) mine out
    (fun _ slot safe rely found => ⟨_, rfl, ⟨rfl, rfl, rfl, rfl, rfl⟩,
      fun f hf => safe.fillers i (rely.grows.granted mine) slot found f hf⟩) h

end Assures

end Race

end RegionHeap
