import RegionHeap.Proofs.Race.Redraw

/-!
# Filling a region among threads

The thread with the lock fills what is left of a region while others still claim from it.
Whoever is refused finds less left than before, so the fill comes to an end, and then the
region has less room than the least request: nobody takes anything from it any more.
-/

namespace RegionHeap.Race

open Scene

namespace Scene

/-- What became a filler in region `i`, in bytes. -/
def plugged (z : Scene) (i : Nat) : Nat :=
  Taking.bytes z.heap.supply.geometry.wordBytes (Taking.inRegion i) z.plugs

theorem bytes_plug_eq (z : Scene) (i : Nat) :
    Taking.bytes z.heap.supply.geometry.wordBytes (Taking.plug i) z.book = z.plugged i := by
  unfold plugged Taking.bytes plugs
  rw [List.filter_filter]
  congr 2
  refine List.filter_congr fun t _ => ?_
  cases user : t.user <;> simp [Taking.plug, Taking.inRegion, user]

theorem plugged_of_rely {a : Arena} {base : Supply} {thread : Nat} {z z' : Scene}
    (rely : Rely a base thread true z z') (i : Nat) : z'.plugged i = z.plugged i := by
  unfold plugged
  rw [(rely.still rfl).plugs, rely.grows.geometry]

end Scene

/-- Region `i` was filled by the thread with the lock, which wrote fillers of so many bytes
and left too little for another. -/
structure Filled (a : Arena) (base : Supply) (thread i : Nat) (z : Scene) (filler : Nat)
    (z' : Scene) : Prop where
  kept : Kept base thread z z'
  plugs : ∀ t ∈ z'.plugs, t ∈ z.plugs ∨ t.region = i
  plugged : z'.plugged i = z.plugged i + filler
  sealed : ∃ slot, z'.heap.supply.slots[i]? = some slot ∧
    slot.region.left < a.settings.minFillWords

namespace Filled

variable {a : Arena} {base : Supply} {thread i filler : Nat} {z z' z'' : Scene} {slot : Slot}

/-- Little enough is left from the start. -/
theorem refl (found : z.heap.supply.slots[i]? = some slot)
    (few : slot.region.left < a.settings.minFillWords) : Filled a base thread i z 0 z :=
  ⟨(Rely.refl a base thread true z).kept, fun _ h => .inl h, rfl, slot, found, few⟩

theorem of_rely (rely : Rely a base thread true z z') (h : Filled a base thread i z' filler z'') :
    Filled a base thread i z filler z'' where
  kept := rely.kept.trans h.kept
  plugs := (rely.still rfl).plugs ▸ h.plugs
  plugged := by rw [h.plugged, plugged_of_rely rely i]
  sealed := h.sealed

theorem rely (h : Filled a base thread i z filler z') (rely : Rely a base thread true z' z'') :
    Filled a base thread i z filler z'' where
  kept := h.kept.trans rely.kept
  plugs := (rely.still rfl).plugs ▸ h.plugs
  plugged := (plugged_of_rely rely i).trans h.plugged
  sealed := by
    obtain ⟨slot, found, few⟩ := h.sealed
    exact ⟨slot, (rely.still rfl).quiet found (.inr few), few⟩

theorem redraw (h : Filled a base thread i z filler z') {region : Region}
    (found : z'.heap.supply.slots[i]? = some slot) (redrawn : slot.region.Redrawn region)
    (out : ∀ r ∈ z'.returns base, r.1 ≠ i) :
    Filled a base thread i z filler (z'.redraw i slot region) where
  kept := h.kept.trans (redraw_kept thread found redrawn out)
  plugs := h.plugs
  plugged := h.plugged
  sealed := by
    obtain ⟨slot', found', few⟩ := h.sealed
    cases found.symm.trans found'
    exact ⟨_, redraw_slot_self found, redrawn.left_eq ▸ few⟩

/-- All that is left becomes a filler. -/
theorem of_take (thread : Nat) (safe : z.Safe a base) (found : z.heap.supply.slots[i]? = some slot)
    (out : ∀ r ∈ z.returns base, r.1 ≠ i) :
    Filled a base thread i z (slot.region.left * z.heap.supply.geometry.wordBytes)
      (z.take i slot slot.region.left none) where
  kept := ⟨take_grows found out, by simp [mine, take], rfl, rfl⟩
  plugs := fun t ht => by
    simp only [Scene.plugs, take, List.filter_cons, decide_true, if_true] at ht
    rcases List.mem_cons.1 ht with rfl | ht
    · exact .inr rfl
    · exact .inl ht
  plugged := by
    simp only [Scene.plugged, Scene.plugs, take, List.filter_cons, decide_true, if_true]
    rw [Taking.bytes_cons, Nat.add_comm]
    simp [Taking.inRegion]
  sealed := by
    refine ⟨_, take_slot_self found, ?_⟩
    have p := safe.order.placed found
    have rest := Region.left_took (Nat.le_refl slot.region.left)
    have least := safe.suits.least
    simp only
    omega

end Filled

section

variable {a : Arena} {base : Supply} {thread i : Nat} {z : Scene} {slot : Slot}

/-- The filler that was taken is recorded and marked. -/
theorem record_assures (safe : z.Safe a base) (mine : i ∈ z.granted base)
    (found : z.heap.supply.slots[i]? = some slot) (out : ∀ r ∈ z.returns base, r.1 ≠ i) :
    Assures a base thread true
      (do
        Program.perform (.addFiller (.table i) ⟨slot.region.top, slot.region.left⟩)
        Program.perform (.mark (.table i) slot.region.top)
        Program.compute (Word.mul slot.region.left a.settings.heapWordBytes))
      (z.take i slot slot.region.left none) (Filled a base thread i z) := by
  have p := safe.order.placed found
  have filled := Filled.of_take thread safe found out
  refine .bind (.addFiller mine out List.mem_cons_self (fun z₁ slot₁ rely found₁ => ?_)
    fun z₁ slot₁ region₁ rely found₁ redrawn₁ => ?_)
  · obtain ⟨taken, here, few⟩ := filled.sealed
    cases (take_slot_self found).symm.trans here
    cases found₁.symm.trans ((rely.still rfl).quiet here (.inr few))
    exact Arena.addFiller_rest (p.whole safe.order.sound)
  · have out₁ : ∀ r ∈ z₁.returns base, r.1 ≠ i := by
      rw [rely.kept.returns]
      exact out
    have filled₁ := (filled.rely rely).redraw found₁ redrawn₁ out₁
    refine .bind (.mark (rely.grows.granted mine) out₁
      fun z₂ slot₂ region₂ rely₂ found₂ redrawn₂ => ?_)
    have out₂ : ∀ r ∈ z₂.returns base, r.1 ≠ i := by
      rw [rely₂.kept.returns]
      exact out₁
    refine .compute ?_ ((filled₁.rely rely₂).redraw found₂ redrawn₂ out₂)
    have whole := p.left_mul
    have := p.inside
    rw [safe.suits.word, Word.mul_eq_ok]
    rw [whole, Region.room]
    omega

/-- The fill comes to an end: whoever refuses it leaves fewer words to fill. The induction
is on the patience, which the words that are left never reach. -/
theorem fill_assures {patience words : Nat} (safe : z.Safe a base) (mine : i ∈ z.granted base)
    (found : z.heap.supply.slots[i]? = some slot) (out : ∀ r ∈ z.returns base, r.1 ≠ i)
    (le : slot.region.left ≤ words) (enough : words < patience) :
    Assures a base thread true (a.fill (.table i) patience words) z
      (Filled a base thread i z) := by
  induction patience generalizing z slot words with
  | zero => omega
  | succ patience ih =>
      unfold Arena.fill
      split
      · rename_i few
        exact .pure (.refl found (Nat.lt_of_le_of_lt le few))
      · rename_i many
        have least := safe.suits.least
        refine .bind (.claimAt mine (Nat.not_lt.1 many) (Nat.le_refl words) (.inr rfl)
          (fun unlocked => by cases unlocked)
          (fun z₁ slot₁ safe₁ rely₁ found₁ taken => ?_)
          fun z₁ slot₁ took safe₁ rely₁ found₁ taken _ _ => ?_)
        · -- Somebody else took words since they were counted.
          have fewer : slot₁.region.left < words := by
            rcases Region.takes_eq_none_iff.1 taken with h | h <;>
              simp only [Nat.min_def] at h <;> split at h <;> omega
          refine .bind (.freeBytes ⟨slot₁, found₁⟩ fun z₂ slot₂ safe₂ rely₂ found₂ => ?_)
          have measures := safe₂.suits.measures safe₂.order.sound (safe₂.order.placed found₂)
          refine .bind (.compute measures.room_div ?_)
          obtain ⟨slot₂', found₂', onward⟩ := rely₂.grows.slots found₁
          cases found₂.symm.trans found₂'
          have := onward.left_le
          have rely := rely₁.trans rely₂
          refine .mono (ih safe₂ (rely.grows.granted mine) found₂ ?_ (Nat.le_refl _) (by omega))
            (Filled.of_rely rely)
          rw [rely.kept.returns]
          exact out
        · obtain ⟨pos, fits, least, most⟩ := Region.takes_le taken
          obtain ⟨slot₁', found₁', onward⟩ := rely₁.grows.slots found
          cases found₁.symm.trans found₁'
          have all := onward.left_le
          obtain rfl : took = slot₁.region.left := by omega
          obtain rfl : words = slot₁.region.left := by omega
          refine .mono (record_assures safe₁ (rely₁.grows.granted mine) found₁ ?_)
            (Filled.of_rely rely₁)
          rw [rely₁.kept.returns]
          exact out

/-- Whoever fills a region among threads leaves it sealed. -/
theorem fillUp_assures (there : i ∈ z.granted base) (out : ∀ r ∈ z.returns base, r.1 ≠ i)
    (found : z.heap.supply.slots[i]? = some slot) :
    Assures a base thread true (a.fillUp (.table i)) z fun parts =>
      Filled a base thread i z parts.2 := by
  refine .bind (.look ⟨slot, found⟩ fun z₁ slot₁ safe₁ rely₁ found₁ => ?_)
  have p := safe₁.order.placed found₁
  refine .bind (.compute p.free_eq (.bind (.compute
    (safe₁.suits.measures safe₁.order.sound p).room_div ?_)))
  have out₁ : ∀ r ∈ z₁.returns base, r.1 ≠ i := by
    rw [rely₁.kept.returns]
    exact out
  refine .bind (.mono (fill_assures safe₁ (rely₁.grows.granted there) found₁ out₁ (Nat.le_refl _)
    (by omega)) fun {filler z₂} filled => ?_)
  obtain ⟨slot₂, found₂, few⟩ := filled.sealed
  refine .bind (.freeBytes ⟨slot₂, found₂⟩ fun z₃ slot₃ safe₃ rely₃ found₃ => ?_)
  cases found₃.symm.trans ((rely₃.still rfl).quiet found₂ (.inr few))
  have p₃ := safe₃.order.placed found₃
  refine .bind (.compute (safe₃.suits.measures safe₃.order.sound p₃).room_div (.bind (.require few ?_)))
  have done := (filled.of_rely rely₁).rely rely₃
  have bytes := safe₃.total i (done.kept.grows.granted there) _ found₃
  have parts := Taking.lent_add_plug z₃.heap.supply.geometry.wordBytes i z₃.book
  have counted := done.plugged
  rw [bytes_plug_eq] at parts
  have whole := p₃.load_add_room
  have := p₃.inside
  have := p₃.limit
  exact .bind (.compute (Word.add_eq_ok (by omega)) (.pure done))

end

end RegionHeap.Race
