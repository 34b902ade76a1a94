import RegionHeap.Proofs.Arena.Course
import RegionHeap.Proofs.Race.Basin

/-!
# Attempts of those who drain

An attempt without the lock takes a cut or finds that no more cut fits. The thread with the
lock turns to a fresh region only when nobody can take anything. Then it gives the old region
up and installs the next one alone, and the others see the region when its first cut has been
taken. If there is no next one, the arena has run dry.
-/

namespace RegionHeap

/-- A retirement leaves the queue and the count alone. -/
theorem Arena.Retiring.keeps {a : Arena} {filling counted : Bool} {waste : Nat}
    {ds : List Deed} {s s' : Store} (h : Retiring filling counted waste ds)
    (deeds : a.Deeds ds s s') :
    s'.heap.supply.free = s.heap.supply.free ∧ s'.registers.count = s.registers.count := by
  cases h with
  | idle =>
      cases deeds
      exact ⟨rfl, rfl⟩
  | gaveUp | kept | displaced =>
      cases deeds with
      | cons first rest =>
          cases rest
          cases first
          simp [accounted, emptied, Arena.gaveUp, handedBack]

namespace Race

/-- No region is drained twice. -/
theorem Drainage.regions_nodup (d : Drainage) : d.regions.Nodup := by
  have all := d.ready.order.nodup
  have some : (d.first.heap.supply.free ++ Place.position? d.first.registers.active).Nodup := by
    refine all.sublist ((List.Sublist.refl _).append ?_)
    exact (List.sublist_append_left _ _).trans (List.sublist_append_left _ _)
  exact ((List.reverse_perm _).append_right _).nodup_iff.2 some

namespace Basin

variable {α : Type} {d : Drainage} {z z' : Basin} {thread i : Nat} {slot : Slot} {s s' : Store}

/-- A lull lasts while nothing is done that lets anybody see a region. -/
theorem Lull.onto (lull : z.Lull d) (placed : s.heap.PlacedNoRivals) (onward : z.heap.Onward s.heap)
    (active : s.registers.active = z.registers.active ∨ s.registers.active = some .sentinel) :
    (z.onto s).Lull d := by
  obtain ⟨safe, quiet⟩ := lull
  have still (i : Nat) (seen : i ∈ z.seen) : (z.onto s).Spent d i :=
    (quiet i seen).onward onward
  refine ⟨⟨placed, safe.onward.trans onward, ?_, safe.seen, ?_, safe.taken⟩, still⟩
  · rcases active with same | sentinel
    · obtain ⟨place, here, sees⟩ := safe.active
      exact ⟨place, same.trans here, sees⟩
    · exact ⟨.sentinel, sentinel, nofun⟩
  · intro i seen
    obtain ⟨origin, slot, n, drawn⟩ := safe.drawn i seen
    have all := drawn.of_spent safe (quiet i seen)
    obtain ⟨slot', found, few⟩ := still i seen
    exact ⟨origin, slot', n, drawn.begun, found, drawn.taken, .inr ⟨few, all⟩⟩

/-- In a lull, the thread with the lock runs as if it were alone. -/
theorem Lull.runs {x : Program α} {value : α} {post : α → Basin → Prop}
    (lull : (z.onto s).Lull d) (hides : x.Hides) (run : x.run s = (.ok value, s'))
    (h : (z.onto s').Lull d → post value (z.onto s')) :
    d.discipline.Assures thread true x (z.onto s) post := by
  induction x generalizing s with
  | done result =>
      cases run
      exact h lull
  | fail fault => cases run
  | step st next ih =>
      intro z₁ safe rely said
      obtain rfl := lull.quiet.eq_of_taps (rely.taps rfl)
      rw [Program.run_step] at run
      cases performed : st.perform s with
      | error fault => simp [performed] at run
      | ok result =>
          rcases result with ⟨answer, s₁⟩
          simp only [performed] at run
          have alike : s.Alike (d.discipline.store (z.onto s) said) := ⟨rfl, rfl⟩
          obtain ⟨t, performed', same⟩ := Step.perform_alike alike performed
          obtain ⟨placed, onward, active⟩ := Step.perform_placedNoRivals safe.placed performed
          have lull' : (z.onto s₁).Lull d := lull.onto placed onward (active hides.1)
          refine ⟨answer, t, z.onto s₁, performed', ⟨same.registers, same.heap⟩, lull'.safe, ?_,
            ih answer lull' (hides.2 answer) run⟩
          exact ⟨⟨onward, List.suffix_refl _, fun _ => active hides.1⟩, fun _ _ => rfl, nofun⟩

/-- The same of a program that is known to end. -/
theorem Lull.ahead {x : Program α} {value : α} {post : α → Basin → Prop}
    (lull : (z.onto s).Lull d) (hides : x.Hides) (ends : x.Ends s (.ok value) s')
    (h : (z.onto s').Lull d → post value (z.onto s')) :
    d.discipline.Assures thread true x (z.onto s) post := by
  obtain ⟨said, run⟩ := ends s.transcript
  exact lull.runs hides run h

/-! ## Claims -/

/-- A claim of a thread on a place that it has seen active. -/
theorem claim_assures {locked : Bool} {place : Place} {post : Option Span → Basin → Prop}
    (sees : z.Sees place)
    (refused : ∀ z₁, Rely d thread locked z z₁ → (∀ i, place = .table i → z₁.Spent d i) →
      post none z₁)
    (served : ∀ z₁ i slot, Rely d thread locked z z₁ → Taps d z₁ (z₁.tap i slot d.words thread) →
      post (some { start := slot.region.top, words := d.words }) (z₁.tap i slot d.words thread)) :
    d.discipline.Assures thread locked (Program.claim place d.words d.words) z post := by
  intro z₁ safe rely said
  cases place with
  | sentinel =>
      have claimed : ({ region := z₁.heap.sentinel } : Slot).claim d.words d.words =
          .ok (none, { region := z₁.heap.sentinel }) := by
        rw [Slot.claim_of_rivals_eq_nil rfl,
          Region.claim_of_full safe.placed.full safe.placed.sentinelWord (Nat.le_refl _)]
        rfl
      have here : (d.discipline.store z₁ said).heap.find .sentinel =
          .ok { region := z₁.heap.sentinel } := rfl
      refine ⟨none, d.discipline.store z₁ said, z₁, ?_, ⟨rfl, rfl⟩, safe, .refl d thread locked z₁,
        refused z₁ rely nofun⟩
      rw [Step.perform_claim, here]
      simp only [Except.bind, claimed, Except.map]
      rw [Heap.put_found here]
  | table i =>
      have seen : i ∈ z₁.seen := rely.advances.seen.subset (sees i rfl)
      obtain ⟨origin, slot, n, drawn⟩ := safe.drawn i seen
      have found := drawn.found
      have here : (d.discipline.store z₁ said).heap.find (.table i) = .ok slot :=
        Heap.find_table_eq_ok_iff.2 found
      have noRivals :=
        Slot.not_outruns_of_rivals_eq_nil (safe.placed.noRivals i slot found) d.words d.words
      have whole := (safe.placed.placed found).whole safe.placed.sound
      have claimed := Slot.claim_of_not_outruns whole.toInBounds noRivals (Nat.le_refl _)
      by_cases room : d.words ≤ slot.region.left
      · rw [Region.takes_self d.pos room] at claimed
        have safe' := safe.tap found seen room thread
        have taps : Taps d z₁ (z₁.tap i slot d.words thread) := .tap thread seen found room
        refine ⟨some { start := slot.region.top, words := d.words },
          d.discipline.store (z₁.tap i slot d.words thread) said, z₁.tap i slot d.words thread, ?_,
          ⟨rfl, rfl⟩, safe', ⟨tap_advances found safe room, fun other ne => tap_mine_of_ne ne, ?_⟩,
          served z₁ i slot rely taps⟩
        · rw [Step.perform_claim, here]
          simp only [Except.bind, claimed, Except.map]
          rfl
        · exact fun _ => .single taps
      · rw [Region.takes_self_eq_none (.inr (Nat.not_le.1 room))] at claimed
        refine ⟨none, d.discipline.store z₁ said, z₁, ?_, ⟨rfl, rfl⟩, safe,
          .refl d thread locked z₁, refused z₁ rely ?_⟩
        · rw [Step.perform_claim, here]
          simp only [Except.bind, claimed, Except.map]
          rw [Heap.put_found here]
        · rintro _ ⟨⟩
          exact ⟨slot, found, Nat.not_le.1 room⟩

/-- A started arena allocates from a place that is seen then. -/
theorem current_assures {locked : Bool} {post : Place → Basin → Prop}
    (h : ∀ z₁ place, Rely d thread locked z z₁ → z₁.registers.active = some place →
      z₁.Sees place → post place z₁) :
    d.discipline.Assures thread locked d.arena.current z post := by
  refine .bind (.active fun z₁ safe rely => ?_)
  obtain ⟨place, here, sees⟩ := safe.active
  have active : (d.discipline.registers z₁).active = some place := here
  rw [active]
  exact .pure (h z₁ place rely here sees)

/-- An attempt takes a cut, or finds what was active then without room for one. -/
theorem attempt_assures {locked : Bool} {post : Option Span → Basin → Prop}
    (refused : ∀ z₁ z₂ place, Rely d thread locked z z₁ → z₁.registers.active = some place →
      Rely d thread locked z₁ z₂ → z₂.Safe d → (∀ i, place = .table i → z₂.Spent d i) →
        post none z₂)
    (served : ∀ z₁ z₂ i slot, Rely d thread locked z z₁ →
      Taps d z₁ (z₁.tap i slot d.words thread) →
        Rely d thread locked (z₁.tap i slot d.words thread) z₂ →
          post (some { start := slot.region.top, words := d.words }) z₂) :
    d.discipline.Assures thread locked (d.arena.claim d.words d.words) z post := by
  refine .bind (current_assures fun z₁ place rely₁ here sees => ?_)
  refine .bind (claim_assures sees (fun z₂ rely₂ spent => ?_) fun z₂ i slot rely₂ taps => ?_)
  · refine .bind (.tellSizes fun z₃ safe rely₃ => .pure ?_)
    exact refused z₁ z₃ place rely₁ here (rely₂.trans rely₃) safe
      fun i eq => (spent i eq).onward rely₃.advances.onward
  · refine .bind (.tellSizes fun z₃ safe rely₃ => .pure ?_)
    exact served z₂ z₃ i slot (rely₁.trans rely₂) taps rely₃

end Basin

end Race

end RegionHeap
