import RegionHeap.Proofs.Arena.Able

/-!
# How an arena acquires words and regions

Claims, requests for a region and adoptions come to an end in every store of an arena
that is ready. The outcome tells which deeds the arena did on the way.
-/

namespace RegionHeap

namespace Arena

open Program

/-- How a claim of between `min` and `desired` words can go. -/
inductive Claiming (min desired : Nat) : Except Fault (Option Span) → List Deed → Prop
  | fault (e : Fault) : Claiming min desired (.error e) []
  | refused : Claiming min desired (.ok none) []
  | outrun (i : Nat) : Claiming min desired (.ok none) [.outrun i]
  | served (i : Nat) (span : Span) (least : min ≤ span.words) (most : span.words ≤ desired) :
      Claiming min desired (.ok (some span)) [.claim i span]

/-- How the installation of a region for `words` words can go. -/
inductive Installing (words : Nat) : Except Fault (Option Nat) → List Deed → Prop
  | fault (e : Fault) : Installing words (.error e) []
  | refused : Installing words (.ok none) [.refuse words]
  | lost (e : Fault) (i : Nat) : Installing words (.error e) [.lose i words]
  | served (i start : Nat) :
      Installing words (.ok (some start)) [.install i { start, words }]

/-- How an adoption of the region at a place can go. -/
inductive Adopting : Place → Except Fault Unit → List Deed → Prop
  | fault (place : Place) (e : Fault) : Adopting place (.error e) []
  | noted (place : Place) (e : Fault) (bytes : Nat) : Adopting place (.error e) [.note bytes]
  | adopted (i : Nat) : Adopting (.table i) (.ok ()) [.adopt i]

/-- How a start can go. -/
inductive Starting (anew : Bool) : Except Fault Unit → List Deed → Prop
  | fault (e : Fault) : Starting anew (.error e) []
  | started : Starting anew (.ok ()) [.start anew]

theorem Claiming.adopts_nothing {min desired : Nat} {o : Except Fault (Option Span)}
    {ds : List Deed} (h : Claiming min desired o ds) (i : Nat) : Deed.adopt i ∉ ds := by
  cases h <;> simp

theorem Installing.adopts_nothing {words : Nat} {o : Except Fault (Option Nat)}
    {ds : List Deed} (h : Installing words o ds) (i : Nat) : Deed.adopt i ∉ ds := by
  cases h <;> simp

theorem Starting.adopts_nothing {anew : Bool} {o : Except Fault Unit} {ds : List Deed}
    (h : Starting anew o ds) (i : Nat) : Deed.adopt i ∉ ds := by
  cases h <;> simp

/-- Started in `s`, the program ends by deeds of the arena, to which `how` relates its
outcome. -/
def EndsBy {α : Type} (a : Arena) (x : Program α) (s : Store)
    (how : Except Fault α → List Deed → Prop) : Prop :=
  ∃ o s' ds, x.Ends s o s' ∧ a.Deeds ds s s' ∧ how o ds

/-- Started in `s`, the program ends without a fault by deeds of the arena, to which `how`
relates its outcome. -/
def SucceedsBy {α : Type} (a : Arena) (x : Program α) (s : Store)
    (how : Except Fault α → List Deed → Prop) : Prop :=
  ∃ v s' ds, x.Ends s (.ok v) s' ∧ a.Deeds ds s s' ∧ how (.ok v) ds

variable {a : Arena} {others : List Nat} {s : Store} {min desired words : Nat}

theorem SucceedsBy.endsBy {α : Type} {x : Program α} {how : Except Fault α → List Deed → Prop}
    (h : a.SucceedsBy x s how) : a.EndsBy x s how := by
  obtain ⟨v, s', ds, ends, deeds, here⟩ := h
  exact ⟨.ok v, s', ds, ends, deeds, here⟩

theorem EndsBy.mono {α : Type} {x : Program α} {how how' : Except Fault α → List Deed → Prop}
    (h : a.EndsBy x s how) (le : ∀ {o ds}, how o ds → how' o ds) : a.EndsBy x s how' := by
  obtain ⟨o, s', ds, ends, deeds, here⟩ := h
  exact ⟨o, s', ds, ends, deeds, le here⟩

/-- What a function makes of the value does not matter to the deeds. -/
theorem EndsBy.map {α β : Type} {x : Program α} {how : Except Fault α → List Deed → Prop}
    (h : a.EndsBy x s how) (f : α → β) :
    a.EndsBy (f <$> x) s fun o ds => ∃ o', o = o'.map f ∧ how o' ds := by
  obtain ⟨o, s', ds, ends, deeds, here⟩ := h
  exact ⟨o.map f, s', ds, ends.map f, deeds, o, rfl, here⟩

/-- The place of an arena at which a claim is made. -/
theorem Able.find_place (r : a.Able s) {place : Place}
    (reaches : ∀ i, place = .table i → i ∈ s.registers.regions) :
    ∃ slot, s.heap.find place = .ok slot := by
  cases place with
  | sentinel => exact ⟨_, rfl⟩
  | table i =>
      obtain ⟨slot, here, -⟩ := r.slot_of_mem (reaches i rfl)
      exact ⟨slot, Heap.find_table_eq_ok_iff.2 here⟩

/-- A claim whose sizes are in order is no fault, and takes its words at the place. -/
theorem claim_succeedsBy (r : a.Able s) (le : min ≤ desired) {place : Place}
    (reaches : ∀ i, place = .table i → i ∈ s.registers.regions) :
    a.SucceedsBy (Program.claim place min desired) s fun o ds =>
      Claiming min desired o ds ∧ ∀ i span, Deed.claim i span ∈ ds → place = .table i := by
  cases place with
  | sentinel =>
      have found : s.heap.find .sentinel = .ok { region := s.heap.sentinel } := rfl
      have claimed : ({ region := s.heap.sentinel } : Slot).claim min desired =
          .ok (none, { region := s.heap.sentinel }) := by
        rw [Slot.claim_of_rivals_eq_nil rfl,
          Region.claim_of_full r.allPlaced.full r.allPlaced.sentinelWord le]
        rfl
      exact ⟨_, s, [], Ends.claim found claimed, .nil s, .refused, nofun⟩
  | table i =>
      have mine := reaches i rfl
      obtain ⟨slot, here, -⟩ := r.slot_of_mem mine
      have found := Heap.find_table_eq_ok_iff.2 here
      have p := r.allPlaced.placed here
      by_cases outruns : slot.Outruns min desired
      · have claimed := Slot.claim_of_outruns (p.whole r.sound).toInBounds outruns
        exact ⟨_, _, [.outrun i], Ends.claimAt found claimed,
          (Does.outrun mine here outruns.1).single, .outrun i, by simp⟩
      · have claimed := Slot.claim_of_not_outruns (p.whole r.sound).toInBounds outruns le
        cases taken : slot.region.takes min desired with
        | none =>
            rw [taken] at claimed
            have ends := Ends.claimAt found claimed
            rw [Store.setSlot_self found] at ends
            exact ⟨_, s, [], ends, .nil s, .refused, nofun⟩
        | some n =>
            rw [taken] at claimed
            obtain ⟨pos, fits, least, most⟩ := Region.takes_le taken
            exact ⟨_, _, [.claim i { start := slot.region.top, words := n }],
              Ends.claimAt found claimed, (Does.claim mine here pos fits).single,
              .served i _ least most, by simp +contextual⟩

/-- A claim goes on without a fault exactly if its sizes are in order. -/
theorem claim_endsBy (min desired : Nat) (r : a.Able s) {place : Place}
    (reaches : ∀ i, place = .table i → i ∈ s.registers.regions) :
    a.EndsBy (Program.claim place min desired) s fun o ds =>
      Claiming min desired o ds ∧ ∀ i span, Deed.claim i span ∈ ds → place = .table i := by
  by_cases lt : desired < min
  · have fails : ∃ slot, s.heap.find place = .ok slot ∧
        slot.claim min desired = .error (.minExceedsDesired min desired) := by
      obtain ⟨slot, found⟩ := r.find_place reaches
      refine ⟨slot, found, ?_⟩
      cases place with
      | sentinel =>
          cases found
          rw [Slot.claim_of_rivals_eq_nil rfl, Region.claim_of_lt lt]
          rfl
      | table i =>
          have p := r.allPlaced.placed (Heap.find_table_eq_ok_iff.1 found)
          exact Slot.claim_of_lt (p.whole r.sound).toInBounds lt
    obtain ⟨slot, found, claimed⟩ := fails
    exact ⟨_, s, [], Ends.claim_error found claimed, .nil s, .fault _, nofun⟩
  · exact (claim_succeedsBy r (Nat.not_lt.1 lt) reaches).endsBy

theorem regions_of_active {place : Place} (active : s.registers.active = some place) :
    ∀ i, place = .table i → i ∈ s.registers.regions := by
  rintro i rfl
  exact mem_regions_of_active active

theorem regions_of_retained {place : Place} (retained : s.registers.retained = some place) :
    ∀ i, place = .table i → i ∈ s.registers.regions := by
  rintro i rfl
  exact mem_regions_of_retained retained

/-- An arena that was started claims at the place that is active. -/
theorem claimActive_ends {place : Place} (active : s.registers.active = some place)
    {o : Except Fault (Option Span)} {s' : Store}
    (ends : (Program.claim place min desired).Ends s o s') :
    (a.claim min desired).Ends s o s' := by
  refine (Ends.current active).bind ?_
  cases o with
  | error e => exact ends.bind_error _
  | ok span =>
      refine ends.bind ?_
      cases span with
      | none => exact (Ends.tellSizes a _ _ _ _ s').bind (Ends.pure _ s')
      | some span => exact (Ends.tellSizes a _ _ _ _ s').bind (Ends.pure _ s')

theorem claimActive_endsBy (r : a.Able s) (min desired : Nat) :
    a.EndsBy (a.claim min desired) s (Claiming min desired) := by
  cases active : s.registers.active with
  | none => exact ⟨_, s, [], (Ends.current_none active).bind_error _, .nil s, .fault _⟩
  | some place =>
      obtain ⟨o, s', ds, ends, deeds, how, -⟩ :=
        claim_endsBy min desired r (regions_of_active active)
      exact ⟨o, s', ds, claimActive_ends active ends, deeds, how⟩

theorem claimActive_succeedsBy (r : a.Able s) (busy : s.registers.active ≠ none)
    (le : min ≤ desired) : a.SucceedsBy (a.claim min desired) s (Claiming min desired) := by
  obtain ⟨place, active⟩ := Option.ne_none_iff_exists'.1 busy
  obtain ⟨v, s', ds, ends, deeds, how, -⟩ := claim_succeedsBy r le (regions_of_active active)
  exact ⟨v, s', ds, claimActive_ends active ends, deeds, how⟩

theorem allocate_endsBy (r : a.Able s) (words : Nat) :
    a.EndsBy (a.allocate words) s fun o ds =>
      ∃ o', o = o'.map (Option.map Span.start) ∧ Claiming words words o' ds := by
  unfold Arena.allocate
  cases active : s.registers.active with
  | none =>
      exact ⟨_, s, [], (Ends.current_none active).bind_error _, .nil s, _, rfl, .fault _⟩
  | some place =>
      have current := Ends.current (a := a) active
      obtain ⟨o, s', ds, ends, deeds, how, -⟩ :=
        claim_endsBy words words r (regions_of_active active)
      exact ⟨_, s', ds, current.bind (ends.map (Option.map Span.start)), deeds, o, rfl, how⟩

theorem allocate_succeedsBy (r : a.Able s) (busy : s.registers.active ≠ none)
    (words : Nat) :
    a.SucceedsBy (a.allocate words) s fun o ds =>
      ∃ o', o = o'.map (Option.map Span.start) ∧ Claiming words words o' ds := by
  obtain ⟨place, active⟩ := Option.ne_none_iff_exists'.1 busy
  obtain ⟨v, s', ds, ends, deeds, how, -⟩ :=
    claim_succeedsBy r (Nat.le_refl words) (regions_of_active active)
  exact ⟨_, s', ds, (Ends.current active).bind (ends.map (Option.map Span.start)), deeds,
    .ok v, rfl, how⟩

/-- An arena that keeps a region claims of that region. -/
theorem claimRetained_ends {place : Place} (retained : s.registers.retained = some place)
    {o : Except Fault (Option Span)} {s' : Store}
    (ends : (Program.claim place min desired).Ends s o s') :
    (a.claimRetained min desired).Ends s o s' := by
  have loaded := Ends.retained s
  rw [retained] at loaded
  refine loaded.bind ?_
  cases o with
  | error e => exact ends.bind_error _
  | ok span =>
      refine ends.bind ?_
      cases span with
      | none => exact Ends.pure _ s'
      | some span => exact (Ends.tellSizes a _ _ _ _ s').bind (Ends.pure _ s')

/-- Where no region is kept, none can be claimed of. -/
theorem claimRetained_refused (min desired : Nat) (retained : s.registers.retained = none) :
    a.SucceedsBy (a.claimRetained min desired) s (Claiming min desired) := by
  have loaded := Ends.retained s
  rw [retained] at loaded
  exact ⟨none, s, [], loaded.bind (Ends.pure none s), .nil s, .refused⟩

theorem claimRetained_endsBy (r : a.Able s) (min desired : Nat) :
    a.EndsBy (a.claimRetained min desired) s (Claiming min desired) := by
  cases retained : s.registers.retained with
  | none => exact (claimRetained_refused min desired retained).endsBy
  | some place =>
      obtain ⟨o, s', ds, ends, deeds, how, -⟩ :=
        claim_endsBy min desired r (regions_of_retained retained)
      exact ⟨o, s', ds, claimRetained_ends retained ends, deeds, how⟩

theorem claimRetained_succeedsBy (r : a.Able s) (le : min ≤ desired) :
    a.SucceedsBy (a.claimRetained min desired) s (Claiming min desired) := by
  cases retained : s.registers.retained with
  | none => exact claimRetained_refused min desired retained
  | some place =>
      obtain ⟨v, s', ds, ends, deeds, how, -⟩ :=
        claim_succeedsBy r le (regions_of_retained retained)
      exact ⟨v, s', ds, claimRetained_ends retained ends, deeds, how⟩

/-! ## Regions -/

theorem onInstall_ends {place : Place} {slot : Slot} {bytes : Nat}
    (found : s.heap.find place = .ok slot) (used : slot.region.used = .ok bytes) :
    (a.onInstall place).Ends s (.ok ()) (a.noted bytes s) := by
  unfold onInstall noted noting
  cases a.kind with
  | plain => exact Ends.pure () s
  | mutator => exact Ends.pure () s
  | collector purpose => exact (Ends.usedBytes found used).bind (Ends.perform fun _ => rfl)

/-- A region that is not empty is published. -/
theorem publish_ends {i : Nat} {slot : Slot} (found : s.heap.find (.table i) = .ok slot)
    (full : slot.region.isEmpty = .ok false) :
    (a.publish (.table i)).Ends s (.ok ()) (published i s) := by
  refine (Ends.tell a _ s).bind ((Ends.look found).bind ((Ends.compute full s).bind ?_))
  refine (Ends.require ⟨nofun, rfl⟩ _ s).bind ((Ends.activate _ s).bind ?_)
  have counted : (perform .bumpCount).Ends { s with registers.active := some (.table i) }
      (.ok ()) (published i s) := Ends.perform fun _ => rfl
  exact counted.bind (Ends.tell a _ _)

/-- The sentinel and empty regions are not published. -/
theorem publish_fails {place : Place} {slot : Slot} {empty : Bool}
    (found : s.heap.find place = .ok slot) (tested : slot.region.isEmpty = .ok empty)
    (fails : ¬ (place ≠ .sentinel ∧ empty = false)) :
    (a.publish place).Ends s (.error (.emptyPublication a.name)) s :=
  (Ends.tell a .publishing s).bind ((Ends.look found).bind ((Ends.compute tested s).bind
    ((Ends.require_not fails _ s).bind_error _)))

section
variable {i : Nat} {slot : Slot} (here : s.heap.supply.slots[i]? = some slot)
include here

theorem find_prepared (words : Nat) : (a.prepared i words slot s).heap.find (.table i) =
    .ok { slot with region := slot.region.unmark } :=
  Store.find_setSlot (s := a.requested words s) _ (Heap.find_table_eq_ok_iff.2 here)

variable (allPlaced : s.heap.AllPlaced)
include allPlaced

/-- A granted region passes for empty. -/
theorem unmark_blank (empty : slot.region.load = 0) :
    slot.region.unmark.isEmpty = .ok true ∧ slot.region.unmark.used = .ok 0 := by
  have q := (allPlaced.placed here).unmark
  constructor
  · rw [q.isEmpty_eq]
    exact congrArg (fun n => Except.ok (n == 0)) empty
  · rw [q.used_eq]
    exact congrArg Except.ok empty

/-- Nobody outruns the first claim on a granted region, and then it is not empty any more. -/
theorem first_claim (alone : ¬ slot.Outruns words words) (pos : 0 < words)
    (fits : words ≤ slot.region.left) :
    ({ slot with region := slot.region.unmark } : Slot).claim words words =
        .ok (some { start := slot.region.top, words },
          { slot with region := slot.region.unmark.took words }) ∧
      (slot.region.unmark.took words).isEmpty = .ok false := by
  have q : ({ slot with region := slot.region.unmark } : Slot).region.Placed
      s.heap.supply.geometry i := (allPlaced.placed here).unmark
  constructor
  · have claimed := Slot.claim_of_not_outruns (q.whole allPlaced.sound).toInBounds alone
      (Nat.le_refl words)
    have taken : slot.region.unmark.takes words words = some words :=
      Region.takes_self pos fits
    simp only [taken] at claimed
    exact claimed
  · have more := Nat.mul_pos pos allPlaced.sound.word
    rw [(q.took fits).isEmpty_eq, q.load_took]
    simp [Nat.ne_of_gt more]

variable (empty : slot.region.load = 0)
include empty

/-- A granted region is prepared before words of it are claimed. -/
theorem installGranted_ends {o : Except Fault Nat} {s' : Store}
    (h : Program.Ends (do
      match ← Program.claim (.table i) words words with
      | none => fail (.cannotHold a.name slot.region.index words)
      | some span => do
          a.publish (.table i)
          a.tell .requestServed
          return span.start) (a.prepared i words slot s) o s') :
    (a.installGranted (.table i) words).Ends (a.requested words s) o s' := by
  have found : (a.requested words s).heap.find (.table i) = .ok slot :=
    Heap.find_table_eq_ok_iff.2 here
  have found₁ := Store.find_setSlot { slot with region := slot.region.unmark } found
  obtain ⟨isEmpty, used⟩ := unmark_blank here allPlaced empty
  refine (Ends.unmarkAt found).bind ((Ends.look found₁).bind ((Ends.compute isEmpty _).bind ?_))
  refine (Ends.require rfl _ _).bind ((onInstall_ends found₁ used).bind ?_)
  exact h

variable (alone : ¬ slot.Outruns words words)
include alone

/-- No words, no region: then the granted region is left. -/
theorem installGranted_lost (zero : words = 0) :
    (a.installGranted (.table i) words).Ends (a.requested words s)
      (.error (.cannotHold a.name slot.region.index words)) (a.prepared i words slot s) := by
  have q : ({ slot with region := slot.region.unmark } : Slot).region.Placed
      s.heap.supply.geometry i := (allPlaced.placed here).unmark
  have found₂ := find_prepared (a := a) here words
  have claimed := Slot.claim_of_not_outruns (q.whole allPlaced.sound).toInBounds alone
      (Nat.le_refl words)
  rw [Region.takes_self_eq_none (.inl zero)] at claimed
  have ends := Ends.claimAt found₂ claimed
  rw [Store.setSlot_self found₂] at ends
  exact installGranted_ends here allPlaced empty (ends.bind (Ends.fail _ _))

/-- The first words are claimed and the region is published. -/
theorem installGranted_served (pos : 0 < words) (fits : words ≤ slot.region.left) :
    (a.installGranted (.table i) words).Ends (a.requested words s) (.ok slot.region.top)
      (published i ((a.prepared i words slot s).setSlot i
        { slot with region := slot.region.unmark.took words })) := by
  have found₂ := find_prepared (a := a) here words
  obtain ⟨claimed, full⟩ := first_claim here allPlaced alone pos fits
  have ends := Ends.claimAt found₂ claimed
  have found₃ := Store.find_setSlot
    { slot with region := slot.region.unmark.took words } found₂
  refine installGranted_ends here allPlaced empty (ends.bind ?_)
  exact (publish_ends found₃ full).bind ((Ends.tell a _ _).bind (Ends.pure _ _))

end

/-- A region whose used bytes cannot be told is not published. -/
theorem onInstall_publish_fails {place : Place} {slot : Slot} {e : Fault}
    (found : s.heap.find place = .ok slot) (used : slot.region.used = .error e) :
    Program.Ends (do a.onInstall place; a.publish place) s (.error e) s := by
  unfold onInstall
  have untested : slot.region.isEmpty = .error e := by
    simp [Region.isEmpty, used, Bind.bind, Except.bind]
  have fails : (a.publish place).Ends s (.error e) s :=
    (Ends.tell a .publishing s).bind ((Ends.look found).bind
      ((Ends.compute untested s).bind_error _))
  cases a.kind with
  | plain | mutator => exact (Ends.pure () s).bind fails
  | collector purpose => exact Ends.bind_error _ ((Ends.usedBytes found used).bind_error _)

/-- A request that is refused is no fault. -/
theorem install_unserved (active : s.registers.active = some .sentinel)
    (refused : s.heap.supply.grant words = none) :
    (a.install words).Ends s (.ok none) (a.requested words s) := by
  have asked : (perform (.request words a.purpose a.node)).Ends s
      (.ok (s.heap.supply.grant words)) (a.requested words s) := Ends.perform fun _ => rfl
  rw [refused] at asked
  exact (Ends.current active).bind ((Ends.require rfl _ s).bind ((Ends.tell a _ s).bind
    (asked.bind ((Ends.tell a _ _).bind (Ends.pure none _)))))

theorem install_refused (active : s.registers.active = some .sentinel)
    (refused : s.heap.supply.grant words = none) :
    a.SucceedsBy (a.install words) s (Installing words) :=
  ⟨none, _, [.refuse words], install_unserved active refused,
    (Does.refuse active refused).single, .refused⟩

/-- What is granted over the sentinel is installed. -/
theorem install_granted (active : s.registers.active = some .sentinel) {i : Nat}
    (granted : s.heap.supply.grant words = some i) {o : Except Fault Nat} {s' : Store}
    (ends : (a.installGranted (.table i) words).Ends (a.requested words s) o s') :
    (a.install words).Ends s (o.map some) s' := by
  have asked : (perform (.request words a.purpose a.node)).Ends s
      (.ok (s.heap.supply.grant words)) (a.requested words s) := Ends.perform fun _ => rfl
  rw [granted] at asked
  have installed := ends.map some
  exact (Ends.current active).bind ((Ends.require rfl _ s).bind ((Ends.tell a _ s).bind
    (asked.bind installed)))

/-- The words are taken from the bottom of the granted region. -/
theorem install_served (r : a.Ready others s) (active : s.registers.active = some .sentinel)
    (pos : 0 < words) {i : Nat} (granted : s.heap.supply.grant words = some i) :
    ∃ slot s', s.heap.supply.slots[i]? = some slot ∧ slot.region.load = 0 ∧
      (a.install words).Ends s (.ok (some slot.region.top)) s' ∧
        a.Does (.install i { start := slot.region.top, words }) s s' := by
  obtain ⟨slot, here, empty, noRivals, fits⟩ := r.slot_of_grant granted
  have alone := Slot.not_outruns_of_rivals_eq_nil noRivals words words
  have served := installGranted_served (a := a) here r.order.allPlaced empty alone pos fits
  exact ⟨slot, _, here, empty, install_granted active granted served,
    .install active granted here pos fits⟩

/-- A region for some words is requested over the sentinel without a fault. -/
theorem install_succeedsBy (r : a.Ready others s) (active : s.registers.active = some .sentinel)
    (pos : 0 < words) : a.SucceedsBy (a.install words) s (Installing words) := by
  cases granted : s.heap.supply.grant words with
  | none => exact install_refused active granted
  | some i =>
      obtain ⟨slot, s', -, -, ends, does⟩ := install_served r active pos granted
      exact ⟨_, s', _, ends, does.single, .served i slot.region.top⟩

/-- A region is requested over the sentinel only, and what is granted is installed. -/
theorem install_endsBy (r : a.Ready others s) (words : Nat) :
    a.EndsBy (a.install words) s (Installing words) := by
  cases active : s.registers.active with
  | none => exact ⟨_, s, [], (Ends.current_none active).bind_error _, .nil s, .fault _⟩
  | some place =>
      cases place with
      | table i =>
          have real : ¬ Place.table i = Place.sentinel := nofun
          exact ⟨_, s, [], (Ends.current active).bind ((Ends.require_not real _ s).bind_error _),
            .nil s, .fault _⟩
      | sentinel =>
          rcases Nat.eq_zero_or_pos words with zero | pos
          · cases granted : s.heap.supply.grant words with
            | none => exact (install_refused active granted).endsBy
            | some i =>
                obtain ⟨slot, here, empty, noRivals, -⟩ := r.slot_of_grant granted
                have alone := Slot.not_outruns_of_rivals_eq_nil noRivals words words
                have lost := installGranted_lost (a := a) here r.order.allPlaced empty alone zero
                exact ⟨_, _, [.lose i words], install_granted active granted lost,
                  (Does.lose active granted here zero).single, .lost _ i⟩
          · exact (install_succeedsBy r active pos).endsBy

/-- An arena that has just started goes on to the adoption. -/
theorem adopt_ends {place : Place} (active : s.registers.active = some .sentinel)
    (zero : s.registers.count = 0) {o : Except Fault Unit} {s' : Store}
    (ends : Program.Ends (do a.onInstall place; a.publish place; a.tell .adopted) s o s') :
    (a.adopt place).Ends s o s' := by
  have ready := Ends.require (p := Place.sentinel = .sentinel ∧ s.registers.count = 0)
    ⟨rfl, zero⟩ (.notFresh a.name) s
  exact (Ends.tell a .adopting s).bind ((Ends.current active).bind ((Ends.count s).bind
    (ready.bind ends)))

/-- An arena that has just started adopts any region of the table that is not empty. -/
theorem adopt_succeedsBy (r : a.Able s) (active : s.registers.active = some .sentinel)
    (zero : s.registers.count = 0) {i : Nat} {slot : Slot}
    (here : s.heap.supply.slots[i]? = some slot) (full : slot.region.load ≠ 0) :
    ∃ s', (a.adopt (.table i)).Ends s (.ok ()) s' ∧ a.Does (.adopt i) s s' := by
  have p := r.allPlaced.placed here
  have found := Heap.find_table_eq_ok_iff.2 here
  have notEmpty : slot.region.isEmpty = .ok false := by
    rw [p.isEmpty_eq]
    simpa using full
  have noted := onInstall_ends (a := a) found p.used_eq
  have published := publish_ends (a := a) (s := a.noted slot.region.load s) found notEmpty
  exact ⟨_, adopt_ends active zero (noted.bind (published.bind (Ends.tell a _ _))),
    .adopt active zero here full⟩

/-- An adoption that fails changes nothing, unless the bytes in use at the place were noted
before it turned out that the sentinel or an empty region was to be adopted. -/
theorem adopt_cases (r : a.Able s) {place : Place} {slot : Slot}
    (found : s.heap.find place = .ok slot) :
    (∃ e, (a.adopt place).Ends s (.error e) s) ∨
      (∃ bytes, s.registers.active = some .sentinel ∧ slot.region.used = .ok bytes ∧
        (place ≠ .sentinel → bytes = 0) ∧
          (a.adopt place).Ends s (.error (.emptyPublication a.name)) (a.noted bytes s)) ∨
      ∃ i s', place = .table i ∧ (a.adopt place).Ends s (.ok ()) s' ∧ a.Does (.adopt i) s s' := by
  have told := Ends.tell a .adopting s
  cases active : s.registers.active with
  | none => exact .inl ⟨_, told.bind ((Ends.current_none active).bind_error _)⟩
  | some current =>
      by_cases fresh : current = .sentinel ∧ s.registers.count = 0
      · obtain ⟨rfl, zero⟩ := fresh
        cases used : slot.region.used with
        | error e =>
            have fails := onInstall_publish_fails (a := a) found used
            have fails' : Program.Ends (do a.onInstall place; a.publish place; a.tell .adopted) s
                (.error e) s := by
              rw [← bind_assoc]
              exact fails.bind_error _
            exact .inl ⟨_, adopt_ends active zero fails'⟩
        | ok bytes =>
            have noted := onInstall_ends (a := a) found used
            have tested : slot.region.isEmpty = .ok (bytes == 0) := by
              simp [Region.isEmpty, used, Bind.bind, Except.bind, Pure.pure, Except.pure]
            by_cases fit : place ≠ .sentinel ∧ (bytes == 0) = false
            · obtain ⟨i, rfl⟩ : ∃ i, place = .table i := by
                cases place with
                | sentinel => exact absurd rfl fit.1
                | table i => exact ⟨i, rfl⟩
              have here := Heap.find_table_eq_ok_iff.1 found
              rw [fit.2] at tested
              have full : slot.region.load ≠ 0 := by
                simpa [(r.allPlaced.placed here).isEmpty_eq] using tested
              obtain ⟨s', ends, deed⟩ := adopt_succeedsBy r active zero here full
              exact .inr (.inr ⟨i, s', rfl, ends, deed⟩)
            · have fails := publish_fails (a := a) (s := a.noted bytes s) found tested fit
              refine .inr (.inl ⟨bytes, rfl, rfl, fun real => ?_,
                adopt_ends active zero (noted.bind (fails.bind_error _))⟩)
              simpa [real] using fit
      · exact .inl ⟨_, told.bind ((Ends.current active).bind ((Ends.count s).bind
          ((Ends.require_not fresh _ s).bind_error _)))⟩

/-- A region that there is can be adopted by an arena that has just started. -/
theorem adopt_endsBy (r : a.Able s) {place : Place} {slot : Slot}
    (found : s.heap.find place = .ok slot) : a.EndsBy (a.adopt place) s (Adopting place) := by
  rcases adopt_cases r found with
    ⟨e, ends⟩ | ⟨bytes, active, -, -, ends⟩ | ⟨i, s', rfl, ends, deed⟩
  · exact ⟨_, s, [], ends, .nil s, .fault _ e⟩
  · exact ⟨_, _, [.note bytes], ends, (Does.note active).single, .noted _ _ bytes⟩
  · exact ⟨_, s', [.adopt i], ends, deed.single, .adopted i⟩

/-! ## Starts -/

/-- An arena that is idle comes to hold the sentinel. -/
theorem startPlain_ends (idle : s.registers.active = none) :
    a.startPlain.Ends s (.ok ()) { s with registers := { s.registers with
      active := some .sentinel
      count := 0 } } := by
  have loaded := Ends.active s
  rw [idle] at loaded
  exact (Ends.tell a .starting s).bind (loaded.bind ((Ends.activate _ s).bind
    (Ends.bind (Ends.perform fun _ => rfl) (Ends.tell a _ _))))

theorem startPlain_fails {place : Place} (active : s.registers.active = some place) :
    a.startPlain.Ends s (.error (.alreadyStarted a.name)) s := by
  have loaded := Ends.active s
  rw [active] at loaded
  exact (Ends.tell a .starting s).bind (loaded.bind (Ends.fail _ s))

theorem startPlain_succeedsBy (idle : s.registers.active = none) :
    a.SucceedsBy a.startPlain s (Starting false) :=
  ⟨(), _, [.start false], startPlain_ends idle, (Does.start false idle nofun).single, .started⟩

theorem startPlain_endsBy : a.EndsBy a.startPlain s (Starting false) := by
  cases active : s.registers.active with
  | some place => exact ⟨_, s, [], startPlain_fails active, .nil s, .fault _⟩
  | none => exact (startPlain_succeedsBy active).endsBy

/-- An arena that is idle and keeps nothing starts anew. -/
theorem startRetaining_succeedsBy (idle : s.registers.active = none)
    (none : s.registers.retained = none) : a.SucceedsBy a.startRetaining s (Starting true) := by
  have kept := Ends.require none (.stillRetaining a.name) s
  refine ⟨(), _, [.start true], ?_, (Does.start true idle fun _ => none).single, .started⟩
  exact (Ends.retained s).bind (kept.bind ((startPlain_ends idle).bind
    (Ends.perform fun _ => rfl)))

theorem startRetaining_endsBy : a.EndsBy a.startRetaining s (Starting true) := by
  have loaded := Ends.retained s
  by_cases none : s.registers.retained = none
  · cases active : s.registers.active with
    | some place =>
        have kept := Ends.require none (.stillRetaining a.name) s
        exact ⟨_, s, [], loaded.bind (kept.bind ((startPlain_fails active).bind_error _)),
          .nil s, .fault _⟩
    | none => exact (startRetaining_succeedsBy active none).endsBy
  · exact ⟨_, s, [], loaded.bind ((Ends.require_not none _ s).bind_error _), .nil s, .fault _⟩

end Arena

end RegionHeap
