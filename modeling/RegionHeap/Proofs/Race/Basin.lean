import RegionHeap.Proofs.Race.Discipline
import RegionHeap.Proofs.Race.Steps

/-!
# Draining an arena

Threads claim so many words at a time until they are refused under the lock. From every region
that has been active meanwhile they take one cut after the other, each of that many words,
from where the cursor stood at first. A region is spent if no more cut fits. No region stops
being active before it is spent, and nobody takes anything from a spent one.

So while nobody can take anything, the thread with the lock is as good as alone.
-/

namespace RegionHeap

/-- The span of `words` words that is number `k` from the cursor on. -/
def Region.cut (r : Region) (words k : Nat) : Span :=
  { start := r.top + k * (words * r.wordBytes), words }

/-- The first `n` spans of `words` words from the cursor on. -/
def Region.cuts (r : Region) (words n : Nat) : List Span :=
  (List.range n).map (r.cut words)

theorem Region.cuts_succ (r : Region) (words n : Nat) :
    r.cuts words (n + 1) = r.cuts words n ++ [r.cut words n] := by
  simp [cuts, List.range_succ]

namespace Race

namespace Taking

/-- The spans taken from region `i`. -/
def spansIn (i : Nat) (book : List Taking) : List Span :=
  (book.filter fun t => t.region = i).map span

variable {i : Nat} {book : List Taking}

theorem spansIn_cons_self {span : Span} {user : Option Nat} :
    spansIn i ({ region := i, span, user } :: book) = span :: spansIn i book := by
  simp [spansIn]

theorem spansIn_cons_of_ne {t : Taking} (ne : t.region ≠ i) :
    spansIn i (t :: book) = spansIn i book := by
  simp [spansIn, ne]

theorem mem_spansIn {s : Span} : s ∈ spansIn i book ↔ ∃ t ∈ book, t.region = i ∧ t.span = s := by
  simp [spansIn, and_assoc]

end Taking

/-- An arena from which threads claim so many words at a time, from this store on, while
others hold the regions listed. -/
structure Drainage where
  arena : Arena
  words : Nat
  first : Store
  others : List Nat
  ready : arena.Ready others first
  noRivals : first.heap.NoRivals
  busy : first.registers.active ≠ none
  pos : 0 < words
  fits : words ≤ first.heap.supply.geometry.regionWords

/-- The regions to be drained, the last one first. -/
def Drainage.regions (d : Drainage) : List Nat :=
  d.first.heap.supply.free.reverse ++ Place.position? d.first.registers.active

/-- A scene with the regions that have been active in the race, the latest first. -/
structure Basin extends Scene where
  seen : List Nat

namespace Basin

/-- The basin with the registers and the heap of a store. -/
def onto (z : Basin) (s : Store) : Basin :=
  { z with registers := s.registers, heap := s.heap }

/-- The basin after a thread has taken words from the cursor of region `i`. -/
def tap (z : Basin) (i : Nat) (slot : Slot) (words thread : Nat) : Basin :=
  { z.toScene.take i slot words (some thread) with seen := z.seen }

/-- A place that threads may have seen active. -/
def Sees (z : Basin) (place : Place) : Prop :=
  ∀ i, place = .table i → i ∈ z.seen

/-- No more cut fits into region `i`. -/
def Spent (d : Drainage) (z : Basin) (i : Nat) : Prop :=
  ∃ slot, z.heap.supply.slots[i]? = some slot ∧ slot.region.left < d.words

/-- Nobody can take anything. -/
def Quiet (d : Drainage) (z : Basin) : Prop :=
  ∀ i ∈ z.seen, z.Spent d i

/-- What was taken from a region are the first `n` cuts, and its cursor stands behind them
unless the region is spent. -/
structure Drawn (d : Drainage) (z : Basin) (i : Nat) (origin slot : Slot) (n : Nat) : Prop where
  begun : d.first.heap.supply.slots[i]? = some origin
  found : z.heap.supply.slots[i]? = some slot
  taken : Taking.spansIn i z.book = (origin.region.cuts d.words n).reverse
  cursor : slot.region.top = origin.region.top + n * (d.words * origin.region.wordBytes) ∨
    slot.region.left < d.words ∧ n = origin.region.left / d.words

/-- The basin is as it should be at every moment. -/
structure Safe (d : Drainage) (z : Basin) : Prop where
  placed : z.heap.PlacedNoRivals
  onward : d.first.heap.Onward z.heap
  active : ∃ place, z.registers.active = some place ∧ z.Sees place
  seen : z.seen <:+ d.regions
  drawn : ∀ i ∈ z.seen, ∃ origin slot n, z.Drawn d i origin slot n
  taken : ∀ t ∈ z.book, t.region ∈ z.seen ∧ t.user ≠ none

/-- For the moment nobody can take anything. -/
structure Lull (d : Drainage) (z : Basin) : Prop where
  safe : z.Safe d
  quiet : z.Quiet d

/-- What every step of every thread does at most. Nothing becomes active that has been seen
before, but the sentinel. -/
structure OnlyAdvances (z z' : Basin) : Prop where
  onward : z.heap.Onward z'.heap
  seen : z.seen <:+ z'.seen
  active : z'.seen = z.seen →
    z'.registers.active = z.registers.active ∨ z'.registers.active = some .sentinel

/-- A thread has taken a cut from a region that was seen. -/
inductive Taps (d : Drainage) (z : Basin) : Basin → Prop
  | tap {i : Nat} {slot : Slot} (thread : Nat) (seen : i ∈ z.seen)
      (found : z.heap.supply.slots[i]? = some slot) (room : d.words ≤ slot.region.left) :
      Taps d z (z.tap i slot d.words thread)

/-- What a thread can rely on while the others take steps. -/
structure Rely (d : Drainage) (thread : Nat) (locked : Bool) (z z' : Basin) : Prop where
  advances : OnlyAdvances z z'
  mine : z'.mine thread = z.mine thread
  taps : locked = true → Relation.ReflTransGen (Taps d) z z'

/-- What the other threads can rely on while this one takes a step. -/
structure Guar (d : Drainage) (thread : Nat) (locked : Bool) (z z' : Basin) : Prop where
  advances : OnlyAdvances z z'
  others : ∀ other, other ≠ thread → z'.mine other = z.mine other
  taps : locked = false → Relation.ReflTransGen (Taps d) z z'

/-- The basin while nobody has the lock: every region that is not active any more is spent.
The regions seen are those that were granted, each of which was counted, but for `lag`. -/
structure Rest (d : Drainage) (lag : Nat) (z : Basin) : Prop where
  ready : d.arena.Ready d.others (z.store [])
  spent : ∀ i ∈ z.seen, z.registers.active ≠ some (.table i) → z.Spent d i
  progress : ∃ granted, d.first.heap.supply.free = granted ++ z.heap.supply.free ∧
    z.seen = granted.reverse ++ Place.position? d.first.registers.active ∧
      Word.wrapSucc32^[lag] z.registers.count =
        Word.wrapSucc32^[granted.length] d.first.registers.count

/-- All regions were seen, none has room for a cut, and none is active. -/
structure AllSpent (d : Drainage) (z : Basin) : Prop where
  all : z.seen = d.regions
  quiet : z.Quiet d
  active : z.registers.active = some .sentinel

variable {d : Drainage} {z z' z'' : Basin} {i words thread : Nat} {slot : Slot}

namespace OnlyAdvances

theorem refl (z : Basin) : OnlyAdvances z z :=
  ⟨.refl _, List.suffix_refl _, fun _ => .inl rfl⟩

theorem trans (first : OnlyAdvances z z') (second : OnlyAdvances z' z'') : OnlyAdvances z z'' where
  onward := first.onward.trans second.onward
  seen := first.seen.trans second.seen
  active := by
    intro same
    have same₁ : z'.seen = z.seen :=
      (first.seen.eq_of_length_le (same ▸ second.seen.length_le)).symm
    have same₂ : z''.seen = z'.seen := same.trans same₁.symm
    rcases second.active same₂ with still | sentinel
    · rw [still]
      exact first.active same₁
    · exact .inr sentinel

end OnlyAdvances

/-! ## Cuts -/

/-- A spent region was cut up as far as possible. -/
theorem Drawn.of_spent {origin : Slot} {n : Nat} (drawn : z.Drawn d i origin slot n)
    (safe : z.Safe d) (spent : z.Spent d i) : n = origin.region.left / d.words := by
  rcases drawn.cursor with top | ⟨-, eq⟩
  · obtain ⟨same, here, few⟩ := spent
    cases here.symm.trans drawn.found
    have p := safe.placed.placed drawn.found
    have q := d.ready.order.placed drawn.begun
    obtain ⟨slot', found', onward⟩ := safe.onward.slots drawn.begun
    cases found'.symm.trans drawn.found
    -- The words left at first are those cut off and those left now.
    have words : origin.region.left = slot.region.left + n * d.words := by
      apply Nat.eq_of_mul_eq_mul_right d.ready.sound.word
      have before := q.left_mul
      have after := p.left_mul
      have below := p.le_limit
      rw [safe.onward.geometry] at after
      rw [q.word, ← Nat.mul_assoc] at top
      rw [Nat.add_mul, before, after]
      unfold Region.room
      rw [onward.limit, top] at *
      omega
    rw [words, Nat.add_mul_div_right _ _ d.pos, Nat.div_eq_of_lt few, Nat.zero_add]
  · exact eq

/-- The words taken from a region that is not spent are the next cut. -/
theorem Drawn.next {origin : Slot} {n : Nat} (drawn : z.Drawn d i origin slot n)
    (safe : z.Safe d) (room : d.words ≤ slot.region.left) :
    (origin.region.cut d.words n) = { start := slot.region.top, words := d.words } ∧
      (slot.region.took d.words).top =
        origin.region.top + (n + 1) * (d.words * origin.region.wordBytes) := by
  have top : slot.region.top = origin.region.top + n * (d.words * origin.region.wordBytes) := by
    rcases drawn.cursor with top | ⟨few, -⟩
    · exact top
    · omega
  obtain ⟨slot', found', onward⟩ := safe.onward.slots drawn.begun
  cases found'.symm.trans drawn.found
  refine ⟨by rw [Region.cut, top], ?_⟩
  simp only [Region.took, top, onward.word, Nat.add_mul, Nat.one_mul, Nat.add_assoc]

/-- What is taken for a thread does not touch what others have. -/
theorem tap_mine_of_ne {other : Nat} (ne : other ≠ thread) :
    (z.tap i slot words thread).mine other = z.mine other := by
  simp [tap, Scene.take, Scene.mine, Ne.symm ne]

theorem tap_mine_self : (z.tap i slot words thread).mine thread =
    { region := i, span := { start := slot.region.top, words }, user := some thread } ::
      z.mine thread :=
  z.toScene.take_mine i slot words thread

section
variable (found : z.heap.supply.slots[i]? = some slot)
include found

theorem tap_placedNoRivals (placed : z.heap.PlacedNoRivals) (fits : words ≤ slot.region.left) :
    (z.tap i slot words thread).heap.PlacedNoRivals ∧
      z.heap.Onward (z.tap i slot words thread).heap := by
  have here := Heap.find_table_eq_ok_iff.2 found
  have stepped : slot.region.Stepped
      ({ slot with region := slot.region.took words } : Slot).region := .took words fits rfl
  exact placed.put here stepped (placed.noRivals i slot found)

theorem tap_advances (safe : z.Safe d) (fits : words ≤ slot.region.left) :
    OnlyAdvances z (z.tap i slot words thread) :=
  ⟨(tap_placedNoRivals found safe.placed fits).2, List.suffix_refl _, fun _ => .inl rfl⟩

/-- The basin stays safe when a cut is taken from a region that was seen. -/
theorem Safe.tap (safe : z.Safe d) (seen : i ∈ z.seen) (room : d.words ≤ slot.region.left)
    (thread : Nat) : (z.tap i slot d.words thread).Safe d where
  placed := (tap_placedNoRivals found safe.placed room).1
  onward := safe.onward.trans (tap_placedNoRivals found safe.placed room).2
  active := safe.active
  seen := safe.seen
  drawn := by
    intro j hj
    obtain ⟨origin, other, n, drawn⟩ := safe.drawn j hj
    by_cases eq : j = i
    · subst eq
      cases found.symm.trans drawn.found
      obtain ⟨cut, top⟩ := drawn.next safe room
      refine ⟨origin, _, n + 1, drawn.begun, Scene.take_slot_self found, ?_, .inl top⟩
      refine Taking.spansIn_cons_self.trans ?_
      rw [drawn.taken, Region.cuts_succ, List.reverse_append, cut]
      rfl
    · exact ⟨origin, other, n, drawn.begun, (Scene.take_slot_of_ne eq).trans drawn.found,
        (Taking.spansIn_cons_of_ne (Ne.symm eq)).trans drawn.taken, drawn.cursor⟩
  taken := by
    intro t ht
    rcases List.mem_cons.1 ht with rfl | ht
    · exact ⟨seen, nofun⟩
    · exact safe.taken t ht

end

/-! ## What the others do -/

/-- Regions that are spent stay so. -/
theorem Spent.onward (spent : z.Spent d i) (onward : z.heap.Onward z'.heap) :
    z'.Spent d i := by
  obtain ⟨slot, found, few⟩ := spent
  obtain ⟨slot', found', moved⟩ := onward.slots found
  exact ⟨slot', found', Nat.lt_of_le_of_lt moved.left_le few⟩

/-- Where nobody can take anything, nobody does. -/
theorem Quiet.eq_of_taps (quiet : z.Quiet d) (taps : Relation.ReflTransGen (Taps d) z z') :
    z' = z := by
  induction taps with
  | refl => rfl
  | tail _ last ih =>
      subst ih
      cases last with
      | tap thread seen found room =>
          obtain ⟨slot, found', few⟩ := quiet _ seen
          cases found.symm.trans found'
          omega

theorem AllSpent.advances (allSpent : z.AllSpent d) (advances : OnlyAdvances z z')
    (safe : z'.Safe d) : z'.AllSpent d := by
  have same : z'.seen = z.seen :=
    (advances.seen.eq_of_length_le (allSpent.all ▸ safe.seen.length_le)).symm
  refine ⟨same.trans allSpent.all, ?_, ?_⟩
  · intro i seen
    rw [same] at seen
    exact (allSpent.quiet i seen).onward advances.onward
  · rcases advances.active same with still | sentinel
    · exact still.trans allSpent.active
    · exact sentinel

/-- The arena is at rest after a cut if it was before. The cut is from the active region. -/
theorem Rest.tap {lag : Nat} (rest : z.Rest d lag) (taps : Taps d z z') : z'.Rest d lag := by
  obtain @⟨i, slot, thread, seen, found, room⟩ := taps
  have active : z.registers.active = some (.table i) := by
    by_contra idle
    obtain ⟨slot', found', few⟩ := rest.spent i seen idle
    cases found.symm.trans found'
    omega
  have does : d.arena.Does _ (z.store []) ((z.tap i slot d.words thread).store []) :=
    .claim (Arena.mem_regions_of_active active) found d.pos room
  refine ⟨does.ready rest.ready nofun, ?_, rest.progress⟩
  intro j hj idle
  have ne : j ≠ i := by
    rintro rfl
    exact idle active
  obtain ⟨other, found', few⟩ := rest.spent j hj idle
  exact ⟨other, (Scene.take_slot_of_ne ne).trans found', few⟩

theorem Rest.taps {lag : Nat} (rest : z.Rest d lag)
    (taps : Relation.ReflTransGen (Taps d) z z') : z'.Rest d lag := by
  induction taps with
  | refl => exact rest
  | tail _ last ih => exact ih.tap last

/-- Between the steps of the thread with the lock nobody changes the registers. -/
theorem registers_of_taps (taps : Relation.ReflTransGen (Taps d) z z') :
    z'.registers = z.registers := by
  induction taps with
  | refl => rfl
  | tail _ last ih =>
      cases last
      exact ih

theorem Guar.refl (d : Drainage) (thread : Nat) (locked : Bool) (z : Basin) :
    Guar d thread locked z z :=
  ⟨.refl z, fun _ _ => rfl, fun _ => .refl⟩

theorem Rely.refl (d : Drainage) (thread : Nat) (locked : Bool) (z : Basin) :
    Rely d thread locked z z :=
  ⟨.refl z, rfl, fun _ => .refl⟩

variable {locked : Bool}

theorem Rely.trans (first : Rely d thread locked z z') (second : Rely d thread locked z' z'') :
    Rely d thread locked z z'' :=
  ⟨first.advances.trans second.advances, second.mine.trans first.mine,
    fun l => (first.taps l).trans (second.taps l)⟩

/-- One thread can rely on the steps of another, unless both have the lock. -/
theorem Guar.rely {other : Nat} {locked' : Bool} (guar : Guar d thread locked z z')
    (ne : other ≠ thread) (one : ¬ (locked = true ∧ locked' = true)) :
    Rely d other locked' z z' where
  advances := guar.advances
  mine := guar.others other ne
  taps := by
    intro l
    cases locked with
    | false => exact guar.taps rfl
    | true => exact absurd ⟨rfl, l⟩ one

end Basin

/-- The discipline of those who drain an arena. -/
def Drainage.discipline (d : Drainage) : Discipline Basin where
  registers z := z.registers
  heap z := z.heap
  mine z thread := (z.mine thread).map Taking.span
  Apt wish := wish = { min := d.words, desired := d.words }
  Safe := Basin.Safe d
  Rely := Basin.Rely d
  Guar := Basin.Guar d
  Rest := Basin.Rest d 0
  Refused := Basin.AllSpent d
  noRivals := fun safe => safe.placed.noRivals
  guar_refl := Basin.Guar.refl d
  rely_refl := Basin.Rely.refl d
  rely_trans := Basin.Rely.trans
  rely_of_guar := Basin.Guar.rely
  mine_of_rely := fun rely => congrArg _ rely.mine
  rest_of_rely := fun rely rest => rest.taps (rely.taps rfl)
  rest_of_guar := fun guar rest => rest.taps (guar.taps rfl)
  refused_of_rely := fun rely safe allSpent => allSpent.advances rely.advances safe

end Race

end RegionHeap
