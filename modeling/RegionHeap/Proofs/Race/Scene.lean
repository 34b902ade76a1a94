import RegionHeap.Proofs.Arena.Books
import RegionHeap.Proofs.Race.Flight

/-!
# Scenes of a race

A scene is what the threads of a race have in common: the registers of the arena, the heap,
and a book in which every taking of words is entered. The book exists only here. It says
which words belong to which thread and which became fillers.

A scene is safe if the book accounts for all that was handed out of the regions granted in
the race, no word twice, and if nothing more can be taken from a region that went back.
-/

namespace RegionHeap

/-- The regions granted since the supply was `base`. -/
def Supply.grantedSince (base s : Supply) : List Nat :=
  (s.requests.drop base.requests.length).filterMap Request.granted

/-- The regions taken back since the supply was `base`, with the bytes reported. -/
def Supply.returnsSince (base s : Supply) : List (Nat × Nat) :=
  (s.mutatorReturns.drop base.mutatorReturns.length).map (fun q => (q.region, q.usedBytes)) ++
    (s.collectorReturns.drop base.collectorReturns.length).map
      fun q => (q.region, q.allocatedBytes)

/-- The supply has not lost records since it was `base`. -/
structure Supply.Follows (base s : Supply) : Prop where
  requests : base.requests.length ≤ s.requests.length
  mutatorReturns : base.mutatorReturns.length ≤ s.mutatorReturns.length
  collectorReturns : base.collectorReturns.length ≤ s.collectorReturns.length

/-- The cursor of a region has moved up, and nothing else about its words has changed. -/
structure Region.Onward (r r' : Region) : Prop where
  bottom : r'.bottom = r.bottom
  limit : r'.limit = r.limit
  word : r'.wordBytes = r.wordBytes
  top : r.top ≤ r'.top

namespace Region.Onward

variable {r r' r'' : Region}

theorem refl (r : Region) : r.Onward r := ⟨rfl, rfl, rfl, Nat.le_refl _⟩

theorem trans (h : r.Onward r') (h' : r'.Onward r'') : r.Onward r'' :=
  ⟨h'.bottom.trans h.bottom, h'.limit.trans h.limit, h'.word.trans h.word,
    Nat.le_trans h.top h'.top⟩

theorem load_le (h : r.Onward r') : r.load ≤ r'.load := by
  have := h.top
  unfold load
  rw [h.bottom]
  omega

theorem left_le (h : r.Onward r') : r'.left ≤ r.left := by
  have := h.top
  unfold left room
  rw [h.limit, h.word]
  exact Nat.div_le_div_right (by omega)

theorem took (r : Region) (words : Nat) : r.Onward (r.took words) :=
  ⟨rfl, rfl, rfl, Nat.le_add_right _ _⟩

end Region.Onward

/-- Two spans have no byte in common. -/
def Span.Apart (wordBytes : Nat) (s t : Span) : Prop :=
  s.start + s.words * wordBytes ≤ t.start ∨ t.start + t.words * wordBytes ≤ s.start

theorem Span.Apart.symm {wordBytes : Nat} {s t : Span} (h : s.Apart wordBytes t) :
    t.Apart wordBytes s :=
  Or.symm h

namespace Race

/-- Words taken from a region of the table by a thread, or for a filler. -/
structure Taking where
  region : Nat
  span : Span
  user : Option Nat
  deriving DecidableEq

namespace Taking

/-- The bytes of the takings of a kind. -/
def bytes (wordBytes : Nat) (p : Taking → Bool) (book : List Taking) : Nat :=
  ((book.filter p).map fun t => t.span.words * wordBytes).sum

/-- All that was taken from region `i`. -/
def inRegion (i : Nat) (t : Taking) : Bool := t.region = i

/-- What threads have taken from region `i`. -/
def lent (i : Nat) (t : Taking) : Bool := t.region = i && t.user.isSome

/-- What became a filler in region `i`. -/
def plug (i : Nat) (t : Taking) : Bool := t.region = i && t.user.isNone

theorem bytes_cons (wordBytes : Nat) (p : Taking → Bool) (t : Taking) (book : List Taking) :
    bytes wordBytes p (t :: book) =
      (if p t then t.span.words * wordBytes else 0) + bytes wordBytes p book := by
  unfold bytes
  cases h : p t <;> simp [h]

theorem bytes_append (wordBytes : Nat) (p : Taking → Bool) (new book : List Taking) :
    bytes wordBytes p (new ++ book) = bytes wordBytes p new + bytes wordBytes p book := by
  simp [bytes]

theorem le_bytes {wordBytes : Nat} {p : Taking → Bool} {t : Taking} {book : List Taking}
    (ht : t ∈ book) (kind : p t = true) : t.span.words * wordBytes ≤ bytes wordBytes p book := by
  obtain ⟨late, early, rfl⟩ := List.append_of_mem ht
  rw [bytes_append, bytes_cons, if_pos kind]
  omega

theorem lent_add_plug (wordBytes i : Nat) (book : List Taking) :
    bytes wordBytes (lent i) book + bytes wordBytes (plug i) book =
      bytes wordBytes (inRegion i) book := by
  induction book with
  | nil => rfl
  | cons t book ih =>
      simp only [bytes_cons]
      by_cases mine : t.region = i
      · cases user : t.user <;> simp [lent, plug, inRegion, mine, user] <;> omega
      · simp [lent, plug, inRegion, mine, ih]

theorem bytes_eq_zero {wordBytes : Nat} {p : Taking → Bool} {book : List Taking}
    (none : ∀ t ∈ book, p t = false) : bytes wordBytes p book = 0 := by
  have empty : book.filter p = [] := List.filter_eq_nil_iff.2 fun t ht => by simp [none t ht]
  simp [bytes, empty]

end Taking

/-- What the threads of a race have in common. -/
structure Scene where
  registers : Registers
  heap : Heap
  /-- What was taken, the latest first. -/
  book : List Taking

namespace Scene

/-- The store of a scene after so much was said. -/
def store (z : Scene) (said : List Entry) : Store :=
  { registers := z.registers, heap := z.heap, transcript := said }

/-- What a thread has taken. -/
def mine (z : Scene) (thread : Nat) : List Taking :=
  z.book.filter fun t => t.user = some thread

/-- What became a filler. -/
def plugs (z : Scene) : List Taking :=
  z.book.filter fun t => t.user = none

/-- The regions granted since the supply was `base`. -/
def granted (z : Scene) (base : Supply) : List Nat :=
  base.grantedSince z.heap.supply

/-- The regions that went back since, with the bytes reported. -/
def returns (z : Scene) (base : Supply) : List (Nat × Nat) :=
  base.returnsSince z.heap.supply

/-- A place from which the threads may claim. -/
def Usable (z : Scene) (base : Supply) : Place → Prop
  | .sentinel => True
  | .table i => i ∈ z.granted base ∧
      ∃ slot, z.heap.supply.slots[i]? = some slot ∧ slot.region.load ≠ 0

/-- The scene is as it should be at every moment of the race. -/
structure Safe (a : Arena) (base : Supply) (z : Scene) : Prop where
  suits : a.Suits z.heap.supply.geometry
  order : z.heap.Orderly []
  noRivals : z.heap.NoRivals
  follows : base.Follows z.heap.supply
  active : ∃ place, z.registers.active = some place ∧ z.Usable base place
  retained : ∀ place, z.registers.retained = some place → z.Usable base place
  granted : ∀ i ∈ z.granted base, i ∉ z.heap.supply.free ∧
    ∃ slot, z.heap.supply.slots[i]? = some slot
  once : ((z.returns base).map Prod.fst).Nodup
  returned : ∀ r ∈ z.returns base, r.1 ∈ z.granted base ∧
    (∀ slot, z.heap.supply.slots[r.1]? = some slot →
      slot.region.left < a.settings.minFillWords) ∧
      r.2 = Taking.bytes z.heap.supply.geometry.wordBytes (Taking.lent r.1) z.book
  inside : ∀ t ∈ z.book, t.region ∈ z.granted base ∧ 0 < t.span.words ∧
    ∀ slot, z.heap.supply.slots[t.region]? = some slot →
      slot.region.bottom ≤ t.span.start ∧
        t.span.start + t.span.words * z.heap.supply.geometry.wordBytes ≤ slot.region.top
  apart : z.book.Pairwise fun t u => t.span.Apart z.heap.supply.geometry.wordBytes u.span
  total : ∀ i ∈ z.granted base, ∀ slot, z.heap.supply.slots[i]? = some slot →
    Taking.bytes z.heap.supply.geometry.wordBytes (Taking.inRegion i) z.book = slot.region.load
  fillers : ∀ i ∈ z.granted base, ∀ slot, z.heap.supply.slots[i]? = some slot →
    ∀ filler ∈ slot.region.fillers, { region := i, span := filler, user := none } ∈ z.book

/-- What every step of every thread does at most. -/
structure Grows (base : Supply) (z z' : Scene) : Prop where
  geometry : z'.heap.supply.geometry = z.heap.supply.geometry
  granted : z.granted base ⊆ z'.granted base
  returns : z.returns base ⊆ z'.returns base
  slots : ∀ {i : Nat} {slot : Slot}, z.heap.supply.slots[i]? = some slot →
    ∃ slot', z'.heap.supply.slots[i]? = some slot' ∧ slot.region.Onward slot'.region
  frozen : ∀ r ∈ z.returns base, z'.heap.supply.slots[r.1]? = z.heap.supply.slots[r.1]?
  book : z.book <:+ z'.book

/-- What a step leaves alone that is not taken by the thread with the lock. Nobody else
takes from a region before it is published, or after it was sealed. -/
structure Still (base : Supply) (least : Nat) (z z' : Scene) : Prop where
  registers : z'.registers = z.registers
  returns : z'.returns base = z.returns base
  plugs : z'.plugs = z.plugs
  quiet : ∀ {i : Nat} {slot : Slot}, z.heap.supply.slots[i]? = some slot →
    slot.region.load = 0 ∨ slot.region.left < least → z'.heap.supply.slots[i]? = some slot

/-- What a thread can rely on while the others take steps. -/
structure Rely (a : Arena) (base : Supply) (thread : Nat) (locked : Bool) (z z' : Scene) :
    Prop where
  grows : Grows base z z'
  mine : z'.mine thread = z.mine thread
  still : locked = true → Still base a.settings.minFillWords z z'

/-- What the other threads can rely on while this one takes a step. -/
structure Guar (a : Arena) (base : Supply) (thread : Nat) (locked : Bool) (z z' : Scene) :
    Prop where
  grows : Grows base z z'
  others : ∀ other, other ≠ thread → z'.mine other = z.mine other
  still : locked = false → Still base a.settings.minFillWords z z'

variable {a : Arena} {base : Supply} {thread other : Nat} {locked locked' : Bool}
  {z z' z'' : Scene} {least : Nat}

theorem Grows.refl (base : Supply) (z : Scene) : Grows base z z where
  geometry := rfl
  granted := List.Subset.refl _
  returns := List.Subset.refl _
  slots := fun found => ⟨_, found, .refl _⟩
  frozen := fun _ _ => rfl
  book := List.suffix_refl _

theorem Grows.trans (h : Grows base z z') (h' : Grows base z' z'') : Grows base z z'' where
  geometry := h'.geometry.trans h.geometry
  granted := List.Subset.trans h.granted h'.granted
  returns := List.Subset.trans h.returns h'.returns
  slots := fun found => by
    obtain ⟨slot', found', onward⟩ := h.slots found
    obtain ⟨slot'', found'', onward'⟩ := h'.slots found'
    exact ⟨slot'', found'', onward.trans onward'⟩
  frozen := fun r hr => (h'.frozen r (h.returns hr)).trans (h.frozen r hr)
  book := h.book.trans h'.book

theorem Still.refl (base : Supply) (least : Nat) (z : Scene) : Still base least z z :=
  ⟨rfl, rfl, rfl, fun found _ => found⟩

theorem Still.trans (h : Still base least z z') (h' : Still base least z' z'') : Still base least z z'' where
  registers := h'.registers.trans h.registers
  returns := h'.returns.trans h.returns
  plugs := h'.plugs.trans h.plugs
  quiet := fun found why => h'.quiet (h.quiet found why) why

theorem Rely.refl (a : Arena) (base : Supply) (thread : Nat) (locked : Bool) (z : Scene) :
    Rely a base thread locked z z :=
  ⟨.refl base z, rfl, fun _ => .refl base _ z⟩

theorem Rely.trans (h : Rely a base thread locked z z') (h' : Rely a base thread locked z' z'') :
    Rely a base thread locked z z'' :=
  ⟨h.grows.trans h'.grows, h'.mine.trans h.mine, fun l => (h.still l).trans (h'.still l)⟩

theorem Guar.refl (a : Arena) (base : Supply) (thread : Nat) (locked : Bool) (z : Scene) :
    Guar a base thread locked z z :=
  ⟨.refl base z, fun _ _ => rfl, fun _ => .refl base _ z⟩

/-- One thread can rely on the steps of another, unless both have the lock. -/
theorem Guar.rely (h : Guar a base thread locked z z') (ne : other ≠ thread)
    (one : ¬ (locked = true ∧ locked' = true)) : Rely a base other locked' z z' where
  grows := h.grows
  mine := h.others other ne
  still := fun l => h.still (by
    cases locked with
    | false => rfl
    | true => exact absurd ⟨rfl, l⟩ one)

/-- A place stays usable. -/
theorem Usable.grows {place : Place} (usable : z.Usable base place) (h : Grows base z z') :
    z'.Usable base place := by
  cases place with
  | sentinel => exact trivial
  | table i =>
      obtain ⟨mine, slot, found, full⟩ := usable
      obtain ⟨slot', found', onward⟩ := h.slots found
      have := onward.load_le
      exact ⟨h.granted mine, slot', found', by omega⟩

end Scene

end Race

end RegionHeap
