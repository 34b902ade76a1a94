import RegionHeap.Proofs.Race.Refill

/-!
# What draining brings

When all threads were refused under the lock, every region was cut up as far as possible: the
one that was active at first from its cursor on, and every free one from its bottom. So it
does not matter in which order the threads took their steps.
-/

namespace RegionHeap

/-- The address is a whole number of steps of `words` words from `base`, and as many words fit
there. -/
def Region.Fits (r : Region) (words base address : Nat) : Prop :=
  ∃ k, address = base + k * (words * r.wordBytes) ∧ address + words * r.wordBytes ≤ r.limit

/-- The cuts of a region start where there is room for one. -/
theorem Region.Placed.mem_cuts_iff {g : Geometry} {i : Nat} {r : Region} (p : r.Placed g i)
    (sound : g.Sound) {words : Nat} (pos : 0 < words) (address : Nat) :
    (∃ span ∈ r.cuts words (r.left / words), span.start = address) ↔
      r.Fits words r.top address := by
  have fits (k : Nat) : k < r.left / words ↔
      r.top + k * (words * r.wordBytes) + words * r.wordBytes ≤ r.limit := by
    have below := p.le_limit
    have whole : r.left * r.wordBytes = r.limit - r.top := by
      rw [p.word]
      exact p.left_mul
    have word : 0 < r.wordBytes := p.word ▸ sound.word
    calc
      k < r.left / words ↔ (k + 1) * words ≤ r.left := Nat.le_div_iff_mul_le pos
      _ ↔ (k + 1) * words * r.wordBytes ≤ r.left * r.wordBytes :=
        (Nat.mul_le_mul_right_iff word).symm
      _ ↔ r.top + k * (words * r.wordBytes) + words * r.wordBytes ≤ r.limit := by
        rw [whole, Nat.mul_assoc, Nat.add_mul, Nat.one_mul]
        omega
  constructor
  · rintro ⟨span, hs, rfl⟩
    obtain ⟨k, hk, rfl⟩ := List.mem_map.1 hs
    exact ⟨k, rfl, (fits k).1 (List.mem_range.1 hk)⟩
  · rintro ⟨k, rfl, room⟩
    exact ⟨_, List.mem_map.2 ⟨k, List.mem_range.2 ((fits k).2 room), rfl⟩, rfl⟩

/-- What fits from the cursor on lies inside the region. -/
theorem Region.Placed.inside_of_fits {g : Geometry} {i : Nat} {r : Region} (p : r.Placed g i)
    (sound : g.Sound) {words address : Nat} (pos : 0 < words) (fits : r.Fits words r.top address) :
    r.bottom ≤ address ∧ address < r.limit := by
  obtain ⟨k, rfl, room⟩ := fits
  have above := p.bottom_le
  have bytes : 0 < words * r.wordBytes := Nat.mul_pos pos (p.word ▸ sound.word)
  omega

/-- No two cuts start at the same address. -/
theorem Region.cuts_nodup {r : Region} (word : 0 < r.wordBytes) {words : Nat} (pos : 0 < words)
    (n : Nat) : ((r.cuts words n).map Span.start).Nodup := by
  rw [cuts, List.map_map]
  refine List.nodup_range.map fun k l eq => ?_
  have same : k * (words * r.wordBytes) = l * (words * r.wordBytes) := Nat.add_left_cancel eq
  exact Nat.eq_of_mul_eq_mul_right (Nat.mul_pos pos word) same

namespace Race

namespace Taking

/-- What was taken from each of the regions makes up the book. -/
theorem perm_of_regions {regions : List Nat} {book : List Taking} (nodup : regions.Nodup)
    (all : ∀ t ∈ book, t.region ∈ regions) :
    (regions.flatMap fun i => spansIn i book).Perm (book.map span) := by
  induction regions generalizing book with
  | nil =>
      cases book with
      | nil => exact .nil
      | cons t book => exact nomatch all t List.mem_cons_self
  | cons i regions ih =>
      obtain ⟨fresh, nodup⟩ := List.nodup_cons.1 nodup
      have others : ∀ t ∈ book.filter fun t => !decide (t.region = i), t.region ∈ regions := by
        intro t ht
        obtain ⟨mem, ne⟩ := List.mem_filter.1 ht
        rcases List.mem_cons.1 (all t mem) with eq | rest
        · simp [eq] at ne
        · exact rest
      have apart : regions.flatMap (fun j => spansIn j book) =
          regions.flatMap fun j => spansIn j (book.filter fun t => !decide (t.region = i)) := by
        refine List.flatMap_congr fun j hj => ?_
        unfold spansIn
        rw [List.filter_filter]
        refine congrArg _ (List.filter_congr fun t _ => ?_)
        by_cases eq : t.region = j
        · have ne : t.region ≠ i := by
            rintro rfl
            exact fresh (eq ▸ hj)
          simp [eq, eq ▸ ne]
        · simp [eq]
      have both := (List.filter_append_perm (fun t => decide (t.region = i)) book).map span
      rw [List.map_append] at both
      rw [List.flatMap_cons, apart]
      exact ((ih nodup others).append_left _).trans both

/-- If all words were taken for threads, the claims have the same spans as the book. -/
theorem claims_spans {book : List Taking} (users : ∀ t ∈ book, t.user ≠ none) :
    (claims book).map Prod.snd = book.map span := by
  induction book with
  | nil => rfl
  | cons t book ih =>
      obtain ⟨user, eq⟩ := Option.ne_none_iff_exists'.1 (users t List.mem_cons_self)
      have rest := ih fun u hu => users u (List.mem_cons_of_mem t hu)
      unfold claims at rest ⊢
      simp [eq, rest]

end Taking

namespace Shared

/-- Where the spans start that were answered. -/
def starts (r : Shared) : List Nat :=
  r.served.map fun p => p.2.start

/-- The arena was drained by claims for so many words at a time, from this store on. -/
structure Drained (s : Store) (words : Nat) (r : Shared) : Prop where
  sizes : ∀ p ∈ r.served, p.2.words = words
  starts : ∀ address, address ∈ r.starts ↔
    (∃ i slot, s.registers.active = some (.table i) ∧ s.heap.supply.slots[i]? = some slot ∧
      slot.region.Fits words slot.region.top address) ∨
    ∃ i ∈ s.heap.supply.free, ∃ slot, s.heap.supply.slots[i]? = some slot ∧
      slot.region.Fits words slot.region.bottom address
  once : r.starts.Nodup
  free : r.store.heap.supply.free = []
  active : r.store.registers.active = some .sentinel
  count : r.store.registers.count =
    Word.wrapSucc32^[s.heap.supply.free.length] s.registers.count

/-- Two races that drain the same arena hand out the same addresses, however their threads
took turns and however many there were. -/
theorem Drained.starts_perm {s : Store} {words : Nat} {r r' : Shared} (h : r.Drained s words)
    (h' : r'.Drained s words) : r.starts.Perm r'.starts := by
  refine (List.perm_ext_iff_of_nodup h.once h'.once).2 fun address => ?_
  exact (h.starts address).trans (h'.starts address).symm

end Shared

/-- The regions to be drained are the one that was active at first and those that were free,
which were empty. -/
theorem Drainage.regions_iff (d : Drainage) (address : Nat) :
    (∃ i ∈ d.regions, ∃ origin, d.first.heap.supply.slots[i]? = some origin ∧
      origin.region.Fits d.words origin.region.top address) ↔
    (∃ i slot, d.first.registers.active = some (.table i) ∧
      d.first.heap.supply.slots[i]? = some slot ∧
        slot.region.Fits d.words slot.region.top address) ∨
    ∃ i ∈ d.first.heap.supply.free, ∃ slot, d.first.heap.supply.slots[i]? = some slot ∧
      slot.region.Fits d.words slot.region.bottom address := by
  have empty {i : Nat} {slot : Slot} (free : i ∈ d.first.heap.supply.free)
      (found : d.first.heap.supply.slots[i]? = some slot) :
      slot.region.top = slot.region.bottom := by
    obtain ⟨same, found', vacant⟩ := d.ready.order.vacant i free
    cases found.symm.trans found'
    have none := vacant.empty
    have above := (d.ready.order.placed found).bottom_le
    unfold Region.load at none
    omega
  constructor
  · rintro ⟨i, mem, slot, found, fits⟩
    rcases List.mem_append.1 mem with free | active
    · rw [List.mem_reverse] at free
      exact .inr ⟨i, free, slot, found, empty free found ▸ fits⟩
    · exact .inl ⟨i, slot, Place.mem_position?.1 active, found, fits⟩
  · rintro (⟨i, slot, active, found, fits⟩ | ⟨i, free, slot, found, fits⟩)
    · have mem : i ∈ d.regions := List.mem_append_right _ (Place.mem_position?.2 active)
      exact ⟨i, mem, slot, found, fits⟩
    · have mem : i ∈ d.regions := List.mem_append_left _ (List.mem_reverse.2 free)
      exact ⟨i, mem, slot, found, (empty free found).symm ▸ fits⟩

namespace Basin

variable {d : Drainage} {z : Basin}

/-- What was taken from each region when the arena has run dry. -/
theorem AllSpent.taken (allSpent : z.AllSpent d) (safe : z.Safe d) {i : Nat} (mem : i ∈ d.regions) :
    ∃ origin, d.first.heap.supply.slots[i]? = some origin ∧
      Taking.spansIn i z.book =
        (origin.region.cuts d.words (origin.region.left / d.words)).reverse := by
  rw [← allSpent.all] at mem
  obtain ⟨origin, slot, n, drawn⟩ := safe.drawn i mem
  have all := drawn.of_spent safe (allSpent.quiet i mem)
  exact ⟨origin, drawn.begun, all ▸ drawn.taken⟩

/-- Nothing was taken but cuts. -/
theorem AllSpent.mem_cuts (allSpent : z.AllSpent d) (safe : z.Safe d) {t : Taking}
    (ht : t ∈ z.book) :
    t.region ∈ d.regions ∧ ∃ origin, d.first.heap.supply.slots[t.region]? = some origin ∧
      t.span ∈ origin.region.cuts d.words (origin.region.left / d.words) := by
  have mem : t.region ∈ d.regions := allSpent.all ▸ (safe.taken t ht).1
  obtain ⟨origin, begun, taken⟩ := allSpent.taken safe mem
  have span : t.span ∈ Taking.spansIn t.region z.book := Taking.mem_spansIn.2 ⟨t, ht, rfl, rfl⟩
  rw [taken, List.mem_reverse] at span
  exact ⟨mem, origin, begun, span⟩

/-- When the arena has run dry, words were taken wherever they fit. -/
theorem AllSpent.mem_starts_iff (allSpent : z.AllSpent d) (safe : z.Safe d) (address : Nat) :
    (∃ t ∈ z.book, t.span.start = address) ↔ ∃ i ∈ d.regions, ∃ origin,
      d.first.heap.supply.slots[i]? = some origin ∧
        origin.region.Fits d.words origin.region.top address := by
  have cuts {i : Nat} {origin : Slot} (begun : d.first.heap.supply.slots[i]? = some origin) :=
    (d.ready.order.placed begun).mem_cuts_iff d.ready.sound d.pos address
  constructor
  · rintro ⟨t, ht, start⟩
    obtain ⟨mem, origin, begun, cut⟩ := allSpent.mem_cuts safe ht
    exact ⟨t.region, mem, origin, begun, (cuts begun).1 ⟨t.span, cut, start⟩⟩
  · rintro ⟨i, mem, origin, begun, fits⟩
    obtain ⟨origin', begun', taken⟩ := allSpent.taken safe mem
    cases begun.symm.trans begun'
    obtain ⟨span, hs, start⟩ := (cuts begun).2 fits
    rw [← List.mem_reverse, ← taken] at hs
    obtain ⟨t, ht, -, rfl⟩ := Taking.mem_spansIn.1 hs
    exact ⟨t, ht, start⟩

/-- Words are taken from the same address only once. -/
theorem AllSpent.starts_nodup (allSpent : z.AllSpent d) (safe : z.Safe d) :
    ((z.book.map Taking.span).map Span.start).Nodup := by
  have perm := Taking.perm_of_regions d.regions_nodup
    fun t ht => allSpent.all ▸ (safe.taken t ht).1
  refine ((perm.map Span.start).nodup_iff).1 ?_
  rw [List.map_flatMap]
  refine List.nodup_flatMap.2 ⟨fun i mem => ?_, d.regions_nodup.imp_of_mem ?_⟩
  · obtain ⟨origin, begun, taken⟩ := allSpent.taken safe mem
    have p := d.ready.order.placed begun
    rw [taken, List.map_reverse, List.nodup_reverse]
    exact Region.cuts_nodup (p.word ▸ d.ready.sound.word) d.pos _
  · -- The regions do not overlap, and every cut lies inside its region.
    intro i j hi hj ne address left right
    have inside {i : Nat} (mem : i ∈ d.regions)
        (here : address ∈ (Taking.spansIn i z.book).map Span.start) :
        ∃ origin : Slot, origin.region.Placed d.first.heap.supply.geometry i ∧
          origin.region.bottom ≤ address ∧ address < origin.region.limit := by
      obtain ⟨origin, begun, taken⟩ := allSpent.taken safe mem
      have p := d.ready.order.placed begun
      rw [taken, List.map_reverse, List.mem_reverse] at here
      have fits := (p.mem_cuts_iff d.ready.sound d.pos address).1 (List.mem_map.1 here)
      exact ⟨origin, p, p.inside_of_fits d.ready.sound d.pos fits⟩
    obtain ⟨origin, p, above, below⟩ := inside hi left
    obtain ⟨origin', q, above', below'⟩ := inside hj right
    rcases p.apart q ne with apart | apart
    · omega
    · omega

end Basin

namespace Shared

variable {d : Drainage} {r : Shared} {z : Basin}

/-- The spans that were answered are those of the claims in the book, if every thread was
answered what it has taken. -/
theorem served_perm (settled : ∀ thread, (z.mine thread).map Taking.span = r.answered thread) :
    r.served.Perm (Taking.claims z.book) := by
  refine List.perm_iff_count.2 fun p => ?_
  rw [count_eq, count_eq, served_of_thread, claims_of_thread r, ← settled p.1]
  rfl

/-- When all threads were refused, the arena was drained. -/
theorem Disciplined.drained (h : r.Disciplined d.discipline z) (some : r.threads ≠ [])
    (ended : r.isOver = true) : r.Drained d.first d.words := by
  obtain ⟨free, refused, settled⟩ := h.over ended
  have allSpent : z.AllSpent d := refused some
  have safe : z.Safe d := h.safe
  have rest : z.Rest d 0 := h.rest free
  have users : ∀ t ∈ z.book, t.user ≠ none := fun t ht => (safe.taken t ht).2
  have perm := (served_perm settled).map Prod.snd
  rw [Taking.claims_spans users] at perm
  have starts : r.starts.Perm ((z.book.map Taking.span).map Span.start) := by
    have same := perm.map Span.start
    rwa [List.map_map] at same
  obtain ⟨granted, queue, seen, count⟩ := rest.progress
  -- As many regions were granted as were free, since all of them were seen.
  have none : z.heap.supply.free = [] := by
    have all := congrArg List.length (seen.symm.trans allSpent.all)
    rw [Drainage.regions, queue] at all
    simpa using all
  refine ⟨?_, fun address => ?_, (starts.nodup_iff).2 (allSpent.starts_nodup safe), ?_, ?_, ?_⟩
  · intro p hp
    have mem : p.2 ∈ z.book.map Taking.span := perm.mem_iff.1 (List.mem_map.2 ⟨p, hp, rfl⟩)
    obtain ⟨t, ht, eq⟩ := List.mem_map.1 mem
    obtain ⟨-, origin, -, cut⟩ := allSpent.mem_cuts safe ht
    obtain ⟨k, -, cut⟩ := List.mem_map.1 cut
    rw [← eq, ← cut]
    rfl
  · rw [starts.mem_iff, List.map_map, List.mem_map]
    exact (allSpent.mem_starts_iff safe address).trans (d.regions_iff address)
  · exact (congrArg (fun h => h.supply.free) h.shows.heap).symm.trans none
  · exact (congrArg Registers.active h.shows.registers).symm.trans allSpent.active
  · rw [queue, none, List.append_nil, ← count]
    exact (congrArg Registers.count h.shows.registers).symm

end Shared

end Race

end RegionHeap
