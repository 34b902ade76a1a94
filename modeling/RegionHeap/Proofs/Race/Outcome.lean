import RegionHeap.Proofs.Race.Run

/-!
# What a race brings

The book of a race agrees with what can be seen of it: the spans that threads were answered,
those that some have taken and will be answered, the fillers, and the bytes reported for
the regions that went back.
-/

namespace RegionHeap.Race

open Scene

/-- Different takings have no byte in common. -/
theorem Scene.Safe.apart_of_ne {a : Arena} {base : Supply} {z : Scene} (safe : z.Safe a base)
    {t u : Taking} (ht : t ∈ z.book) (hu : u ∈ z.book) (ne : t ≠ u) :
    t.span.Apart z.heap.supply.geometry.wordBytes u.span := by
  have : Std.Symm fun t u : Taking =>
      t.span.Apart z.heap.supply.geometry.wordBytes u.span := ⟨fun _ _ => Span.Apart.symm⟩
  exact safe.apart.forall ht hu ne

/-- The takings of threads, each with its thread. -/
def Taking.claims (book : List Taking) : List (Nat × Span) :=
  book.filterMap fun t => t.user.map fun user => (user, t.span)

namespace Shared

variable {base : Supply} {r : Shared} {book : List Taking} {thread : Nat}

/-- The spans that were answered, each with its thread. -/
def served (r : Shared) : List (Nat × Span) :=
  r.answers.filterMap fun ans => ans.result.map fun span => (ans.thread, span)

theorem count_eq (p : Nat × Span) (l : List (Nat × Span)) :
    l.count p = ((l.filter fun q => q.1 = p.1).map Prod.snd).count p.2 := by
  induction l with
  | nil => rfl
  | cons q l ih =>
      by_cases same : q.1 = p.1
      · by_cases eq : q.2 = p.2
        · obtain rfl : q = p := Prod.ext same eq
          simp [ih]
        · simp [same, eq, ih, Prod.ext_iff]
      · simp [same, ih, Prod.ext_iff]

theorem claims_of_thread (r : Shared) (book : List Taking) (thread : Nat) :
    ((Taking.claims book).filter fun p => p.1 = thread).map Prod.snd =
      ((r.scene book).mine thread).map Taking.span := by
  change _ = (book.filter fun t => t.user = some thread).map Taking.span
  induction book with
  | nil => rfl
  | cons t book ih =>
      unfold Taking.claims at ih ⊢
      cases user : t.user with
      | none => simpa [user] using ih
      | some u => by_cases eq : u = thread <;> simpa [user, eq] using ih

theorem served_of_thread (r : Shared) (thread : Nat) :
    (r.served.filter fun p => p.1 = thread).map Prod.snd = r.answered thread := by
  unfold served answered
  induction r.answers with
  | nil => rfl
  | cons ans answers ih =>
      cases result : ans.result with
      | none => by_cases eq : ans.thread = thread <;> simpa [result, eq] using ih
      | some span => by_cases eq : ans.thread = thread <;> simpa [result, eq] using ih

end Shared

namespace Assures

variable {α : Type} {a : Arena} {base : Supply} {thread : Nat} {locked : Bool} {z : Scene}
  {x : Program α} {post : α → Scene → Prop}

/-- Left alone, a program comes to its end. -/
theorem ends (h : Assures a base thread locked x z post) (safe : z.Safe a base) :
    ∃ value z', Grows base z z' ∧ post value z' := by
  induction x generalizing z with
  | done value => exact ⟨value, z, .refl base z, h⟩
  | fail fault => exact h.elim
  | step st next ih =>
      obtain ⟨answer, s, book, -, safe', guar, rest⟩ :=
        h z safe (.refl a base thread locked z) []
      obtain ⟨value, z', grows, holds⟩ := ih answer rest safe'
      exact ⟨value, z', guar.grows.trans grows, holds⟩

end Assures

namespace Underway

variable {a : Arena} {base : Supply} {thread : Nat} {locked : Bool} {before : List Span}
  {z : Scene} {post : Option Span → Scene → Prop} {program : Program (Option Span)}

/-- What a thread has taken is among what it will have in the end. -/
theorem ends (h : Underway a base thread locked before program z post) (safe : z.Safe a base) :
    ∃ value z', z.mine thread <:+ z'.mine thread ∧ post value z' := by
  obtain ⟨z₀, from₀, assured⟩ := h.assured
  cases program with
  | done value => exact ⟨value, z₀, from₀.mine ▸ List.suffix_refl _, assured⟩
  | fail fault => exact assured.elim
  | step st next =>
      obtain ⟨answer, s, book, -, safe', guar, rest⟩ := assured z safe from₀ []
      obtain ⟨value, z', grows, holds⟩ := rest.ends safe'
      exact ⟨value, z', (guar.grows.trans grows).book.filter _, holds⟩

/-- A thread on its way has taken what it will be answered, or nothing yet. -/
theorem got {wish : Wish} (h : Underway a base thread locked before program z post)
    (safe : z.Safe a base)
    (will : ∀ {result z'}, post result z' → wish.Got thread before result z') :
    ∃ pending, wish.Got thread before pending z := by
  obtain ⟨result, z', suffix, holds⟩ := h.ends safe
  have final := will holds
  have among := suffix.map Taking.span
  rw [final.spans] at among
  have nothing (few : (z.mine thread).map Taking.span <:+ before) :
      ∃ pending, wish.Got thread before pending z :=
    ⟨none, few.eq_of_length_le h.begun.length_le, nofun⟩
  cases result with
  | none => exact nothing among
  | some span =>
      rcases List.suffix_cons_iff.1 among with all | few
      · exact ⟨some span, all, final.sizes⟩
      · exact nothing few

end Underway

namespace Shared

variable {base : Supply} {r : Shared} {book : List Taking} {thread : Nat}

/-- A thread is in the middle of an attempt to get what it wishes. -/
def Flies (r : Shared) (thread : Nat) (wish : Wish) : Prop :=
  ∃ flight, r.threads[thread]? = some (.unlocked wish flight) ∨
    r.threads[thread]? = some (.locked wish flight)

/-- What a thread has taken it was answered, or it is about to be answered. -/
theorem Sound.got (h : r.Sound base book) (thread : Nat) :
    ((r.scene book).mine thread).map Taking.span = r.answered thread ∨
      ∃ wish, r.Flies thread wish ∧
        ∃ pending, wish.Got thread (r.answered thread) pending (r.scene book) := by
  have stands := h.standing thread
  match here : r.threads[thread]? with
  | none | some (.idle _) =>
      rw [here] at stands
      exact .inl stands
  | some (.waiting wish) =>
      rw [here] at stands
      exact .inl stands.2
  | some (.unlocked wish flight) =>
      rw [here] at stands
      exact .inr ⟨wish, ⟨flight, .inl here⟩, stands.2.got h.safe fun got => got⟩
  | some (.locked wish flight) =>
      rw [here] at stands
      exact .inr ⟨wish, ⟨flight, .inr here⟩, stands.2.got h.safe fun got => got.1⟩
  | some (.stopped fault) =>
      rw [here] at stands
      exact stands.elim

/-- What the threads have taken, but were not answered yet. -/
def late (r : Shared) (book : List Taking) : List (Nat × Span) :=
  (Taking.claims book).diff r.served

/-- Whatever threads have taken they were answered, or will be. -/
theorem Sound.claims_perm (h : r.Sound base book) :
    (r.served ++ r.late book).Perm (Taking.claims book) := by
  refine List.subperm_append_diff_self_of_count_le fun p _ => ?_
  rw [count_eq, count_eq, claims_of_thread r, served_of_thread]
  rcases h.got p.1 with settled | ⟨wish, -, pending, got⟩
  · rw [settled]
  · rw [got.spans, List.count_append]
    exact Nat.le_add_left _ _

/-- What is late of a thread is what it has taken beside what it was answered. -/
theorem Sound.late_of_thread (h : r.Sound base book) {pending : List Span}
    (mine : ((r.scene book).mine thread).map Taking.span = pending ++ r.answered thread) :
    (((r.late book).filter fun p => p.1 = thread).map Prod.snd).Perm pending := by
  have all := (h.claims_perm.filter fun p => p.1 = thread).map Prod.snd
  rw [claims_of_thread r, List.filter_append, List.map_append, served_of_thread, mine] at all
  exact (List.perm_append_left_iff _).1 (all.trans List.perm_append_comm)

/-- At most one span of each thread is late. The thread is in the middle of an attempt then,
and the span is as it wishes. -/
theorem Sound.late (h : r.Sound base book) :
    ((r.late book).map Prod.fst).Nodup ∧ ∀ p ∈ r.late book, ∃ wish, r.Flies p.1 wish ∧
      wish.min ≤ p.2.words ∧ p.2.words ≤ wish.desired := by
  refine ⟨List.nodup_iff_count_le_one.2 fun thread => ?_, fun p hp => ?_⟩
  · have threads : ((r.late book).map Prod.fst).count thread =
        (((r.late book).filter fun p => p.1 = thread).map Prod.snd).length := by
      rw [List.count, List.countP_map, List.countP_eq_length_filter, List.length_map]
      rfl
    rw [threads]
    rcases h.got thread with settled | ⟨wish, -, pending, got⟩
    · rw [(h.late_of_thread (settled.trans (List.nil_append _).symm)).length_eq]
      exact Nat.zero_le _
    · rw [(h.late_of_thread got.spans).length_eq]
      cases pending <;> simp
  · have here : p.2 ∈ ((r.late book).filter fun q => q.1 = p.1).map Prod.snd :=
      List.mem_map.2 ⟨p, List.mem_filter.2 ⟨hp, decide_eq_true rfl⟩, rfl⟩
    rcases h.got p.1 with settled | ⟨wish, flies, pending, got⟩
    · rw [(h.late_of_thread (settled.trans (List.nil_append _).symm)).mem_iff] at here
      cases here
    · rw [(h.late_of_thread got.spans).mem_iff, Option.mem_toList] at here
      exact ⟨wish, flies, got.sizes p.2 here⟩

/-- What threads were answered or will be stands in the book. -/
theorem Sound.mem (h : r.Sound base book) {p : Nat × Span}
    (hp : p ∈ r.served ++ r.late book) :
    ∃ i, { region := i, span := p.2, user := some p.1 } ∈ book := by
  obtain ⟨⟨i, span, user⟩, ht, eq⟩ := List.mem_filterMap.1 (h.claims_perm.mem_iff.1 hp)
  obtain ⟨u, rfl, rfl⟩ := Option.map_eq_some_iff.1 eq
  exact ⟨i, ht⟩

/-- The bytes of the spans that start in the part of a region that is handed out. -/
def bytesIn (wordBytes : Nat) (region : Region) (spans : List (Nat × Span)) : Nat :=
  ((spans.filter fun p => region.contains p.2.start).map fun p => p.2.words * wordBytes).sum

/-- A taking starts where the region is that it was taken from. -/
theorem Sound.contains_iff (h : r.Sound base book) {t : Taking} (ht : t ∈ book) {i : Nat}
    {slot : Slot} (found : r.store.heap.supply.slots[i]? = some slot) :
    slot.region.contains t.span.start = true ↔ t.region = i := by
  obtain ⟨mine, pos, inside⟩ := h.safe.inside t ht
  obtain ⟨-, other, found'⟩ := h.safe.granted t.region mine
  obtain ⟨lower, upper⟩ := inside other found'
  have p := h.safe.order.placed found
  have p' := h.safe.order.placed found'
  have bytes := Nat.mul_pos pos h.safe.order.sound.word
  simp only [Region.contains, Bool.and_eq_true, decide_eq_true_eq]
  constructor
  · rintro ⟨above, below⟩
    by_contra ne
    have := p.le_limit
    have := p'.le_limit
    rcases p.apart p' (Ne.symm ne) with left | right <;> omega
  · rintro rfl
    cases found.symm.trans found'
    exact ⟨lower, by omega⟩

/-- The bytes that threads have taken from a region, told from where the spans start. -/
theorem Sound.bytes_lent (h : r.Sound base book) {i : Nat} {slot : Slot}
    (found : r.store.heap.supply.slots[i]? = some slot) (wordBytes : Nat) :
    bytesIn wordBytes slot.region (r.served ++ r.late book) =
      Taking.bytes wordBytes (Taking.lent i) book := by
  have perm := ((h.claims_perm.filter fun p => slot.region.contains p.2.start).map
    fun p : Nat × Span => p.2.words * wordBytes).sum_nat
  refine perm.trans ?_
  have iff : ∀ t ∈ book, (slot.region.contains t.span.start = true ↔ t.region = i) :=
    fun t ht => h.contains_iff ht found
  unfold Taking.claims Taking.bytes
  clear perm h
  induction book with
  | nil => rfl
  | cons t book ih =>
      have rest := ih fun u hu => iff u (List.mem_cons_of_mem t hu)
      have first := iff t List.mem_cons_self
      cases user : t.user with
      | none => simpa [user, Taking.lent] using rest
      | some u =>
          by_cases eq : t.region = i
          · simpa [user, Taking.lent, eq, first.2 eq] using rest
          · have elsewhere : slot.region.contains t.span.start = false := by
              rw [← Bool.not_eq_true]
              exact fun here => eq (first.1 here)
            simpa [user, Taking.lent, eq, elsewhere] using rest

/-- What a race has brought since the supply was `base`. Beside the spans that were
answered, threads in the middle of an attempt may have taken the spans `late`. -/
structure Brought (base : Supply) (r : Shared) (late : List (Nat × Span)) : Prop where
  faultless : r.fault? = none
  fits : ∀ ans ∈ r.answers, ∀ span, ans.result = some span →
    ans.wish.min ≤ span.words ∧ span.words ≤ ans.wish.desired
  pending : (late.map Prod.fst).Nodup
  underway : ∀ p ∈ late, ∃ wish, r.Flies p.1 wish ∧
    wish.min ≤ p.2.words ∧ p.2.words ≤ wish.desired
  apart : (r.served ++ late).Pairwise fun p q =>
    p.2.Apart r.store.heap.supply.geometry.wordBytes q.2
  inside : ∀ p ∈ r.served ++ late, ∃ i ∈ base.grantedSince r.store.heap.supply, ∃ slot,
    r.store.heap.supply.slots[i]? = some slot ∧ slot.region.bottom ≤ p.2.start ∧
      p.2.start + p.2.words * r.store.heap.supply.geometry.wordBytes ≤ slot.region.limit
  fillers : ∀ i ∈ base.grantedSince r.store.heap.supply, ∀ slot,
    r.store.heap.supply.slots[i]? = some slot → ∀ filler ∈ slot.region.fillers,
      ∀ p ∈ r.served ++ late, p.2.Apart r.store.heap.supply.geometry.wordBytes filler
  once : ((base.returnsSince r.store.heap.supply).map Prod.fst).Nodup
  reported : ∀ q ∈ base.returnsSince r.store.heap.supply, ∃ slot,
    r.store.heap.supply.slots[q.1]? = some slot ∧
      q.2 = bytesIn r.store.heap.supply.geometry.wordBytes slot.region (r.served ++ late)

theorem Sound.fault?_eq_none (h : r.Sound base book) : r.fault? = none := by
  refine List.findSome?_eq_none_iff.2 fun t ht => ?_
  obtain ⟨thread, here⟩ := List.getElem?_of_mem ht
  have stands := h.standing thread
  rw [here] at stands
  cases t with
  | stopped fault => exact stands.elim
  | idle | unlocked | waiting | locked => rfl

theorem Sound.brought (h : r.Sound base book) : r.Brought base (r.late book) where
  faultless := h.fault?_eq_none
  fits := h.fits
  pending := h.late.1
  underway := h.late.2
  apart := by
    refine (h.claims_perm.pairwise_iff fun apart => Span.Apart.symm apart).2 ?_
    refine List.Pairwise.filterMap _ (fun t u apart p hp q hq => ?_) h.safe.apart
    obtain ⟨v, -, rfl⟩ := Option.map_eq_some_iff.1 hp
    obtain ⟨v', -, rfl⟩ := Option.map_eq_some_iff.1 hq
    exact apart
  inside := fun p hp => by
    obtain ⟨i, ht⟩ := h.mem hp
    obtain ⟨mine, -, inside⟩ := h.safe.inside _ ht
    obtain ⟨-, slot, found⟩ := h.safe.granted i mine
    obtain ⟨lower, upper⟩ := inside slot found
    exact ⟨i, mine, slot, found, lower,
      Nat.le_trans upper (h.safe.order.placed found).le_limit⟩
  fillers := fun i mine slot found filler hf p hp => by
    obtain ⟨j, ht⟩ := h.mem hp
    exact h.safe.apart_of_ne ht (h.safe.fillers i mine slot found filler hf) nofun
  once := h.safe.once
  reported := fun q hq => by
    obtain ⟨mine, -, bytes⟩ := h.safe.returned q hq
    obtain ⟨-, slot, found⟩ := h.safe.granted q.1 mine
    exact ⟨slot, found, bytes.trans (h.bytes_lent found _).symm⟩

/-- Nothing is taken any more from a region that went back. -/
theorem Sound.closed (h : r.Sound base book) {r' : Shared} {book' : List Taking}
    (h' : r'.Sound base book') (grows : Grows base (r.scene book) (r'.scene book'))
    {q : Nat × Nat} (hq : q ∈ base.returnsSince r.store.heap.supply) {slot : Slot}
    (found : r.store.heap.supply.slots[q.1]? = some slot) {p : Nat × Span}
    (hp : p ∈ r'.served) (inside : slot.region.contains p.2.start = true) :
    p ∈ r.served ++ r.late book := by
  obtain ⟨i, ht⟩ := h'.mem (List.mem_append_left _ hp)
  have found' : r'.store.heap.supply.slots[q.1]? = some slot := (grows.frozen q hq).trans found
  obtain rfl : i = q.1 := (h'.contains_iff ht found').1 inside
  obtain ⟨new, split⟩ := grows.book
  change new ++ book = book' at split
  -- The cursor has stayed where the old takings had brought it, so there are no new ones.
  have mine := (h.safe.returned q hq).1
  have before := h.safe.total q.1 mine slot found
  have after := h'.safe.total q.1 (grows.granted mine) slot found'
  have same : (r'.scene book').heap.supply.geometry = (r.scene book).heap.supply.geometry :=
    grows.geometry
  rw [same] at after
  rw [← split] at ht
  rcases List.mem_append.1 ht with fresh | old
  · have size : p.2.words * (r.scene book).heap.supply.geometry.wordBytes ≤
        Taking.bytes (r.scene book).heap.supply.geometry.wordBytes (Taking.inRegion q.1) new :=
      Taking.le_bytes fresh (decide_eq_true rfl)
    have pos : 0 < p.2.words * (r.scene book).heap.supply.geometry.wordBytes :=
      Nat.mul_pos (h'.safe.inside _ (split ▸ List.mem_append_left book fresh)).2.1
        h.safe.order.sound.word
    change Taking.bytes _ _ book' = _ at after
    rw [← split, Taking.bytes_append] at after
    change Taking.bytes _ _ book = _ at before
    omega
  · refine h.claims_perm.mem_iff.2 (List.mem_filterMap.2 ⟨_, old, rfl⟩)

end Shared

end RegionHeap.Race
