import RegionHeap.Proofs.Region.Work
import RegionHeap.Proofs.Region.Tiling

/-!
# Claims at one cursor, one after another

A claim among other threads takes effect at the access that answers it. So the answers of a
race, in the order in which they are given, are those of a region that serves the same
claims one after another, and what is handed out tiles the way of the cursor.
-/

namespace RegionHeap

open Race

/-- A region serves claims one after another. -/
inductive Region.Serves : Region → List ClaimAnswer → Region → Prop
  | nil (r : Region) : Serves r [] r
  | concat {r r₁ r₂ : Region} {served : List ClaimAnswer} {a : ClaimAnswer}
      (before : Serves r served r₁) (claimed : r₁.claim a.min a.desired = .ok (a.result, r₂)) :
      Serves r (served ++ [a]) r₂

namespace Region.Serves

variable {r r' : Region} {served : List ClaimAnswer}

theorem inBounds (h : r.Serves served r') (before : r.InBounds) : r'.InBounds := by
  induction h with
  | nil => exact before
  | concat _ claimed ih => exact ih.claim claimed

/-- Only the cursor moves. -/
theorem frame (h : r.Serves served r') (before : r.InBounds) :
    r' = { r with top := r'.top } := by
  induction h with
  | nil => rfl
  | concat first claimed ih =>
      obtain ⟨-, ⟨-, rfl⟩ | ⟨words, -, -, -, -, -, rfl⟩⟩ := (first.inBounds before).claimed claimed
      · exact ih
      · rw [ih]
        rfl

/-- The spans handed out tile the way of the cursor. -/
theorem tiles (h : r.Serves served r') (before : r.InBounds) :
    Tiles r.wordBytes r.top (served.filterMap ClaimAnswer.result) r'.top := by
  induction h with
  | nil => exact Tiles.nil _ _
  | concat first claimed ih =>
      have stands := first.inBounds before
      have word := congrArg Region.wordBytes (first.frame before)
      rw [List.filterMap_append]
      obtain ⟨-, ⟨refused, rfl⟩ | ⟨words, pos, -, -, -, taken, rfl⟩⟩ := stands.claimed claimed
      · simpa [refused] using ih
      · have grown := ih.concat pos
        simpa [taken, Region.took, word] using grown

/-- What was left was handed out or still is left. -/
theorem left (h : r.Serves served r') (before : r.InBounds) :
    r.left = ((served.filterMap ClaimAnswer.result).map Span.words).sum + r'.left := by
  induction h with
  | nil => simp
  | concat first claimed ih =>
      rw [ih, List.filterMap_append]
      obtain ⟨-, ⟨refused, rfl⟩ | ⟨words, -, fits, -, -, taken, rfl⟩⟩ :=
        (first.inBounds before).claimed claimed
      · simp [refused]
      · have := Region.left_took fits
        simp only [taken, List.filterMap_cons, List.filterMap_nil, List.map_append, List.map_cons,
          List.map_nil, List.sum_append, List.sum_cons, List.sum_nil]
        omega

/-- A span is as long as was asked for. -/
theorem sizes (h : r.Serves served r') (before : r.InBounds) {a : ClaimAnswer} (mem : a ∈ served)
    {span : Span} (got : a.result = some span) :
    a.min ≤ span.words ∧ span.words ≤ a.desired := by
  induction h with
  | nil => cases mem
  | concat first claimed ih =>
      rcases List.mem_append.1 mem with earlier | last
      · exact ih earlier
      · obtain rfl := List.mem_singleton.1 last
        obtain ⟨-, ⟨refused, -⟩ | ⟨words, -, -, least, most, taken, -⟩⟩ :=
          (first.inBounds before).claimed claimed
        · rw [refused] at got
          cases got
        · obtain rfl := Option.some.inj (taken.symm.trans got)
          exact ⟨least, most⟩

/-- A region that serves claims for `words` words until fewer are left serves as many as
fit. -/
theorem full (h : r.Serves served r') (before : r.InBounds) {words : Nat}
    (exactly : ∀ a ∈ served, a.min = words ∧ a.desired = words) (few : r'.left < words) :
    (served.filterMap ClaimAnswer.result).length = r.left / words ∧
      r'.top = r.top + r.left / words * (words * r.wordBytes) := by
  have sized : ∀ n ∈ (served.filterMap ClaimAnswer.result).map Span.words, n = words := by
    intro n hn
    obtain ⟨span, hspan, rfl⟩ := List.mem_map.1 hn
    obtain ⟨a, ha, got⟩ := List.mem_filterMap.1 hspan
    obtain ⟨min, desired⟩ := exactly a ha
    obtain ⟨least, most⟩ := h.sizes before ha got
    omega
  have total : ((served.filterMap ClaimAnswer.result).map Span.words).sum =
      (served.filterMap ClaimAnswer.result).length * words := by
    rw [List.eq_replicate_of_mem sized, List.sum_replicate, List.length_map, smul_eq_mul]
  have whole := h.left before
  have way := (h.tiles before).words
  rw [total] at whole way
  have count : (served.filterMap ClaimAnswer.result).length = r.left / words := by
    symm
    apply Nat.div_eq_of_lt_le
    · omega
    · rw [Nat.add_mul]
      omega
  refine ⟨count, ?_⟩
  rw [← way, count, Nat.mul_assoc]

end Region.Serves

namespace Race

namespace AtCursor

/-- The race after the first `n` moves. -/
def during (race : AtCursor) (ms : List CursorMove) (n : Nat) : AtCursor :=
  race.moves (ms.take n)

/-- A thread has started a claim with move `begun`, counted from zero, and claims ever
since, up to the moment after the first `now` moves. -/
structure Claiming (race : AtCursor) (ms : List CursorMove) (thread min desired begun now : Nat) :
    Prop where
  order : begun < now
  asked : ms[begun]? = some (.ask thread min desired)
  idle : ∃ refused, (race.during ms begun).claimants[thread]? = some (.idle refused)
  claims : ∀ n, begun < n → n ≤ now →
    ∃ phase, (race.during ms n).claimants[thread]? = some (.claiming min desired phase)

/-- A claim that was started with move `begun` and answered with move `ended`. -/
structure Completed (race : AtCursor) (ms : List CursorMove) (a : ClaimAnswer)
    (begun ended : Nat) : Prop where
  claiming : race.Claiming ms a.thread a.min a.desired begun ended
  answered : (race.during ms (ended + 1)).answers = a :: (race.during ms ended).answers

section Course

variable {race : AtCursor} {ms : List CursorMove} {n : Nat} {m : CursorMove}

@[simp] theorem during_zero (race : AtCursor) (ms : List CursorMove) : race.during ms 0 = race := by
  simp [during]

theorem during_length (race : AtCursor) (ms : List CursorMove) :
    race.during ms ms.length = race.moves ms := by
  simp [during]

theorem during_succ (next : ms[n]? = some m) :
    race.during ms (n + 1) = (race.during ms n).move m := by
  simp [during, List.take_add_one, next, moves_append]

theorem during_succ_of_done (done : ms[n]? = none) :
    race.during ms (n + 1) = race.during ms n := by
  simp [during, List.take_add_one, done]

theorem Sound.during (sound : race.Sound) (proper : ∀ m ∈ ms, m.Proper) (n : Nat) :
    (race.during ms n).Sound :=
  sound.moves fun m hm => proper m (List.mem_of_mem_take hm)

/-- From one moment to the next a move is made, or all moves are over. -/
theorem Sound.next (sound : race.Sound) (proper : ∀ m ∈ ms, m.Proper) (n : Nat) :
    race.during ms (n + 1) = race.during ms n ∨
      ∃ m, ms[n]? = some m ∧ (race.during ms n).Moved m (race.during ms (n + 1)) := by
  cases next : ms[n]? with
  | none => exact .inl (during_succ_of_done next)
  | some m =>
      refine .inr ⟨m, rfl, ?_⟩
      rw [during_succ next]
      exact (sound.during proper n).moved m

theorem Claiming.later {thread min desired begun : Nat}
    (h : race.Claiming ms thread min desired begun n) {phase : ClaimPhase}
    (still : (race.during ms (n + 1)).claimants[thread]? = some (.claiming min desired phase)) :
    race.Claiming ms thread min desired begun (n + 1) := by
  refine ⟨Nat.lt_succ_of_lt h.order, h.asked, h.idle, ?_⟩
  intro k after upto
  rcases Nat.lt_or_eq_of_le upto with earlier | rfl
  · exact h.claims k after (Nat.le_of_lt_succ earlier)
  · exact ⟨phase, still⟩

/-- A thread that claims has started that claim some time ago. -/
theorem Sound.claiming (sound : race.Sound) (proper : ∀ m ∈ ms, m.Proper)
    (idle : ∀ c ∈ race.claimants, ∃ refused, c = .idle refused) {thread min desired : Nat}
    {phase : ClaimPhase}
    (now : (race.during ms n).claimants[thread]? = some (.claiming min desired phase)) :
    ∃ begun, race.Claiming ms thread min desired begun n := by
  induction n generalizing thread min desired phase with
  | zero =>
      rw [during_zero] at now
      obtain ⟨refused, eq⟩ := idle _ (List.mem_of_getElem? now)
      cases eq
  | succ n ih =>
      rcases sound.next proper n with same | ⟨m, next, moved⟩
      · rw [same] at now
        obtain ⟨begun, h⟩ := ih now
        exact ⟨begun, h.later (same ▸ now)⟩
      · rcases moved.claiming now with ⟨phase', before⟩ | ⟨rfl, refused, before⟩
        · obtain ⟨begun, h⟩ := ih before
          exact ⟨begun, h.later now⟩
        · refine ⟨n, Nat.lt_succ_self n, next, ⟨refused, before⟩, ?_⟩
          intro k lt upto
          obtain rfl : k = n + 1 := Nat.le_antisymm upto lt
          exact ⟨phase, now⟩

theorem Sound.length (sound : race.Sound) (proper : ∀ m ∈ ms, m.Proper) (n : Nat) :
    (race.during ms n).claimants.length = race.claimants.length := by
  induction n with
  | zero => rw [during_zero]
  | succ n ih =>
      rcases sound.next proper n with same | ⟨m, -, moved⟩
      · rw [same, ih]
      · rw [moved.length, ih]

/-- A claim takes effect with the move that answers it. -/
theorem Sound.takes_effect (sound : race.Sound) (proper : ∀ m ∈ ms, m.Proper) {a : ClaimAnswer}
    {begun ended : Nat} (h : race.Completed ms a begun ended) :
    (race.during ms ended).region.claim a.min a.desired =
      .ok (a.result, (race.during ms (ended + 1)).region) := by
  have grown := h.answered
  have unequal (l : List ClaimAnswer) : l ≠ a :: l := by
    intro eq
    simpa using congrArg List.length eq
  rcases sound.next proper ended with same | ⟨m, -, moved⟩
  · rw [same] at grown
    exact (unequal _ grown).elim
  · rcases moved.served with ⟨-, same⟩ | ⟨b, answers, claimed, -⟩
    · rw [same] at grown
      exact (unequal _ grown).elim
    · obtain rfl : b = a := (List.cons.inj (answers.symm.trans grown)).1
      exact claimed

/-- Every answer completes a claim that its thread had started. -/
theorem Sound.completed (sound : race.Sound) (proper : ∀ m ∈ ms, m.Proper)
    (idle : ∀ c ∈ race.claimants, ∃ refused, c = .idle refused) (fresh : race.answers = [])
    {i : Nat} {a : ClaimAnswer} (given : (race.during ms n).answers.reverse[i]? = some a) :
    ∃ begun ended, race.Completed ms a begun ended ∧
      (race.during ms ended).answers.length = i := by
  induction n with
  | zero => simp [fresh] at given
  | succ n ih =>
      rcases sound.next proper n with same | ⟨m, -, moved⟩
      · exact ih (same ▸ given)
      · rcases moved.served with ⟨-, same⟩ | ⟨b, answers, -, phase, claiming⟩
        · exact ih (same ▸ given)
        · rw [answers, List.reverse_cons, List.getElem?_append] at given
          split at given
          · exact ih given
          · rename_i late
            have last : i - (race.during ms n).answers.length = 0 := by
              have := (List.getElem?_eq_some_iff.1 given).1
              simp only [List.length_reverse, List.length_singleton] at this
              omega
            rw [List.length_reverse, last] at given
            cases given
            obtain ⟨begun, h⟩ := sound.claiming proper idle claiming
            refine ⟨begun, n, ⟨h, answers⟩, ?_⟩
            simp only [List.length_reverse] at late
            omega

/-- The answers are those of a region that serves the claims one after another. -/
theorem Sound.serves (sound : race.Sound) (proper : ∀ m ∈ ms, m.Proper)
    (fresh : race.answers = []) (n : Nat) :
    race.region.Serves (race.during ms n).answers.reverse (race.during ms n).region := by
  induction n with
  | zero =>
      simp only [during_zero, fresh, List.reverse_nil]
      exact .nil _
  | succ n ih =>
      rcases sound.next proper n with same | ⟨m, -, moved⟩
      · rw [same]
        exact ih
      · rcases moved.served with ⟨region, answers⟩ | ⟨a, answers, claimed, -⟩
        · rw [region, answers]
          exact ih
        · rw [answers, List.reverse_cons]
          exact .concat ih claimed

end Course

end AtCursor

section Drain

/-- A claim that is started is for `words` words. -/
def CursorMove.Wants (words : Nat) : CursorMove → Prop
  | .ask _ min desired => min = words ∧ desired = words
  | .access .. => True

instance (words : Nat) (m : CursorMove) : Decidable (m.Wants words) :=
  match m with
  | .ask _ min desired => inferInstanceAs (Decidable (min = words ∧ desired = words))
  | .access .. => inferInstanceAs (Decidable True)

theorem CursorMove.Wants.proper {words : Nat} {m : CursorMove} (h : m.Wants words) :
    m.Proper := by
  cases m with
  | ask thread min desired =>
      obtain ⟨rfl, rfl⟩ := h
      exact Nat.le_refl _
  | access => trivial

/-- A claimant is after `words` words, and was refused only if fewer are left. -/
def Claimant.Seeks (words left : Nat) : Claimant → Prop
  | .idle refused => refused = true → left < words
  | .claiming min desired _ => min = words ∧ desired = words
  | .stopped _ => True

theorem Claimant.Seeks.mono {words left left' : Nat} {c : Claimant} (h : c.Seeks words left)
    (le : left' ≤ left) : c.Seeks words left' := by
  cases c with
  | idle refused => exact fun was => Nat.lt_of_le_of_lt le (h was)
  | claiming => exact h
  | stopped => trivial

/-- All claims of a race are for `words` words. -/
structure AtCursor.Seeking (words : Nat) (race : AtCursor) : Prop where
  claimants : ∀ c ∈ race.claimants, c.Seeks words race.region.left
  answers : ∀ a ∈ race.answers, a.min = words ∧ a.desired = words

namespace AtCursor

variable {words : Nat} {race race' : AtCursor} {ms : List CursorMove}

theorem Seeking.new (words : Nat) (region : Region) (threads : Nat) :
    (AtCursor.new region threads).Seeking words := by
  constructor
  · intro c hc
    rw [List.eq_of_mem_replicate hc]
    exact nofun
  · exact nofun

theorem Seeking.set {thread : Nat} {c : Claimant} (h : race.Seeking words)
    (seeks : c.Seeks words race.region.left) : (race.setClaimant thread c).Seeking words := by
  constructor
  · intro d hd
    rcases List.mem_or_eq_of_mem_set hd with old | rfl
    · exact h.claimants d old
    · exact seeks
  · exact h.answers

theorem Seeking.moved (h : race.Seeking words) (inBounds : race.region.InBounds) (pos : 0 < words)
    {m : CursorMove} (wants : m.Wants words) (moved : race.Moved m race') :
    race'.Seeking words := by
  cases moved with
  | still => exact h
  | asked idle => exact h.set wants
  | waited claiming phase' =>
      have exactly := h.claimants _ (List.mem_of_getElem? claiming)
      exact h.set exactly
  | @answered thread min desired spurious phase result region claiming claimed =>
      obtain ⟨rfl, rfl⟩ := h.claimants _ (List.mem_of_getElem? claiming)
      obtain ⟨offered, course⟩ := inBounds.claimed claimed
      have less : region.left ≤ race.region.left := by
        rcases course with ⟨-, rfl⟩ | ⟨words, -, fits, -, -, -, rfl⟩
        · exact Nat.le_refl _
        · have := Region.left_took fits
          omega
      apply Seeking.set (c := .idle _)
      · constructor
        · exact fun c hc => (h.claimants c hc).mono less
        · intro a ha
          rcases List.mem_cons.1 ha with rfl | old
          · exact ⟨rfl, rfl⟩
          · exact h.answers a old
      · intro refused
        rw [Option.isNone_iff_eq_none] at refused
        rw [refused, Region.offer] at offered
        split at offered
        · exact Nat.lt_of_le_of_lt less (by omega)
        · cases offered

theorem Seeking.during (h : race.Seeking words) (sound : race.Sound) (pos : 0 < words)
    (wants : ∀ m ∈ ms, m.Wants words) (n : Nat) : (race.during ms n).Seeking words := by
  have proper : ∀ m ∈ ms, m.Proper := fun m hm => (wants m hm).proper
  induction n with
  | zero =>
      rw [during_zero]
      exact h
  | succ n ih =>
      rcases sound.next proper n with same | ⟨m, next, moved⟩
      · rw [same]
        exact ih
      · exact ih.moved (sound.during proper n).inBounds pos
          (wants m (List.mem_of_getElem? next)) moved

/-- When all threads were refused, fewer than `words` words are left. -/
theorem Seeking.left_lt (h : race.Seeking words) (sound : race.Sound)
    (threads : 0 < race.claimants.length) (ended : race.isOver = true) :
    race.region.left < words := by
  obtain ⟨c, hc⟩ := List.exists_mem_of_length_pos threads
  have seeks := h.claimants c hc
  have finished := List.all_eq_true.1 ended c hc
  cases c with
  | idle refused => exact seeks finished
  | claiming => cases finished
  | stopped => exact (sound.notStopped _ hc).elim

end AtCursor

end Drain

namespace AtCursor

/-- Threads claim words from a region, each as often as it likes, and their accesses to the
cursor interleave. Nobody is stopped, and every claim takes effect in one step. -/
structure Linear (start : AtCursor) (ms : List CursorMove) : Prop where
  faultless : (start.moves ms).fault? = none
  /-- A claim is answered what the region offers at the move that answers it, and this is
  what the region answers a claim in one step. -/
  effect : ∀ a begun ended, start.Completed ms a begun ended →
    a.result = (start.during ms ended).region.offer a.min a.desired ∧
      (start.during ms ended).region.claim a.min a.desired =
        .ok (a.result, (start.during ms (ended + 1)).region)
  /-- All answers are those of completed claims, in the order of their effects. -/
  completed : ∀ i a, (start.moves ms).answers.reverse[i]? = some a →
    ∃ begun ended, start.Completed ms a begun ended ∧
      (start.during ms ended).answers.length = i
  serves : start.region.Serves (start.moves ms).answers.reverse (start.moves ms).region
  tiles : Tiles start.region.wordBytes start.region.top
    ((start.moves ms).answers.reverse.filterMap ClaimAnswer.result) (start.moves ms).region.top
  /-- Each span ends before the later ones begin. -/
  ordered : ((start.moves ms).answers.reverse.filterMap ClaimAnswer.result).Pairwise fun s t =>
    s.start + s.words * start.region.wordBytes ≤ t.start
  inside : start.region.bottom ≤ start.region.top ∧
    (start.moves ms).region.top ≤ start.region.limit ∧
      (start.moves ms).region = { start.region with top := (start.moves ms).region.top }

/-- Whatever the commands a region was given and whatever threads claim from it, the claims
take effect one after another. If all are for the same number of words and all threads go
on until they are refused, as many claims succeed as fit, whatever the interleaving. -/
theorem linearizable {index bottom words wordBytes : Nat} {fresh : Region}
    (built : Region.new index bottom words wordBytes = .ok fresh) (word : 0 < wordBytes)
    (commands : List Region.Command) (threads : Nat) (ms : List CursorMove)
    (proper : ∀ m ∈ ms, m.Proper) :
    let region := fresh.after commands
    let race := (AtCursor.new region threads).moves ms
    (AtCursor.new region threads).Linear ms ∧
      ∀ size, 0 < size → 0 < threads → (∀ m ∈ ms, m.Wants size) → race.isOver = true →
        (race.answers.filterMap ClaimAnswer.result).length = region.left / size ∧
          race.region.top = region.top + region.left / size * (size * region.wordBytes) := by
  intro region race
  have inBounds : region.InBounds := (Region.InBounds.of_new built word).after commands
  have sound := Sound.new inBounds threads
  have idle : ∀ c ∈ (AtCursor.new region threads).claimants, ∃ refused, c = .idle refused :=
    fun c hc => ⟨false, List.eq_of_mem_replicate hc⟩
  have final := during_length (AtCursor.new region threads) ms
  have serves : region.Serves race.answers.reverse race.region := by
    have := sound.serves proper rfl ms.length
    rwa [final] at this
  have tiles := serves.tiles inBounds
  have stands := serves.inBounds inBounds
  have frame := serves.frame inBounds
  constructor
  · constructor
    · exact (sound.moves proper).fault?_eq_none
    · intro a begun ended h
      have took := sound.takes_effect proper h
      exact ⟨((sound.during proper ended).inBounds.claimed took).1, took⟩
    · intro i a given
      rw [← final] at given
      exact sound.completed proper idle rfl given
    · exact serves
    · exact tiles
    · exact tiles.ordered
    · refine ⟨inBounds.bottom_le, ?_, frame⟩
      have below := stands.le_limit
      rwa [frame] at below
  · intro size pos some wants isOver
    have seeking : race.Seeking size := by
      have := (Seeking.new size region threads).during sound pos wants ms.length
      rwa [final] at this
    have length : race.claimants.length = threads := by
      have := sound.length proper ms.length
      rw [final] at this
      exact this.trans List.length_replicate
    have few := seeking.left_lt (sound.moves proper) (length ▸ some) isOver
    obtain ⟨count, top⟩ := serves.full inBounds
      (fun a ha => seeking.answers a (List.mem_reverse.1 ha)) few
    refine ⟨?_, top⟩
    simpa [List.filterMap_reverse] using count

/-- Two threads claim two words at a time of a region of which one word was taken. One of
them meets an exchange that fails for no reason, and one before which the other was
answered. -/
theorem linearizable_small :
    let fresh : Region :=
      { index := 0, bottom := 4096, top := 4096, limit := 4152, wordBytes := 8, marker := none,
        fillers := [] }
    let region := fresh.after [.take 1]
    let ms : List CursorMove := [.ask 0 2 2, .ask 1 2 2, .access 0 false, .access 1 false,
      .access 0 true, .access 1 false, .access 0 false, .access 0 false, .ask 0 2 2,
      .access 0 false, .access 0 false, .ask 0 2 2, .ask 1 2 2, .access 0 false, .access 1 false]
    let race := (AtCursor.new region 2).moves ms
    race.answers.reverse.map (fun a => (a.thread, a.result)) =
        [(1, some ⟨4104, 2⟩), (0, some ⟨4120, 2⟩), (0, some ⟨4136, 2⟩), (0, none), (1, none)] ∧
      (AtCursor.new region 2).Linear ms ∧
        (race.answers.filterMap ClaimAnswer.result).length = region.left / 2 := by
  intro fresh region ms race
  have built : Region.new 0 4096 7 8 = .ok fresh := by decide +kernel
  obtain ⟨linear, drained⟩ :=
    linearizable built (by decide) [.take 1] 2 ms (by decide +kernel)
  refine ⟨by decide +kernel, linear, ?_⟩
  exact (drained 2 (by decide) (by decide) (by decide +kernel) (by decide +kernel)).1

/-- A claim that desires no word is refused, though at no moment of it too few are left. -/
theorem no_word_desired :
    let region : Region :=
      { index := 0, bottom := 4096, top := 4096, limit := 4128, wordBytes := 8, marker := none,
        fillers := [] }
    let start := AtCursor.new region 1
    let ms : List CursorMove := [.ask 0 0 0, .access 0 false]
    let a : ClaimAnswer := { thread := 0, min := 0, desired := 0, result := none }
    Region.new 0 4096 4 8 = .ok region ∧ start.Completed ms a 0 1 ∧
      ∀ n ≤ ms.length,
        let found := (start.during ms n).region
        a.result ≠ if found.left < max a.min 1 then none
          else some { start := found.top, words := Nat.min found.left a.desired } := by
  intro region start ms a
  refine ⟨by decide +kernel, ⟨⟨by decide, rfl, ⟨false, by decide +kernel⟩, ?_⟩, by decide +kernel⟩,
    by decide +kernel⟩
  intro n after upto
  obtain rfl : n = 1 := Nat.le_antisymm upto after
  exact ⟨.unread, by decide +kernel⟩

end AtCursor

end Race

end RegionHeap
