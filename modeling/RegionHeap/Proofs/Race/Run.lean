import RegionHeap.Proofs.Race.Install

/-!
# Runs of a race

Every thread of a race stands at some point of a program that assures what it is answered.
A move of one thread is a step that the others can rely on, so all of them keep standing
where they stood, and the scene stays safe whatever the order of the moves.
-/

namespace RegionHeap.Race

open Scene

/-- A thread is on its way to `post`, with nothing lost of what it had taken before. -/
structure Underway (a : Arena) (base : Supply) (thread : Nat) (locked : Bool)
    (before : List Span) (program : Program (Option Span)) (z : Scene)
    (post : Option Span → Scene → Prop) : Prop where
  begun : before <:+ (z.mine thread).map Taking.span
  assured : ∃ z₀, Rely a base thread locked z₀ z ∧
    Assures a base thread locked program z₀ post

namespace Underway

variable {a : Arena} {base : Supply} {thread : Nat} {locked : Bool} {before : List Span}
  {z z' : Scene} {post : Option Span → Scene → Prop}

theorem start {program : Program (Option Span)}
    (settled : (z.mine thread).map Taking.span = before)
    (assured : Assures a base thread locked program z post) :
    Underway a base thread locked before program z post :=
  ⟨settled ▸ List.suffix_refl _, z, .refl a base thread locked z, assured⟩

theorem rely {program : Program (Option Span)}
    (h : Underway a base thread locked before program z post)
    (rely : Rely a base thread locked z z') :
    Underway a base thread locked before program z' post := by
  obtain ⟨z₀, from₀, assured⟩ := h.assured
  exact ⟨rely.mine ▸ h.begun, z₀, from₀.trans rely, assured⟩

theorem not_fail {fault : Fault}
    (h : Underway a base thread locked before (.fail fault) z post) : False := by
  obtain ⟨z₀, -, assured⟩ := h.assured
  exact assured

theorem done {result : Option Span}
    (h : Underway a base thread locked before (.done result) z post) :
    ∃ z₀, Rely a base thread locked z₀ z ∧ post result z₀ :=
  h.assured

/-- A step of a thread on its way is no fault, and it stays on its way. -/
theorem step {st : Step} {next : st.Answer → Program (Option Span)}
    (h : Underway a base thread locked before (.step st next) z post) (safe : z.Safe a base)
    {s : Store} (registers : s.registers = z.registers) (heap : s.heap = z.heap)
    (phase : ClaimPhase) (spurious : Bool) :
    ∃ (flight : Flight) (s' : Store) (book : List Taking),
      ({ program := .step st next, phase } : Flight).step s spurious = .ok (flight, s') ∧
        Safe a base { registers := s'.registers, heap := s'.heap, book } ∧
          Guar a base thread locked z { registers := s'.registers, heap := s'.heap, book } ∧
            Underway a base thread locked before flight.program
              { registers := s'.registers, heap := s'.heap, book } post := by
  obtain ⟨z₀, from₀, assured⟩ := h.assured
  obtain ⟨answer, s', book, performed, safe', guar, rest⟩ := assured z safe from₀ s.transcript
  have same : z.store s.transcript = s := by
    rw [Scene.store, ← registers, ← heap]
  rw [same] at performed
  have noRivals : s.heap.NoRivals := heap ▸ safe.noRivals
  rcases Flight.step_of_perform noRivals next performed phase spurious with
    ⟨phase', stays⟩ | endsBy
  · refine ⟨_, s, z.book, stays, ?_⟩
    rw [registers, heap]
    exact ⟨safe, .refl a base thread locked z, h.begun, z₀, from₀, assured⟩
  · refine ⟨_, s', book, endsBy, safe', guar, ?_, _, .refl a base thread locked _, rest⟩
    exact h.begun.trans ((guar.grows.book.filter _).map _)

end Underway

/-- What a thread is answered is as it wished. -/
def WishAnswer.Fits (ans : WishAnswer) : Prop :=
  ∀ span, ans.result = some span → ans.wish.min ≤ span.words ∧ span.words ≤ ans.wish.desired

/-- A thread wishes for sizes that it can wish for. -/
def SharedMove.Apt (a : Arena) : SharedMove → Prop
  | .ask _ wish => wish.Apt a
  | .step .. => True

instance (a : Arena) : DecidablePred (SharedMove.Apt a)
  | .ask _ wish => inferInstanceAs (Decidable (wish.Apt a))
  | .step .. => .isTrue trivial

namespace Shared

/-- The spans that a thread was answered, the latest first. -/
def answered (r : Shared) (thread : Nat) : List Span :=
  (r.answers.filter fun ans => ans.thread = thread).filterMap WishAnswer.result

/-- The scene of the race, if so much was taken. -/
def scene (r : Shared) (book : List Taking) : Scene :=
  { registers := r.store.registers, heap := r.store.heap, book }

/-- How a thread stands to what it has taken. -/
def Standing (base : Supply) (r : Shared) (z : Scene) (thread : Nat) : Option Thread → Prop
  | none | some (.idle _) => (z.mine thread).map Taking.span = r.answered thread
  | some (.waiting wish) =>
      wish.Apt r.arena ∧ (z.mine thread).map Taking.span = r.answered thread
  | some (.unlocked wish flight) =>
      wish.Apt r.arena ∧ Underway r.arena base thread false (r.answered thread) flight.program z
        (wish.Got thread (r.answered thread))
  | some (.locked wish flight) =>
      r.holder = some thread ∧
        Underway r.arena base thread true (r.answered thread) flight.program z
          fun result z' => wish.Got thread (r.answered thread) result z' ∧ Rest r.arena base z'
  | some (.stopped _) => False

/-- The race is as it should be, with this book of what was taken. -/
structure Sound (base : Supply) (r : Shared) (book : List Taking) : Prop where
  safe : (r.scene book).Safe r.arena base
  standing : ∀ thread, r.Standing base (r.scene book) thread r.threads[thread]?
  rest : r.holder = none → Rest r.arena base (r.scene book)
  fits : ∀ ans ∈ r.answers, ans.Fits

variable {base : Supply} {r r' : Shared} {book book' : List Taking} {thread : Nat}
  {locked : Bool}

/-- A thread does not see what another one does, unless both have the lock. -/
theorem Standing.of_guar {z z' : Scene} {other : Nat} {t : Option Thread}
    (h : r.Standing base z other t) (arena : r'.arena = r.arena)
    (answered : r'.answered other = r.answered other)
    (guar : Guar r.arena base thread locked z z') (ne : other ≠ thread)
    (keeps : r.holder = some other → locked = false ∧ r'.holder = some other) :
    r'.Standing base z' other t := by
  match t with
  | none | some (.idle _) =>
      refine Eq.trans ?_ (h.trans answered.symm)
      rw [guar.others other ne]
  | some (.waiting wish) =>
      refine ⟨arena ▸ h.1, Eq.trans ?_ (h.2.trans answered.symm)⟩
      rw [guar.others other ne]
  | some (.unlocked wish flight) =>
      refine ⟨arena ▸ h.1, ?_⟩
      rw [arena, answered]
      exact h.2.rely (guar.rely ne fun both => nomatch both.2)
  | some (.locked wish flight) =>
      obtain ⟨holds, underway⟩ := h
      obtain ⟨unlocked, holds'⟩ := keeps holds
      refine ⟨holds', ?_⟩
      rw [arena, answered]
      exact underway.rely (guar.rely ne fun both => nomatch unlocked.symm.trans both.1)
  | some (.stopped _) => exact h

/-- A move of one thread keeps the race sound if the thread itself stands as it should. -/
theorem Sound.of_guar (h : r.Sound base book) {t : Thread}
    (threads : r'.threads = r.threads.set thread t) (there : thread < r.threads.length)
    (arena : r'.arena = r.arena)
    (answered : ∀ other, other ≠ thread → r'.answered other = r.answered other)
    (safe : (r'.scene book').Safe r.arena base)
    (guar : Guar r.arena base thread locked (r.scene book) (r'.scene book'))
    (keeps : ∀ other, other ≠ thread → r.holder = some other →
      locked = false ∧ r'.holder = some other)
    (stands : r'.Standing base (r'.scene book') thread (some t))
    (rest : r'.holder = none → Rest r.arena base (r'.scene book'))
    (fits : ∀ ans ∈ r'.answers, ans.Fits) : r'.Sound base book' where
  safe := arena ▸ safe
  standing := fun other => by
    rw [threads]
    by_cases eq : other = thread
    · subst eq
      rw [List.getElem?_set_self there]
      exact stands
    · rw [List.getElem?_set_ne (Ne.symm eq)]
      exact (h.standing other).of_guar arena (answered other eq) guar eq (keeps other eq)
  rest := arena ▸ rest
  fits := fits

theorem answered_answer_self (r : Shared) (thread : Nat) (wish : Wish) (underLock : Bool)
    (result : Option Span) :
    (r.answer thread wish underLock result).answered thread =
      result.toList ++ r.answered thread := by
  cases result <;> simp [answered, answer, setThread]

theorem answered_answer_of_ne {other : Nat} (ne : other ≠ thread) (wish : Wish)
    (underLock : Bool) (result : Option Span) :
    (r.answer thread wish underLock result).answered other = r.answered other := by
  simp [answered, answer, setThread, Ne.symm ne]

/-- A thread is answered what it has taken. -/
theorem Sound.answer {z : Scene} {wish : Wish} {result : Option Span}
    (fits : ∀ ans ∈ r.answers, ans.Fits) (got : wish.Got thread (r.answered thread) result z)
    (underLock : Bool) :
    (∀ ans ∈ (r.answer thread wish underLock result).answers, ans.Fits) ∧
      (z.mine thread).map Taking.span =
        (r.answer thread wish underLock result).answered thread := by
  refine ⟨?_, got.spans.trans (answered_answer_self r thread wish underLock result).symm⟩
  rintro ans (_ | ⟨_, old⟩)
  · exact got.sizes
  · exact fits ans old

/-- A step of a thread without the lock keeps the race sound. -/
theorem Sound.stepUnlocked (h : r.Sound base book) {wish : Wish} {flight : Flight}
    (here : r.threads[thread]? = some (.unlocked wish flight)) (spurious : Bool) :
    ∃ book', (r.stepUnlocked thread wish flight spurious).Sound base book' ∧
      Grows base (r.scene book) ((r.stepUnlocked thread wish flight spurious).scene book') := by
  have there := (List.getElem?_eq_some_iff.1 here).1
  have stands := h.standing thread
  rw [here] at stands
  obtain ⟨apt, underway⟩ := stands
  rcases flight with ⟨program, phase⟩
  cases program with
  | fail fault => exact underway.not_fail.elim
  | done result =>
      obtain ⟨z₀, from₀, got₀⟩ := underway.done
      have got := got₀.rely from₀
      cases result with
      | none =>
          refine ⟨book, ?_, .refl _ _⟩
          change (r.setThread thread (.waiting wish)).Sound base book
          exact h.of_guar rfl there rfl (fun _ _ => rfl) h.safe (.refl _ _ _ false _)
            (fun _ _ holds => ⟨rfl, holds⟩) ⟨apt, got.spans⟩ h.rest h.fits
      | some span =>
          obtain ⟨fits, settled⟩ := Sound.answer h.fits got false
          refine ⟨book, ?_, .refl _ _⟩
          change (r.answer thread wish false (some span)).Sound base book
          exact h.of_guar rfl there rfl
            (fun _ ne => answered_answer_of_ne ne wish false (some span)) h.safe
            (.refl _ _ _ false _) (fun _ _ holds => ⟨rfl, holds⟩) settled h.rest fits
  | step st next =>
      obtain ⟨flight', s', book', stepped, safe, guar, underway'⟩ :=
        underway.step h.safe (s := r.store) rfl rfl phase spurious
      have moved : r.stepUnlocked thread wish { program := .step st next, phase } spurious =
          { r with store := s' }.setThread thread (.unlocked wish flight') := by
        simp only [Shared.stepUnlocked, stepped]
      rw [moved]
      refine ⟨book', h.of_guar rfl there rfl (fun _ _ => rfl) safe guar
        (fun _ _ holds => ⟨rfl, holds⟩) ⟨apt, underway'⟩ (fun free => ?_) h.fits, guar.grows⟩
      exact (h.rest free).still guar.grows (guar.still rfl)

/-- A step of the thread with the lock keeps the race sound. -/
theorem Sound.stepLocked (h : r.Sound base book) {wish : Wish} {flight : Flight}
    (here : r.threads[thread]? = some (.locked wish flight)) (spurious : Bool) :
    ∃ book', (r.stepLocked thread wish flight spurious).Sound base book' ∧
      Grows base (r.scene book) ((r.stepLocked thread wish flight spurious).scene book') := by
  have there := (List.getElem?_eq_some_iff.1 here).1
  have stands := h.standing thread
  rw [here] at stands
  obtain ⟨holds, underway⟩ := stands
  have alone {locked : Bool} {holder : Option Nat} (other : Nat) (ne : other ≠ thread)
      (also : r.holder = some other) : locked = false ∧ holder = some other :=
    absurd (Option.some.inj (also.symm.trans holds)) ne
  rcases flight with ⟨program, phase⟩
  cases program with
  | fail fault => exact underway.not_fail.elim
  | done result =>
      obtain ⟨z₀, from₀, got₀, rest₀⟩ := underway.done
      obtain ⟨fits, settled⟩ := Sound.answer (r := { r with holder := none }) h.fits
        (got₀.rely from₀) true
      refine ⟨book, ?_, .refl _ _⟩
      change (Shared.answer { r with holder := none } thread wish true result).Sound base book
      exact h.of_guar rfl there rfl (fun _ ne => answered_answer_of_ne ne wish true result) h.safe
        (.refl _ _ _ false _) alone settled (fun _ => rest₀.rely from₀) fits
  | step st next =>
      obtain ⟨flight', s', book', stepped, safe, guar, underway'⟩ :=
        underway.step h.safe (s := r.store) rfl rfl phase spurious
      have moved : r.stepLocked thread wish { program := .step st next, phase } spurious =
          { r with store := s' }.setThread thread (.locked wish flight') := by
        simp only [Shared.stepLocked, stepped]
      rw [moved]
      exact ⟨book', h.of_guar rfl there rfl (fun _ _ => rfl) safe guar alone ⟨holds, underway'⟩
        (fun free => nomatch holds.symm.trans free) h.fits, guar.grows⟩

/-- A wish is begun without the lock. -/
theorem Sound.ask (h : r.Sound base book) {wish : Wish} {refused : Bool}
    (here : r.threads[thread]? = some (.idle refused)) (apt : wish.Apt r.arena) :
    (r.setThread thread (.unlocked wish { program := wish.unlocked r.arena })).Sound base
      book := by
  have settled := h.standing thread
  rw [here] at settled
  exact h.of_guar rfl (List.getElem?_eq_some_iff.1 here).1 rfl (fun _ _ => rfl) h.safe
    (.refl _ _ _ false _) (fun _ _ holds => ⟨rfl, holds⟩)
    ⟨apt, .start settled (unlocked_assures apt ⟨settled, nofun⟩)⟩ h.rest h.fits

/-- A thread takes the lock and finds the arena at rest. -/
theorem Sound.lock (h : r.Sound base book) {wish : Wish}
    (here : r.threads[thread]? = some (.waiting wish)) (free : r.holder = none) :
    ({ r with holder := some thread }.setThread thread
      (.locked wish { program := wish.locked r.arena })).Sound base book := by
  have stands := h.standing thread
  rw [here] at stands
  obtain ⟨apt, settled⟩ := stands
  exact h.of_guar rfl (List.getElem?_eq_some_iff.1 here).1 rfl (fun _ _ => rfl) h.safe
    (.refl _ _ _ false _) (fun _ _ holds => nomatch free.symm.trans holds)
    ⟨rfl, .start settled (locked_assures apt ⟨settled, nofun⟩ (h.rest free))⟩
    (fun none => nomatch none) h.fits

theorem move_arena (r : Shared) (m : SharedMove) : (r.move m).arena = r.arena := by
  cases m with
  | ask thread wish =>
      simp only [move]
      split <;> rfl
  | step thread spurious =>
      simp only [move]
      split
      · rename_i wish flight _
        simp only [Shared.stepUnlocked]
        split
        · rfl
        · rfl
        · split <;> rfl
      · rename_i wish flight _
        simp only [Shared.stepLocked]
        split
        · rfl
        · split <;> rfl
      · split <;> rfl
      · rfl

theorem moves_arena (r : Shared) (ms : List SharedMove) : (r.moves ms).arena = r.arena := by
  induction ms generalizing r with
  | nil => rfl
  | cons m ms ih => exact (ih (r.move m)).trans (move_arena r m)

/-- Every move keeps the race sound. -/
theorem Sound.move (h : r.Sound base book) {m : SharedMove} (apt : m.Apt r.arena) :
    ∃ book', (r.move m).Sound base book' ∧
      Grows base (r.scene book) ((r.move m).scene book') := by
  have stays : ∃ book', r.Sound base book' ∧ Grows base (r.scene book) (r.scene book') :=
    ⟨book, h, .refl _ _⟩
  cases m with
  | ask thread wish =>
      simp only [Shared.move]
      split
      · rename_i refused here
        exact ⟨book, h.ask here apt, .refl _ _⟩
      · exact stays
  | step thread spurious =>
      simp only [Shared.move]
      split
      · rename_i wish flight here
        exact h.stepUnlocked here spurious
      · rename_i wish flight here
        exact h.stepLocked here spurious
      · rename_i wish here
        split
        · rename_i free
          exact ⟨book, h.lock here free, .refl _ _⟩
        · exact stays
      · exact stays

/-- Every run keeps the race sound. -/
theorem Sound.moves (h : r.Sound base book) {ms : List SharedMove}
    (apt : ∀ m ∈ ms, m.Apt r.arena) :
    ∃ book', (r.moves ms).Sound base book' ∧
      Grows base (r.scene book) ((r.moves ms).scene book') := by
  induction ms generalizing r book with
  | nil => exact ⟨book, h, .refl _ _⟩
  | cons m ms ih =>
      obtain ⟨book₁, h₁, grows₁⟩ := h.move (apt m List.mem_cons_self)
      obtain ⟨book₂, h₂, grows₂⟩ := ih h₁ fun m' hm =>
        (move_arena r m).symm ▸ apt m' (List.mem_cons_of_mem m hm)
      exact ⟨book₂, h₂, grows₁.trans grows₂⟩

/-- A race starts sound on an orderly heap where nobody waits, if the arena was just
started. -/
theorem Sound.new {a : Arena} {s : Store} (suits : a.Suits s.heap.supply.geometry)
    {held : List Nat} (order : s.heap.Orderly held) (noRivals : s.heap.NoRivals)
    (active : s.registers.active = some .sentinel) (retained : s.registers.retained = none)
    (threads : Nat) : (Shared.new a s threads).Sound s.heap.supply [] := by
  have granted {i : Nat} : i ∉ ((Shared.new a s threads).scene []).granted s.heap.supply := by
    simp [Scene.granted, Supply.grantedSince, Shared.scene, Shared.new]
  have returns : ((Shared.new a s threads).scene []).returns s.heap.supply = [] := by
    simp [Scene.returns, Supply.returnsSince, Shared.scene, Shared.new]
  have holding : Holding s.heap.supply [] ((Shared.new a s threads).scene []) := {
    nodup := List.nodup_nil
    usable := List.forall_mem_nil _
    out := List.forall_mem_nil _
    plugs := List.forall_mem_nil _ }
  have idle {place : Place} : s.registers.retained ≠ some place := by
    rw [retained]
    exact (Option.some_ne_none place).symm
  refine ⟨?_, fun thread => ?_, fun _ => ⟨?_, fun _ _ => .inl active, ?_⟩, List.forall_mem_nil _⟩
  · exact {
      suits := suits
      order := order.sublist (List.nil_sublist held)
      noRivals := noRivals
      follows := ⟨Nat.le_refl _, Nat.le_refl _, Nat.le_refl _⟩
      active := ⟨.sentinel, active, trivial⟩
      retained := fun place here => absurd here idle
      granted := fun i hi => absurd hi granted
      once := by
        rw [returns]
        exact List.nodup_nil
      returned := fun q hq => by
        rw [returns] at hq
        cases hq
      inside := List.forall_mem_nil _
      apart := List.Pairwise.nil
      total := fun i hi => absurd hi granted
      fillers := fun i hi => absurd hi granted }
  · change Shared.Standing _ _ _ _ (List.replicate threads (Thread.idle false))[thread]?
    rw [List.getElem?_replicate]
    split <;> rfl
  · have none : (Shared.new a s threads).store.registers.regions = [] := by
      simp [Shared.new, Registers.regions, active, retained]
    exact none ▸ holding
  · exact fun kept => absurd kept idle

end Shared

end RegionHeap.Race
