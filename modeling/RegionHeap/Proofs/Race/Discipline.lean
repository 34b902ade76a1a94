import RegionHeap.Proofs.Race.Outcome

/-!
# Disciplines

A discipline says what threads that share an arena may do, and what each of them can rely on
meanwhile. If the attempts of the threads obey it, whatever it promises holds at every moment
of every run: a move of one thread is a step that the others can rely on.
-/

namespace RegionHeap.Race

/-- A discipline of threads that share an arena. A view is what there is to know of the race
at some moment, be it in the store or written down for the sake of a proof. -/
structure Discipline (View : Type) where
  registers : View → Registers
  heap : View → Heap
  /-- What each thread has taken, the latest first. -/
  mine : View → Nat → List Span
  /-- The wishes that threads may make. -/
  Apt : Wish → Prop
  /-- All is as it should be at this moment. -/
  Safe : View → Prop
  /-- What a thread, with the lock or without it, can rely on between its steps. -/
  Rely : Nat → Bool → View → View → Prop
  /-- What a thread does at most in one step. -/
  Guar : Nat → Bool → View → View → Prop
  /-- What holds besides while nobody has the lock. -/
  Rest : View → Prop
  /-- What a thread knows that was refused under the lock. -/
  Refused : View → Prop
  noRivals : ∀ {v}, Safe v → (heap v).NoRivals
  guar_refl : ∀ thread locked v, Guar thread locked v v
  rely_refl : ∀ thread locked v, Rely thread locked v v
  rely_trans : ∀ {thread locked v v' v''}, Rely thread locked v v' → Rely thread locked v' v'' →
    Rely thread locked v v''
  rely_of_guar : ∀ {thread other locked locked' v v'}, Guar thread locked v v' →
    other ≠ thread → ¬ (locked = true ∧ locked' = true) → Rely other locked' v v'
  mine_of_rely : ∀ {thread locked v v'}, Rely thread locked v v' → mine v' thread = mine v thread
  rest_of_rely : ∀ {thread v v'}, Rely thread true v v' → Rest v → Rest v'
  rest_of_guar : ∀ {thread v v'}, Guar thread false v v' → Rest v → Rest v'
  refused_of_rely : ∀ {thread locked v v'}, Rely thread locked v v' → Safe v' → Refused v →
    Refused v'

namespace Discipline

variable {View : Type} {α β : Type}

/-- The store of a view after so much was said. -/
def store (D : Discipline View) (v : View) (said : List Entry) : Store :=
  { registers := D.registers v, heap := D.heap v, transcript := said }

/-- The store that a view is of, but for what was said. -/
structure Shows (D : Discipline View) (v : View) (s : Store) : Prop where
  registers : D.registers v = s.registers
  heap : D.heap v = s.heap

/-- From the view on, the program of the thread ends without a fault, with a value and a view
as required. Between its steps the others do what the thread relies on. -/
def Assures (D : Discipline View) (thread : Nat) (locked : Bool) :
    Program α → View → (α → View → Prop) → Prop
  | .done value, v, post => post value v
  | .fail _, _, _ => False
  | .step st next, v, post => ∀ v₁, D.Safe v₁ → D.Rely thread locked v v₁ →
      ∀ said, ∃ answer s v₂, st.perform (D.store v₁ said) = .ok (answer, s) ∧ D.Shows v₂ s ∧
        D.Safe v₂ ∧ D.Guar thread locked v₁ v₂ ∧ D.Assures thread locked (next answer) v₂ post

namespace Assures

variable {D : Discipline View} {thread : Nat} {locked : Bool} {v : View} {x : Program α}

theorem mono {post post' : α → View → Prop} (h : D.Assures thread locked x v post)
    (le : ∀ {value v'}, post value v' → post' value v') : D.Assures thread locked x v post' := by
  induction x generalizing v with
  | done value => exact le h
  | fail fault => exact h
  | step st next ih =>
      intro v₁ safe rely said
      obtain ⟨answer, s, v₂, performed, shows, safe', guar, rest⟩ := h v₁ safe rely said
      exact ⟨answer, s, v₂, performed, shows, safe', guar, ih answer rest⟩

/-- A sequence goes on where its first part has ended. -/
theorem bind {f : α → Program β} {post : β → View → Prop}
    (h : D.Assures thread locked x v fun value v' => D.Assures thread locked (f value) v' post) :
    D.Assures thread locked (x >>= f) v post := by
  induction x generalizing v with
  | done value => exact h
  | fail fault => exact h.elim
  | step st next ih =>
      intro v₁ safe rely said
      obtain ⟨answer, s, v₂, performed, shows, safe', guar, rest⟩ := h v₁ safe rely said
      exact ⟨answer, s, v₂, performed, shows, safe', guar, ih answer rest⟩

theorem pure {value : α} {post : α → View → Prop} (h : post value v) :
    D.Assures thread locked (Pure.pure value) v post :=
  h

/-- A step that only looks, or speaks. -/
theorem quiet {st : Step} (value : View → st.Answer) {post : st.Answer → View → Prop}
    (same : ∀ (v : View) (said : List Entry),
      ∃ said', st.perform (D.store v said) = .ok (value v, D.store v said'))
    (h : ∀ v₁, D.Safe v₁ → D.Rely thread locked v v₁ → post (value v₁) v₁) :
    D.Assures thread locked (Program.perform st) v post := by
  intro v₁ safe rely said
  obtain ⟨said', performed⟩ := same v₁ said
  exact ⟨value v₁, D.store v₁ said', v₁, performed, ⟨rfl, rfl⟩, safe,
    D.guar_refl thread locked v₁, h v₁ safe rely⟩

theorem active {post : Option Place → View → Prop}
    (h : ∀ v₁, D.Safe v₁ → D.Rely thread locked v v₁ → post (D.registers v₁).active v₁) :
    D.Assures thread locked Program.active v post :=
  quiet (fun v => (D.registers v).active) (fun _ said => ⟨said, rfl⟩) h

theorem tell {a : Arena} {moment : Moment} {post : Unit → View → Prop}
    (h : ∀ v₁, D.Safe v₁ → D.Rely thread locked v v₁ → post () v₁) :
    D.Assures thread locked (a.tell moment) v post :=
  quiet (fun _ => ()) (fun v said =>
    ⟨said ++ [.event ((D.store v said).event a.name moment none)], rfl⟩) h

theorem tellSizes {a : Arena} {moment : Moment} {min desired : Nat} {result : Option Span}
    {post : Unit → View → Prop}
    (h : ∀ v₁, D.Safe v₁ → D.Rely thread locked v v₁ → post () v₁) :
    D.Assures thread locked (a.tellSizes moment min desired result) v post :=
  quiet (fun _ => ()) (fun v said =>
    ⟨said ++ [.event ((D.store v said).event a.name moment (some {
      min
      desired
      actual := (result.map Span.words).getD 0
      result := result.map Span.start }))], rfl⟩) h

end Assures

/-- The attempts of the threads obey the discipline. -/
structure Obeyed (D : Discipline View) (a : Arena) : Prop where
  unlocked : ∀ (wish : Wish) (thread : Nat) (v : View), D.Apt wish →
    D.Assures thread false (wish.unlocked a) v fun result v' =>
      D.mine v' thread = result.toList ++ D.mine v thread
  locked : ∀ (wish : Wish) (thread : Nat) (v : View), D.Apt wish → D.Rest v →
    D.Assures thread true (wish.locked a) v fun result v' =>
      D.mine v' thread = result.toList ++ D.mine v thread ∧ D.Rest v' ∧
        (result = none → D.Refused v')

/-- A thread is on its way to what its program assures. -/
def Underway (D : Discipline View) (thread : Nat) (locked : Bool)
    (program : Program (Option Span)) (v : View) (post : Option Span → View → Prop) : Prop :=
  ∃ v₀, D.Rely thread locked v₀ v ∧ D.Assures thread locked program v₀ post

namespace Underway

variable {D : Discipline View} {thread : Nat} {locked : Bool} {v v' : View}
  {post : Option Span → View → Prop}

theorem start {program : Program (Option Span)} (assured : D.Assures thread locked program v post) :
    D.Underway thread locked program v post :=
  ⟨v, D.rely_refl thread locked v, assured⟩

theorem rely {program : Program (Option Span)} (h : D.Underway thread locked program v post)
    (rely : D.Rely thread locked v v') : D.Underway thread locked program v' post := by
  obtain ⟨v₀, from₀, assured⟩ := h
  exact ⟨v₀, D.rely_trans from₀ rely, assured⟩

/-- A step of a thread on its way is no fault, and it stays on its way. -/
theorem step {st : Step} {next : st.Answer → Program (Option Span)}
    (h : D.Underway thread locked (.step st next) v post) (safe : D.Safe v) {s : Store}
    (shows : D.Shows v s) (phase : ClaimPhase) (spurious : Bool) :
    ∃ (flight : Flight) (s' : Store) (v' : View),
      ({ program := .step st next, phase } : Flight).step s spurious = .ok (flight, s') ∧
        D.Shows v' s' ∧ D.Safe v' ∧ D.Guar thread locked v v' ∧
          D.Underway thread locked flight.program v' post := by
  obtain ⟨v₀, from₀, assured⟩ := h
  obtain ⟨answer, s', v', performed, shows', safe', guar, rest⟩ :=
    assured v safe from₀ s.transcript
  have same : D.store v s.transcript = s := by
    rw [store, shows.registers, shows.heap]
  rw [same] at performed
  have noRivals : s.heap.NoRivals := shows.heap ▸ D.noRivals safe
  rcases Flight.step_of_perform noRivals next performed phase spurious with
    ⟨phase', stays⟩ | endsBy
  · exact ⟨_, s, v, stays, shows, safe, D.guar_refl thread locked v, v₀, from₀, assured⟩
  · exact ⟨_, s', v', endsBy, shows', safe', guar, .start rest⟩

end Underway

end Discipline

namespace Shared

variable {View : Type} {D : Discipline View} {r r' : Shared} {v v' : View} {thread : Nat}
  {locked : Bool}

/-- How a thread stands under a discipline. -/
def Stands (D : Discipline View) (r : Shared) (v : View) (thread : Nat) : Option Thread → Prop
  | none => D.mine v thread = r.answered thread
  | some (.idle refused) =>
      D.mine v thread = r.answered thread ∧ (refused = true → D.Refused v)
  | some (.waiting wish) => D.Apt wish ∧ D.mine v thread = r.answered thread
  | some (.unlocked wish flight) =>
      D.Apt wish ∧ D.Underway thread false flight.program v fun result v' =>
        D.mine v' thread = result.toList ++ r.answered thread
  | some (.locked _ flight) =>
      r.holder = some thread ∧ D.Underway thread true flight.program v fun result v' =>
        D.mine v' thread = result.toList ++ r.answered thread ∧ D.Rest v' ∧
          (result = none → D.Refused v')
  | some (.stopped _) => False

/-- The race goes by the discipline, and this is a view of it. -/
structure Disciplined (D : Discipline View) (r : Shared) (v : View) : Prop where
  shows : D.Shows v r.store
  safe : D.Safe v
  stands : ∀ thread, r.Stands D v thread r.threads[thread]?
  held : ∀ thread, r.holder = some thread →
    ∃ wish flight, r.threads[thread]? = some (.locked wish flight)
  rest : r.holder = none → D.Rest v

/-- A thread can rely on what another one does, unless both have the lock. -/
theorem Stands.of_guar {other : Nat} {t : Option Thread} (h : r.Stands D v other t)
    (answered : r'.answered other = r.answered other) (guar : D.Guar thread locked v v')
    (safe : D.Safe v') (ne : other ≠ thread)
    (keeps : r.holder = some other → locked = false ∧ r'.holder = some other) :
    r'.Stands D v' other t := by
  have free : D.Rely other false v v' := D.rely_of_guar guar ne fun both => nomatch both.2
  have mine := D.mine_of_rely free
  match t with
  | none => exact mine.trans (h.trans answered.symm)
  | some (.idle refused) =>
      exact ⟨mine.trans (h.1.trans answered.symm),
        fun eq => D.refused_of_rely free safe (h.2 eq)⟩
  | some (.waiting wish) => exact ⟨h.1, mine.trans (h.2.trans answered.symm)⟩
  | some (.unlocked wish flight) =>
      refine ⟨h.1, ?_⟩
      rw [answered]
      exact h.2.rely free
  | some (.locked wish flight) =>
      obtain ⟨holds, underway⟩ := h
      obtain ⟨unlocked, holds'⟩ := keeps holds
      refine ⟨holds', ?_⟩
      rw [answered]
      exact underway.rely (D.rely_of_guar guar ne fun both => nomatch unlocked.symm.trans both.1)
  | some (.stopped _) => exact h

/-- A move of one thread keeps the discipline if the thread itself stands as it should. -/
theorem Disciplined.of_guar (h : r.Disciplined D v) {t : Thread}
    (threads : r'.threads = r.threads.set thread t) (there : thread < r.threads.length)
    (answered : ∀ other, other ≠ thread → r'.answered other = r.answered other)
    (shows : D.Shows v' r'.store) (safe : D.Safe v') (guar : D.Guar thread locked v v')
    (keeps : ∀ other, other ≠ thread → r.holder = some other →
      locked = false ∧ r'.holder = some other)
    (stands : r'.Stands D v' thread (some t))
    (held : ∀ other, r'.holder = some other →
      other = thread ∧ (∃ wish flight, t = .locked wish flight) ∨
        other ≠ thread ∧ r.holder = some other)
    (rest : r'.holder = none → D.Rest v') : r'.Disciplined D v' where
  shows := shows
  safe := safe
  stands := fun other => by
    rw [threads]
    by_cases eq : other = thread
    · subst eq
      rw [List.getElem?_set_self there]
      exact stands
    · rw [List.getElem?_set_ne (Ne.symm eq)]
      exact (h.stands other).of_guar (answered other eq) guar safe eq (keeps other eq)
  held := fun other holds => by
    rw [threads]
    rcases held other holds with ⟨rfl, wish, flight, rfl⟩ | ⟨ne, still⟩
    · exact ⟨wish, flight, List.getElem?_set_self there⟩
    · rw [List.getElem?_set_ne (Ne.symm ne)]
      exact h.held other still
  rest := rest

/-- A thread that does not have the lock does not come to have it unawares. -/
theorem Disciplined.not_holder (h : r.Disciplined D v) {t : Thread}
    (here : r.threads[thread]? = some t) (not : ∀ wish flight, t ≠ .locked wish flight) :
    r.holder ≠ some thread := by
  intro holds
  obtain ⟨wish, flight, locked⟩ := h.held thread holds
  exact not wish flight (Option.some.inj (here.symm.trans locked))

/-- A step of a thread without the lock keeps the discipline. -/
theorem Disciplined.stepUnlocked (h : r.Disciplined D v) {wish : Wish} {flight : Flight}
    (here : r.threads[thread]? = some (.unlocked wish flight)) (spurious : Bool) :
    ∃ v', (r.stepUnlocked thread wish flight spurious).Disciplined D v' := by
  have there := (List.getElem?_eq_some_iff.1 here).1
  have stands := h.stands thread
  rw [here] at stands
  obtain ⟨apt, underway⟩ := stands
  have free : r.holder ≠ some thread := h.not_holder here nofun
  have held (t : Thread) (other : Nat) (holds : r.holder = some other) :
      other = thread ∧ (∃ wish flight, t = .locked wish flight) ∨
        other ≠ thread ∧ r.holder = some other :=
    .inr ⟨fun eq => free (eq ▸ holds), holds⟩
  rcases flight with ⟨program, phase⟩
  cases program with
  | fail fault =>
      obtain ⟨v₀, -, assured⟩ := underway
      exact assured.elim
  | done result =>
      obtain ⟨v₀, from₀, got⟩ := underway
      have mine : D.mine v thread = result.toList ++ r.answered thread :=
        (D.mine_of_rely from₀).trans got
      have same := D.guar_refl thread false v
      cases result with
      | none =>
          refine ⟨v, ?_⟩
          change (r.setThread thread (.waiting wish)).Disciplined D v
          exact h.of_guar rfl there (fun _ _ => rfl) h.shows h.safe same
            (fun _ _ holds => ⟨rfl, holds⟩) ⟨apt, mine⟩ (held _) h.rest
      | some span =>
          refine ⟨v, ?_⟩
          change (r.answer thread wish false (some span)).Disciplined D v
          refine h.of_guar rfl there (fun _ ne => answered_answer_of_ne ne wish false (some span))
            h.shows h.safe same (fun _ _ holds => ⟨rfl, holds⟩) ⟨?_, nofun⟩
            (held _) h.rest
          exact mine.trans (answered_answer_self r thread wish false (some span)).symm
  | step st next =>
      obtain ⟨flight', s', v', stepped, shows, safe, guar, underway'⟩ :=
        underway.step h.safe h.shows phase spurious
      have moved : r.stepUnlocked thread wish { program := .step st next, phase } spurious =
          { r with store := s' }.setThread thread (.unlocked wish flight') := by
        simp only [Shared.stepUnlocked, stepped]
      rw [moved]
      exact ⟨v', h.of_guar rfl there (fun _ _ => rfl) shows safe guar
        (fun _ _ holds => ⟨rfl, holds⟩) ⟨apt, underway'⟩ (held _)
        fun none => D.rest_of_guar guar (h.rest none)⟩

/-- A step of the thread with the lock keeps the discipline. -/
theorem Disciplined.stepLocked (h : r.Disciplined D v) {wish : Wish} {flight : Flight}
    (here : r.threads[thread]? = some (.locked wish flight)) (spurious : Bool) :
    ∃ v', (r.stepLocked thread wish flight spurious).Disciplined D v' := by
  have there := (List.getElem?_eq_some_iff.1 here).1
  have stands := h.stands thread
  rw [here] at stands
  obtain ⟨holds, underway⟩ := stands
  have alone {locked : Bool} {holder : Option Nat} (other : Nat) (ne : other ≠ thread)
      (also : r.holder = some other) : locked = false ∧ holder = some other :=
    absurd (Option.some.inj (also.symm.trans holds)) ne
  rcases flight with ⟨program, phase⟩
  cases program with
  | fail fault =>
      obtain ⟨v₀, -, assured⟩ := underway
      exact assured.elim
  | done result =>
      obtain ⟨v₀, from₀, got, rest, refused⟩ := underway
      refine ⟨v, ?_⟩
      change (Shared.answer { r with holder := none } thread wish true result).Disciplined D v
      refine h.of_guar rfl there (fun _ ne => answered_answer_of_ne ne wish true result) h.shows
        h.safe (D.guar_refl thread false v) alone ⟨?_, ?_⟩ (fun other holds => by cases holds)
        fun _ => D.rest_of_rely from₀ rest
      · refine ((D.mine_of_rely from₀).trans got).trans ?_
        exact (answered_answer_self { r with holder := none } thread wish true result).symm
      · intro isNone
        exact D.refused_of_rely from₀ h.safe (refused (Option.isNone_iff_eq_none.1 isNone))
  | step st next =>
      obtain ⟨flight', s', v', stepped, shows, safe, guar, underway'⟩ :=
        underway.step h.safe h.shows phase spurious
      have moved : r.stepLocked thread wish { program := .step st next, phase } spurious =
          { r with store := s' }.setThread thread (.locked wish flight') := by
        simp only [Shared.stepLocked, stepped]
      rw [moved]
      refine ⟨v', h.of_guar rfl there (fun _ _ => rfl) shows safe guar alone ⟨holds, underway'⟩
        (fun other also => .inl ⟨?_, wish, flight', rfl⟩) fun free => ?_⟩
      · exact Option.some.inj (also.symm.trans holds)
      · cases holds.symm.trans free

/-- A wish is begun without the lock. -/
theorem Disciplined.ask (h : r.Disciplined D v) (obeyed : D.Obeyed r.arena) {wish : Wish}
    {refused : Bool} (here : r.threads[thread]? = some (.idle refused)) (apt : D.Apt wish) :
    (r.setThread thread (.unlocked wish { program := wish.unlocked r.arena })).Disciplined D
      v := by
  have stands := h.stands thread
  rw [here] at stands
  have free : r.holder ≠ some thread := h.not_holder here nofun
  have begun := obeyed.unlocked wish thread v apt
  rw [stands.1] at begun
  refine h.of_guar rfl (List.getElem?_eq_some_iff.1 here).1 (fun _ _ => rfl) h.shows h.safe
    (D.guar_refl thread false v) (fun _ _ holds => ⟨rfl, holds⟩) ⟨apt, .start begun⟩
    (fun other holds => .inr ⟨?_, holds⟩) h.rest
  rintro rfl
  exact free holds

/-- A thread takes the lock and finds the arena at rest. -/
theorem Disciplined.lock (h : r.Disciplined D v) (obeyed : D.Obeyed r.arena) {wish : Wish}
    (here : r.threads[thread]? = some (.waiting wish)) (free : r.holder = none) :
    ({ r with holder := some thread }.setThread thread
      (.locked wish { program := wish.locked r.arena })).Disciplined D v := by
  have stands := h.stands thread
  rw [here] at stands
  obtain ⟨apt, settled⟩ := stands
  have begun := obeyed.locked wish thread v apt (h.rest free)
  rw [settled] at begun
  refine h.of_guar rfl (List.getElem?_eq_some_iff.1 here).1 (fun _ _ => rfl) h.shows h.safe
    (D.guar_refl thread false v) (fun _ _ holds => nomatch free.symm.trans holds)
    ⟨rfl, .start begun⟩ (fun other holds => .inl ⟨?_, wish, _, rfl⟩) fun none => nomatch none
  exact (Option.some.inj holds).symm

/-- Every move keeps the discipline. -/
theorem Disciplined.move (h : r.Disciplined D v) (obeyed : D.Obeyed r.arena) {m : SharedMove}
    (apt : ∀ thread wish, m = .ask thread wish → D.Apt wish) :
    ∃ v', (r.move m).Disciplined D v' := by
  cases m with
  | ask thread wish =>
      simp only [Shared.move]
      split
      · rename_i refused here
        exact ⟨v, h.ask obeyed here (apt thread wish rfl)⟩
      · exact ⟨v, h⟩
  | step thread spurious =>
      simp only [Shared.move]
      split
      · rename_i wish flight here
        exact h.stepUnlocked here spurious
      · rename_i wish flight here
        exact h.stepLocked here spurious
      · rename_i wish here
        split
        · rename_i free
          exact ⟨v, h.lock obeyed here free⟩
        · exact ⟨v, h⟩
      · exact ⟨v, h⟩

/-- Every run keeps the discipline. -/
theorem Disciplined.moves (h : r.Disciplined D v) (obeyed : D.Obeyed r.arena)
    {ms : List SharedMove} (apt : ∀ thread wish, .ask thread wish ∈ ms → D.Apt wish) :
    ∃ v', (r.moves ms).Disciplined D v' := by
  induction ms generalizing r v with
  | nil => exact ⟨v, h⟩
  | cons m ms ih =>
      have first : ∀ thread wish, m = .ask thread wish → D.Apt wish :=
        fun thread wish eq => apt thread wish (eq ▸ List.mem_cons_self)
      obtain ⟨v₁, h₁⟩ := h.move obeyed first
      rw [← move_arena r m] at obeyed
      exact ih h₁ obeyed fun thread wish mem => apt thread wish (List.mem_cons_of_mem m mem)

/-- A race starts under the discipline if its view is safe and at rest, and nobody has taken
anything yet. -/
theorem Disciplined.new {a : Arena} {s : Store} (shows : D.Shows v s) (safe : D.Safe v)
    (rest : D.Rest v) (none : ∀ thread, D.mine v thread = []) (threads : Nat) :
    (Shared.new a s threads).Disciplined D v where
  shows := shows
  safe := safe
  stands := fun thread => by
    change Stands D _ v thread (List.replicate threads (Thread.idle false))[thread]?
    rw [List.getElem?_replicate]
    split
    · exact ⟨none thread, nofun⟩
    · exact none thread
  held := fun thread holds => nomatch holds
  rest := fun _ => rest

/-- Under a discipline no thread is stopped by a fault. -/
theorem Disciplined.fault?_eq_none (h : r.Disciplined D v) : r.fault? = none := by
  refine List.findSome?_eq_none_iff.2 fun t ht => ?_
  obtain ⟨thread, here⟩ := List.getElem?_of_mem ht
  have stands := h.stands thread
  rw [here] at stands
  cases t with
  | stopped fault => exact stands.elim
  | idle | unlocked | waiting | locked => rfl

/-- When a race is over, every thread was refused and nobody has the lock. What the threads
have taken is what they were answered. -/
theorem Disciplined.over (h : r.Disciplined D v) (ended : r.isOver = true) :
    r.holder = none ∧ (r.threads ≠ [] → D.Refused v) ∧
      ∀ thread, D.mine v thread = r.answered thread := by
  have idle {thread : Nat} {t : Thread} (here : r.threads[thread]? = some t) :
      t = .idle true := by
    have all := List.all_eq_true.1 ended t (List.mem_of_getElem? here)
    have stands := h.stands thread
    rw [here] at stands
    cases t with
    | idle refused =>
        simp only at all
        rw [all]
    | stopped fault => exact stands.elim
    | unlocked | waiting | locked => simp at all
  refine ⟨?_, fun some => ?_, fun thread => ?_⟩
  · rcases holds : r.holder with _ | thread
    · rfl
    · obtain ⟨wish, flight, here⟩ := h.held thread holds
      exact nomatch idle here
  · obtain ⟨t, rest, eq⟩ := List.exists_cons_of_ne_nil some
    have here : r.threads[0]? = Option.some t := by rw [eq]; rfl
    have stands := h.stands 0
    rw [here, idle here] at stands
    exact stands.2 rfl
  · have stands := h.stands thread
    cases here : r.threads[thread]? with
    | none =>
        rw [here] at stands
        exact stands
    | some t =>
        rw [here, idle here] at stands
        exact stands.1

end Shared

end RegionHeap.Race
