import RegionHeap.Proofs.Diagnostics.Passing
import RegionHeap.Proofs.World.Attended
import RegionHeap.Proofs.World.Faithful

/-!
# Delivery through a channel

The same is done to two worlds, in one of which a reader takes events out of a channel, while
a recorder keeps those of the other at the same level of detail. As long as the reader is there,
what it has got and what is still queued is on the record in the same order. What is missing is
what found the queue full, and the channel has counted it. Once the reader has gone away, the
channel counts whatever comes.
-/

namespace RegionHeap

namespace Diagnostics

variable {d : Diagnostics} {detail : Detail}

/-- An event is heard or it is not. -/
theorem heardAt_singleton (detail : Detail) (entry : Entry) :
    heardAt detail [entry] = [] ∨ ∃ e, heardAt detail [entry] = [e] := by
  simp only [heardAt, List.filterMap_cons, List.filterMap_nil]
  cases entry.event?.bind fun e => e.atDetail detail with
  | none => exact .inl rfl
  | some e => exact .inr ⟨e, rfl⟩

/-- Totals do not change who listens. -/
theorem heed_summary_listener (d : Diagnostics) (regions bytes regionBytes : Nat) :
    (d.heed (.summary regions bytes regionBytes)).listener = d.listener := by
  have tells : Entry.Tells [] [.summary regions bytes regionBytes] := .totals ..
  calc
    (d.heed (.summary regions bytes regionBytes)).listener =
        (d.noteAll [.summary regions bytes regionBytes]).2.listener :=
      congrArg listener (noteAll_eq_heed tells d).symm
    _ = d.listener := d.noteAll_summary_listener regions bytes regionBytes

/-- A recorder keeps what is at its level of detail. -/
theorem heed_recorder {events : List Event} (listens : d.listener = .recorder detail events)
    (entry : Entry) :
    (d.heed entry).listener = .recorder detail (events ++ heardAt detail [entry]) := by
  cases entry with
  | event e =>
      have tells : Entry.Tells [e] [.event e] := .events
      rw [tells.heardAt]
      exact hear_recorder listens [e]
  | summary regions bytes regionBytes =>
      rw [heed_summary_listener, listens]
      simp [heardAt, Entry.event?]

/-- What is at the level of detail of a channel is sent through it. -/
theorem heed_channel {c : Channel} (listens : d.listener = .channel detail c) (entry : Entry) :
    (d.heed entry).listener = .channel detail ((heardAt detail [entry]).foldl .send c) := by
  cases entry with
  | event e =>
      change (d.hear e).listener = _
      unfold hear Diagnostics.detail
      rw [listens]
      cases heard : e.atDetail detail with
      | none => simp [heardAt, Entry.event?, heard, listens]
      | some kept => simp [heardAt, Entry.event?, heard, deliver, listens]
  | summary regions bytes regionBytes =>
      rw [heed_summary_listener, listens]
      simp [heardAt, Entry.event?]

end Diagnostics

/-- The world with a reader at the other end of a new channel, in place of whoever listens. -/
def World.withReader (w : World) (detail : Detail) (capacity : Nat) : Attended :=
  { world := { w with diagnostics := { w.diagnostics with
      listener := .channel detail { capacity } } } }

/-- The world with a new recorder, in place of whoever listens. -/
def World.withRecorder (w : World) (detail : Detail) : Attended :=
  { world := w.recording detail }

namespace Attended

/-- What the reader gets by a move. -/
def gets (m : Attended) : Move → List Event
  | .act (.read max) => (m.world.read max).1.getD []
  | _ => []

/-- The event that a move sends through the channel, if it does, with the channel that it
meets. -/
def meets (m : Attended) : Move → List (Event × Channel)
  | .hear arena =>
      match m.world.diagnostics.channel? with
      | none => []
      | some c =>
          (Diagnostics.heardAt m.world.diagnostics.detail ((m.unheard arena).take 1)).map (·, c)
  | _ => []

/-- Everything that the reader gets. -/
def got (m : Attended) : List Move → List Event
  | [] => []
  | next :: rest => m.gets next ++ (m.move next).got rest

/-- Everything that is sent through the channel, each event with the channel that it meets. -/
def met (m : Attended) : List Move → List (Event × Channel)
  | [] => []
  | next :: rest => m.meets next ++ (m.move next).met rest

theorem got_append (m : Attended) (ms ns : List Move) :
    m.got (ms ++ ns) = m.got ms ++ (m.moves ms).got ns := by
  induction ms generalizing m with
  | nil => rfl
  | cons next rest ih => simp only [List.cons_append, got, ih, moves_cons, List.append_assoc]

theorem met_append (m : Attended) (ms ns : List Move) :
    m.met (ms ++ ns) = m.met ms ++ (m.moves ms).met ns := by
  induction ms generalizing m with
  | nil => rfl
  | cons next rest ih => simp only [List.cons_append, met, ih, moves_cons, List.append_assoc]

/-- The channel that there is after some moves, if its reader is the one who listens. -/
def channel? (m : Attended) (ms : List Move) : Option Channel :=
  (m.moves ms).world.diagnostics.channel?

/-- The record that there is after some moves, if a recorder listens. -/
def record (m : Attended) (ms : List Move) : List Event :=
  (m.moves ms).world.diagnostics.recorded

/-- A reader at the other end of this channel listens, at a level of detail. -/
def Sends (m : Attended) (detail : Detail) (c : Channel) : Prop :=
  m.world.diagnostics.listener = .channel detail c

/-- A recorder listens that has kept these events, at a level of detail. -/
def Records (m : Attended) (detail : Detail) (events : List Event) : Prop :=
  m.world.diagnostics.listener = .recorder detail events

variable {m m' : Attended} {detail : Detail} {c : Channel} {events : List Event}

theorem Sends.channel? (h : m.Sends detail c) : m.world.diagnostics.channel? = some c := by
  unfold Diagnostics.channel?
  rw [h]

theorem Records.recorded (h : m.Records detail events) :
    m.world.diagnostics.recorded = events := by
  unfold Diagnostics.recorded
  rw [h]

/-- An entry of the arena that is heard meets the channel, if it is at its level of detail. -/
theorem Sends.meets_hear (h : m.Sends detail c) {arena : Nat} {entry : Entry}
    {rest : List Entry} (next : m.unheard arena = entry :: rest) :
    m.meets (.hear arena) = (Diagnostics.heardAt detail [entry]).map (·, c) := by
  have level : m.world.diagnostics.detail = detail := by
    unfold Diagnostics.detail
    rw [h]
  simp only [meets, h.channel?, level, next, List.take_succ_cons, List.take_zero]

/-- The reader goes away. -/
theorem Sends.hangUp (h : m.Sends detail c) : (m.move (.act .hangUp)).Sends detail c.hangUp := by
  change (m.world.diagnostics.mapChannel Channel.hangUp).listener = _
  unfold Diagnostics.mapChannel
  rw [h]

/-- An action that no reader carries out leaves the channel to itself. -/
theorem Sends.act (h : m.Sends detail c) {action : Action} (reads : ∀ max, action ≠ .read max)
    (stays : action ≠ .hangUp) : (m.move (.act action)).Sends detail c := by
  unfold Sends
  simp only [Attended.move]
  cases works : action.arena? with
  | some arena => exact h
  | none =>
      obtain ⟨single, other⟩ := Action.single_of_arena? works
      by_cases clears : action = .clearRecord
      · subst clears
        simp only [World.perform, Diagnostics.clear]
        rw [h]
        exact h
      · dsimp only
        rw [World.perform_apart single other reads stays clears]
        exact h

/-- The reader takes events out. -/
theorem Sends.read (h : m.Sends detail c) (max : Option Nat) :
    (m.move (.act (.read max))).Sends detail (c.drain max).2 ∧
      m.gets (.act (.read max)) = (c.drain max).1.getD [] := by
  constructor
  · change (m.world.read max).2.diagnostics.listener = _
    simp only [World.read, h.channel?, Diagnostics.mapChannel]
    rw [h]
  · simp only [gets, World.read, h.channel?]

/-- The next entry of an arena is sent through the channel, if it is at its level of detail. -/
theorem Sends.hear (h : m.Sends detail c) (sound : c.Sound) (arena : Nat) :
    ∃ c', (m.move (.hear arena)).Sends detail c' ∧ c.Passes c' (m.meets (.hear arena)) [] := by
  cases next : m.unheard arena with
  | nil =>
      refine ⟨c, ?_, ?_⟩
      · simp only [Attended.move, next]
        exact h
      · simp only [meets, h.channel?, next]
        exact .refl sound
  | cons entry rest =>
      refine ⟨(Diagnostics.heardAt detail [entry]).foldl .send c, ?_, ?_⟩
      · simp only [Attended.move, next]
        exact Diagnostics.heed_channel h entry
      · rw [h.meets_hear next]
        rcases Diagnostics.heardAt_singleton detail entry with unheard | ⟨e, heard⟩
        · rw [unheard]
          exact .refl sound
        · rw [heard]
          exact .send sound e

/-- What can become of a channel by a move: something passes through it, or its reader goes
away. -/
theorem Sends.move (h : m.Sends detail c) (sound : c.Sound) (next : Move) :
    ∃ c', (m.move next).Sends detail c' ∧
      (c.Passes c' (m.meets next) (m.gets next) ∨ next = .act .hangUp ∧ c' = c.hangUp) := by
  cases next with
  | share arena threads moves =>
      refine ⟨c, ?_, .inl (.refl sound)⟩
      simp only [Attended.move]
      cases m.world.site arena with
      | error fault => exact h
      | ok site => exact h
  | hear arena =>
      obtain ⟨c', goesOn, passes⟩ := h.hear sound arena
      exact ⟨c', goesOn, .inl passes⟩
  | act action =>
      cases action with
      | read max =>
          obtain ⟨goesOn, gets⟩ := h.read max
          exact ⟨(c.drain max).2, goesOn, .inl (gets ▸ .drain sound max)⟩
      | hangUp => exact ⟨c.hangUp, h.hangUp, .inr ⟨rfl, rfl⟩⟩
      | _ => exact ⟨c, h.act (by simp) (by simp), .inl (.refl sound)⟩

/-- Whatever is done, the channel keeps to its bounds. -/
theorem Sends.moves (h : m.Sends detail c) (sound : c.Sound) (ms : List Move) :
    ∃ c', (m.moves ms).Sends detail c' ∧ c'.Sound := by
  induction ms generalizing m c with
  | nil => exact ⟨c, h, sound⟩
  | cons next rest ih =>
      obtain ⟨c', goesOn, passes | ⟨-, rfl⟩⟩ := h.move sound next
      · exact ih goesOn passes.sound
      · exact ih goesOn sound.hangUp

/-- While the reader is there, and after it has gone away, events pass through the channel. -/
theorem Sends.passes (h : m.Sends detail c) (sound : c.Sound) (ms : List Move)
    (stays : .act .hangUp ∉ ms ∨ c.ReaderGone) :
    ∃ c', (m.moves ms).Sends detail c' ∧ c.Passes c' (m.met ms) (m.got ms) := by
  induction ms generalizing m c with
  | nil => exact ⟨c, h, .refl sound⟩
  | cons next rest ih =>
      obtain ⟨c', goesOn, first⟩ : ∃ c', (m.move next).Sends detail c' ∧
          c.Passes c' (m.meets next) (m.gets next) := by
        obtain ⟨c', goesOn, passes | ⟨rfl, rfl⟩⟩ := h.move sound next
        · exact ⟨c', goesOn, passes⟩
        · rcases stays with stays | readerGone
          · exact absurd List.mem_cons_self stays
          · exact ⟨c.hangUp, goesOn, readerGone.hangUp.symm ▸ .refl sound⟩
      have later : .act .hangUp ∉ rest ∨ c'.ReaderGone := by
        apply stays.imp
        · exact fun stays mem => stays (List.mem_cons_of_mem _ mem)
        · exact fun readerGone => (first.readerGone readerGone).1
      obtain ⟨c'', ended, more⟩ := ih goesOn first.sound later
      exact ⟨c'', ended, first.trans more⟩

/-- What is sent through the channel in one world is recorded in the other. -/
theorem Records.move (h : m'.Records detail events) (alike : m.Alike m')
    (sends : m.Sends detail c) {next : Move} (keeps : next ≠ .act .clearRecord) :
    (m'.move next).Records detail (events ++ (m.meets next).map Prod.fst) := by
  cases next with
  | share arena threads moves =>
      simp only [meets, List.map_nil, List.append_nil, Attended.move]
      cases m'.world.site arena with
      | error fault => exact h
      | ok site => exact h
  | hear arena =>
      cases next : m.unheard arena with
      | nil =>
          simp only [meets, sends.channel?, Attended.move, alike.unheard, next, List.take_nil]
          exact h.trans (congrArg _ (List.append_nil _).symm)
      | cons entry rest =>
          have heard := Diagnostics.heed_recorder h entry
          simp only [sends.meets_hear next, Attended.move, alike.unheard, next, List.map_map]
          exact heard.trans (congrArg _ (congrArg _ (List.map_id _).symm))
  | act action =>
      simp only [meets, List.map_nil, List.append_nil, Attended.move]
      cases works : action.arena? with
      | some arena => exact h
      | none =>
          obtain ⟨single, other⟩ := Action.single_of_arena? works
          exact World.silent_recorder single other (fun eq => keeps (congrArg _ eq)) h

theorem Records.moves (h : m'.Records detail events) (alike : m.Alike m')
    (sends : m.Sends detail c) (sound : c.Sound) {ms : List Move}
    (keeps : .act .clearRecord ∉ ms) :
    (m'.moves ms).Records detail (events ++ (m.met ms).map Prod.fst) := by
  induction ms generalizing m m' c events with
  | nil => exact h.trans (congrArg _ (List.append_nil _).symm)
  | cons next rest ih =>
      have first := h.move alike sends fun eq => keeps (eq ▸ List.mem_cons_self)
      obtain ⟨c', goesOn, sound'⟩ := sends.moves sound [next]
      have later := ih first (alike.move next) goesOn sound'
        fun mem => keeps (List.mem_cons_of_mem _ mem)
      rw [List.append_assoc, ← List.map_append] at later
      exact later

theorem Alike.moves (alike : m.Alike m') (ms : List Move) : (m.moves ms).Alike (m'.moves ms) := by
  induction ms generalizing m m' with
  | nil => exact alike
  | cons next rest ih => exact ih (alike.move next)

end Attended

/-- How the reader of a channel has fared while it was there: what was recorded of the same run,
what the reader got, and the events that met the channel, each with the channel that it met. -/
structure Delivered (capacity : Nat) (record got : List Event) (met : List (Event × Channel))
    (c : Channel) : Prop where
  /-- No more is queued than there is room for. -/
  bounded : c.queue.length ≤ capacity
  /-- The events on record are those that met the channel. -/
  recorded : met.map Prod.fst = record
  /-- What the reader got and what is queued is on record, in the same order. -/
  ordered : (got ++ c.queue).Sublist record
  /-- An event is missing if the queue that it met was full, and only then. -/
  missing : got ++ c.queue = (met.filter fun m => m.2.queue.length < capacity).map Prod.fst
  /-- The missing events were counted, up to the width of the counter. -/
  counted : c.dropped = (met.countP fun m => capacity ≤ m.2.queue.length) % Word.bound
  /-- So nothing is missing that was not counted, unless there is more on record than the counter
  counts to. -/
  balanced : record.length < Word.bound → (got ++ c.queue).length + c.dropped = record.length

/-- How a channel fares when its reader has gone away, compared with the channel as it was at
that moment: what was recorded of the same run until then, and what later. -/
structure Forsaken (parted c : Channel) (record later : List Event) : Prop where
  /-- Nothing is queued. -/
  queue : c.queue = []
  /-- Every event makes one more, up to the width of the counter. -/
  counted : c.dropped = Word.wrapAdd parted.dropped later.length
  /-- So the counter grows by one with every event, unless there is more on record than it counts
  to. -/
  exact : (record ++ later).length < Word.bound → c.dropped = parted.dropped + later.length

namespace Channel.Passes

variable {capacity : Nat} {c parted : Channel} {met more : List (Event × Channel)}
  {got further : List Event}

theorem delivered (h : Channel.Passes { capacity } c met got) :
    Delivered capacity (met.map Prod.fst) got met c := by
  have accepts : ∀ m ∈ met, m.2.accepts = decide (m.2.queue.length < capacity) := by
    intro m mem
    obtain ⟨same, connected⟩ := h.same m mem
    simp [Channel.accepts, same, connected]
  have taken : taken met = (met.filter fun m => m.2.queue.length < capacity).map Prod.fst :=
    congrArg (List.map Prod.fst) (List.filter_congr accepts)
  have refused : refused met = met.countP fun m => capacity ≤ m.2.queue.length := by
    apply List.countP_congr
    intro m mem
    simp [accepts m mem]
  have conserved : Channel.taken met = got ++ c.queue := h.conserved
  have counted : c.dropped = Channel.refused met % Word.bound := by
    rw [h.counted, Word.wrapAdd, Nat.zero_add]
  constructor
  case bounded => exact h.sound.room.trans_eq h.capacity
  case recorded => rfl
  case ordered =>
    rw [← conserved]
    exact List.filter_sublist.map Prod.fst
  case missing => exact conserved.symm.trans taken
  case counted => exact counted.trans (congrArg (· % Word.bound) refused)
  case balanced =>
    intro fits
    have all := taken_add_refused met
    rw [List.length_map] at fits
    rw [counted, Nat.mod_eq_of_lt (by omega), ← conserved, all, List.length_map]

theorem forsaken (first : Channel.Passes { capacity } parted met got)
    (second : parted.hangUp.Passes c more further) :
    Forsaken parted c (met.map Prod.fst) (more.map Prod.fst) := by
  obtain ⟨readerGone, -, dropped⟩ := second.readerGone parted.hangUp_readerGone
  have counted : c.dropped = Word.wrapAdd parted.dropped more.length := dropped
  constructor
  case queue => exact readerGone.queue
  case counted => rw [counted, List.length_map]
  case exact =>
    intro fits
    have before : parted.dropped ≤ met.length := by
      rw [first.counted]
      calc
        Word.wrapAdd 0 (refused met) ≤ 0 + refused met := Nat.mod_le _ _
        _ ≤ met.length := by
          have all := taken_add_refused met
          omega
    rw [List.length_append, List.length_map, List.length_map] at fits
    rw [counted, Word.wrapAdd, Nat.mod_eq_of_lt (by omega), List.length_map]

end Channel.Passes

namespace World

/-- Whatever the arenas of a world are put to, by one thread or by many, and whatever comes in
between any two entries that they say: a channel of any capacity loses events only by counting
them.

A recorder at the same level of detail that listens to the same run tells what there is to lose.
While the reader is there, no more is queued than there is room for; what it got and what is
queued is on the record, in the same order; an event is missing if it found the queue full, and
only then; and the missing events were counted. When the reader has gone away, nothing is queued
or delivered any more, and every event that comes is counted. -/
theorem delivery (w : World) (detail : Detail) (capacity : Nat) (ms : List Attended.Move)
    (keeps : .act .clearRecord ∉ ms) :
    let reading := w.withReader detail capacity
    let recording := w.withRecorder detail
    (reading.moves ms).Alike (recording.moves ms) ∧
      (.act .hangUp ∉ ms → ∃ c, reading.channel? ms = some c ∧
        Delivered capacity (recording.record ms) (reading.got ms) (reading.met ms) c) ∧
      ∀ before after, ms = before ++ .act .hangUp :: after → .act .hangUp ∉ before →
        ∃ parted c later, reading.channel? before = some parted ∧ reading.channel? ms = some c ∧
          reading.got ms = reading.got before ∧
          recording.record ms = recording.record before ++ later ∧
          Forsaken parted c (recording.record before) later := by
  intro reading recording
  have sends : reading.Sends detail { capacity } := rfl
  have sound := Channel.Sound.new capacity
  have alike : reading.Alike recording := ⟨⟨rfl, rfl, rfl⟩, rfl⟩
  have onRecord : ∀ {ms : List Attended.Move}, .act .clearRecord ∉ ms →
      recording.record ms = (reading.met ms).map Prod.fst := by
    intro ms keeps
    have records : recording.Records detail [] := rfl
    exact (records.moves alike sends sound keeps).recorded
  refine ⟨alike.moves ms, ?_, ?_⟩
  · intro stays
    obtain ⟨c, ended, passes⟩ := sends.passes sound ms (.inl stays)
    rw [onRecord keeps]
    exact ⟨c, ended.channel?, passes.delivered⟩
  · rintro before after rfl stays
    obtain ⟨parted, there, first⟩ := sends.passes sound before (.inl stays)
    obtain ⟨c, ended, second⟩ :=
      there.hangUp.passes first.sound.hangUp after (.inr parted.hangUp_readerGone)
    have nothing := (second.readerGone parted.hangUp_readerGone).2.1
    have keeps' : .act .clearRecord ∉ before := fun mem => keeps (List.mem_append_left _ mem)
    refine ⟨parted, c, _, there.channel?, ?_, ?_, ?_, onRecord keeps' ▸ first.forsaken second⟩
    · rw [Attended.channel?, Attended.moves_append, Attended.moves_cons]
      exact ended.channel?
    · rw [Attended.got_append]
      simp only [Attended.got, nothing]
      exact List.append_nil _
    · rw [onRecord keeps, onRecord keeps', Attended.met_append, List.map_append]
      rfl

/-- Two arenas are started at the same time, and the queue has room for one event. The reader
takes one out in between, and then goes away. -/
theorem delivery_small :
    let before : List Attended.Move := [.act (.call 0 .start), .act (.call 1 .start), .hear 0,
      .hear 1, .act (.read none), .hear 1, .hear 0]
    let ms := before ++ .act .hangUp :: [.act (.call 0 (.claim 5 5)), .hear 0]
    .act .clearRecord ∉ ms ∧ .act .hangUp ∉ before ∧
      (((small.withRecorder .debug).record ms).map Event.moment =
        [.starting, .starting, .started, .started, .claimRefused]) ∧
      (∃ c, (small.withReader .debug 1).channel? before = some c ∧ c.dropped = 2 ∧
        Delivered 1 ((small.withRecorder .debug).record before)
          ((small.withReader .debug 1).got before) ((small.withReader .debug 1).met before) c) ∧
      ∃ parted c later, (small.withReader .debug 1).channel? ms = some c ∧ c.dropped = 3 ∧
        (small.withReader .debug 1).got ms = (small.withReader .debug 1).got before ∧
        Forsaken parted c ((small.withRecorder .debug).record before) later := by
  intro before ms
  have keeps : .act .clearRecord ∉ ms := by decide
  have stays : .act .hangUp ∉ before := by decide
  have two : ((small.withReader .debug 1).channel? before).map Channel.dropped = some 2 := by
    decide +kernel
  have three : ((small.withReader .debug 1).channel? ms).map Channel.dropped = some 3 := by
    decide +kernel
  obtain ⟨-, delivered, -⟩ := delivery small .debug 1 before (by decide)
  obtain ⟨-, -, forsaken⟩ := delivery small .debug 1 ms keeps
  obtain ⟨c, there, delivered⟩ := delivered stays
  obtain ⟨parted, left, later, -, gone, nothing, -, forsaken⟩ := forsaken before _ rfl stays
  rw [there] at two
  rw [gone] at three
  exact ⟨keeps, stays, by decide +kernel, ⟨c, there, Option.some.inj two, delivered⟩,
    parted, left, later, gone, Option.some.inj three, nothing, forsaken⟩

end World

end RegionHeap
