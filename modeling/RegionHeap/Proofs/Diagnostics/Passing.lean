import RegionHeap.Diagnostics.Channel

/-!
# What passes through a channel

While the reader of a channel neither comes nor goes, events arrive and the reader takes some
out. Each event that arrives meets the channel as it is at the time, and is queued or counted.
What was queued before and what was queued meanwhile is what the reader got and what is queued
now, in this order.
-/

namespace RegionHeap.Channel

/-- The channel keeps to its capacity and to the width of its counter. -/
structure Sound (c : Channel) : Prop where
  room : c.queue.length ≤ c.capacity
  counter : c.dropped < Word.bound

theorem Sound.new (capacity : Nat) : Sound { capacity } :=
  ⟨Nat.zero_le capacity, Nat.two_pow_pos 64⟩

/-- The events that were queued, of those that met the channel. -/
def taken (met : List (Event × Channel)) : List Event :=
  (met.filter fun m => m.2.accepts).map Prod.fst

/-- How many of the events that met the channel were dropped. -/
def refused (met : List (Event × Channel)) : Nat :=
  met.countP fun m => !m.2.accepts

@[simp] theorem taken_append (met more : List (Event × Channel)) :
    taken (met ++ more) = taken met ++ taken more := by
  simp [taken]

@[simp] theorem refused_append (met more : List (Event × Channel)) :
    refused (met ++ more) = refused met + refused more := by
  simp [refused]

/-- What met the channel was queued or dropped. -/
theorem taken_add_refused (met : List (Event × Channel)) :
    (taken met).length + refused met = met.length := by
  simpa [taken, refused, List.countP_eq_length_filter] using
    (List.length_eq_countP_add_countP (fun m : Event × Channel => m.2.accepts) (l := met)).symm

/-- The one channel becomes the other while these events met it and the reader got those. -/
structure Passes (c c' : Channel) (met : List (Event × Channel)) (got : List Event) : Prop where
  sound : c'.Sound
  capacity : c'.capacity = c.capacity
  connected : c'.connected = c.connected
  /-- The events met this channel and no other. -/
  same : ∀ m ∈ met, m.2.capacity = c.capacity ∧ m.2.connected = c.connected
  conserved : c.queue ++ taken met = got ++ c'.queue
  counted : c'.dropped = Word.wrapAdd c.dropped (refused met)

namespace Passes

variable {c c' c'' : Channel} {met more : List (Event × Channel)} {got further : List Event}

theorem refl (sound : c.Sound) : c.Passes c [] [] :=
  ⟨sound, rfl, rfl, nofun, List.append_nil _, (Word.wrapAdd_zero sound.counter).symm⟩

theorem trans (first : c.Passes c' met got) (second : c'.Passes c'' more further) :
    c.Passes c'' (met ++ more) (got ++ further) := by
  refine ⟨second.sound, second.capacity.trans first.capacity,
    second.connected.trans first.connected, ?_, ?_, ?_⟩
  · intro m mem
    rcases List.mem_append.1 mem with old | new
    · exact first.same m old
    · rw [← first.capacity, ← first.connected]
      exact second.same m new
  · calc
      c.queue ++ taken (met ++ more) = c.queue ++ taken met ++ taken more := by
        rw [taken_append, List.append_assoc]
      _ = got ++ (c'.queue ++ taken more) := by
        rw [first.conserved, List.append_assoc]
      _ = got ++ further ++ c''.queue := by
        rw [second.conserved, List.append_assoc]
  · rw [second.counted, first.counted, Word.wrapAdd_wrapAdd, refused_append]

/-- An event arrives. -/
theorem send (sound : c.Sound) (e : Event) : c.Passes (c.send e) [(e, c)] [] := by
  have room : (c.send e).queue.length ≤ (c.send e).capacity := send_length_le sound.room e
  have same : ∀ m ∈ [(e, c)], m.2.capacity = c.capacity ∧ m.2.connected = c.connected := by
    simp
  cases accepts : c.accepts with
  | true =>
      obtain ⟨queue, dropped⟩ := send_of_accepts accepts e
      refine ⟨⟨room, dropped ▸ sound.counter⟩, c.send_capacity e, c.send_connected e, same, ?_, ?_⟩
      · simp [taken, accepts, queue]
      · simp [refused, accepts, dropped, Word.wrapAdd_zero sound.counter]
  | false =>
      obtain ⟨queue, dropped⟩ := send_of_not_accepts accepts e
      have counter : (c.send e).dropped < Word.bound := dropped ▸ Word.wrapAdd_lt _ 1
      refine ⟨⟨room, counter⟩, c.send_capacity e, c.send_connected e, same, ?_, ?_⟩
      · simp [taken, accepts, queue]
      · simp [refused, accepts, dropped]

/-- The reader takes events out. -/
theorem drain (sound : c.Sound) (max : Option Nat) :
    c.Passes (c.drain max).2 [] ((c.drain max).1.getD []) := by
  have parts := c.drain_append max
  have room : (c.drain max).2.queue.length ≤ (c.drain max).2.capacity := by
    have length := congrArg List.length parts
    have before := sound.room
    rw [List.length_append] at length
    rw [drain_capacity]
    omega
  refine ⟨⟨room, ?_⟩, c.drain_capacity max, c.drain_connected max, nofun, ?_, ?_⟩
  · rw [drain_dropped]
    exact sound.counter
  · exact (List.append_nil _).trans parts.symm
  · rw [drain_dropped]
    exact (Word.wrapAdd_zero sound.counter).symm

end Passes

/-- The reader has gone away and has left nothing behind. -/
structure ReaderGone (c : Channel) : Prop where
  connected : c.connected = false
  queue : c.queue = []

theorem hangUp_readerGone (c : Channel) : c.hangUp.ReaderGone :=
  ⟨rfl, rfl⟩

theorem Sound.hangUp {c : Channel} (sound : c.Sound) : c.hangUp.Sound :=
  ⟨Nat.zero_le _, sound.counter⟩

/-- A reader goes away once. -/
theorem ReaderGone.hangUp {c : Channel} (h : c.ReaderGone) : c.hangUp = c := by
  rcases c with ⟨capacity, queue, dropped, connected⟩
  cases h.connected
  cases h.queue
  rfl

variable {c c' : Channel} {met : List (Event × Channel)} {got : List Event}

/-- Without a reader all events are dropped. -/
theorem Passes.accepts_of_readerGone (h : c.Passes c' met got) (readerGone : c.ReaderGone) :
    ∀ m ∈ met, m.2.accepts = false := by
  intro m mem
  have gone := (h.same m mem).2.trans readerGone.connected
  simp [accepts, gone]

/-- A reader that has gone away gets nothing, nothing is queued, and whatever arrives is
counted. -/
theorem Passes.readerGone (h : c.Passes c' met got) (readerGone : c.ReaderGone) :
    c'.ReaderGone ∧ got = [] ∧ c'.dropped = Word.wrapAdd c.dropped met.length := by
  have refuses := h.accepts_of_readerGone readerGone
  have nothing : taken met = [] := by
    rw [taken, List.filter_eq_nil_iff.2 fun m mem => by simp [refuses m mem]]
    rfl
  have all : refused met = met.length :=
    List.countP_eq_length.2 fun m mem => by simp [refuses m mem]
  have conserved := h.conserved
  rw [readerGone.queue, nothing, List.append_nil] at conserved
  obtain ⟨gotNothing, queue⟩ := List.append_eq_nil_iff.1 conserved.symm
  refine ⟨⟨h.connected.trans readerGone.connected, queue⟩, gotNothing, ?_⟩
  rw [h.counted, all]

end RegionHeap.Channel
