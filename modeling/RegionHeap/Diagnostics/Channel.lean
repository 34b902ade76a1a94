import RegionHeap.Event
import RegionHeap.Word

/-!
# Channels

A bounded queue of events between the arenas and a reader. An event that finds
the queue full, or the reader gone, is dropped and counted, so the arenas never
wait. The reader does not wait either: it takes what is there. So a channel without
capacity accepts nothing.
-/

namespace RegionHeap

/-- A bounded queue of events. -/
structure Channel where
  capacity : Nat
  queue : List Event := []
  /-- The events that were dropped, in a counter of 64 bits. -/
  dropped : Nat := 0
  /-- Whether there still is a reader. -/
  connected : Bool := true
  deriving DecidableEq

namespace Channel

/-- Whether the next event is queued. -/
def accepts (c : Channel) : Bool :=
  c.connected && c.queue.length < c.capacity

/-- Queue an event, or drop it. -/
def send (c : Channel) (e : Event) : Channel :=
  if c.accepts then { c with queue := c.queue ++ [e] }
  else { c with dropped := Word.wrapAdd c.dropped 1 }

/-- Take at most `max` events from the queue, if there is a reader. -/
def drain (c : Channel) (max : Option Nat) : Option (List Event) × Channel :=
  if c.connected then
    let n := max.getD c.queue.length
    (some (c.queue.take n), { c with queue := c.queue.drop n })
  else (none, c)

/-- The reader goes away, and with it what is queued. -/
def hangUp (c : Channel) : Channel :=
  { c with connected := false, queue := [] }

@[simp] theorem send_capacity (c : Channel) (e : Event) :
    (c.send e).capacity = c.capacity := by
  unfold send; split <;> rfl

@[simp] theorem send_connected (c : Channel) (e : Event) :
    (c.send e).connected = c.connected := by
  unfold send; split <;> rfl

theorem send_of_accepts {c : Channel} (h : c.accepts = true) (e : Event) :
    (c.send e).queue = c.queue ++ [e] ∧ (c.send e).dropped = c.dropped := by
  simp [send, h]

theorem send_of_not_accepts {c : Channel} (h : c.accepts = false) (e : Event) :
    (c.send e).queue = c.queue ∧ (c.send e).dropped = Word.wrapAdd c.dropped 1 := by
  simp [send, h]

/-- A queue that holds no more than it may keeps to that. -/
theorem send_length_le {c : Channel} (h : c.queue.length ≤ c.capacity) (e : Event) :
    (c.send e).queue.length ≤ (c.send e).capacity := by
  unfold send
  split
  · rename_i ha
    simp only [accepts, Bool.and_eq_true, decide_eq_true_eq] at ha
    simp only [List.length_append, List.length_singleton]
    omega
  · exact h

@[simp] theorem drain_capacity (c : Channel) (max : Option Nat) :
    (c.drain max).2.capacity = c.capacity := by
  unfold drain; split <;> rfl

@[simp] theorem drain_connected (c : Channel) (max : Option Nat) :
    (c.drain max).2.connected = c.connected := by
  unfold drain; split <;> rfl

@[simp] theorem drain_dropped (c : Channel) (max : Option Nat) :
    (c.drain max).2.dropped = c.dropped := by
  unfold drain; split <;> rfl

/-- What is drained comes first, and nothing is lost. -/
theorem drain_append (c : Channel) (max : Option Nat) :
    (c.drain max).1.getD [] ++ (c.drain max).2.queue = c.queue := by
  unfold drain
  split <;> simp

end Channel

end RegionHeap
