import RegionHeap.Diagnostics.Channel
import RegionHeap.Diagnostics.Log
import RegionHeap.Waste

/-!
# Diagnostics

What the arenas say is a sequence of entries. A listener receives the events among
them, at its level of detail: it keeps them, queues them for a reader, writes them
to the log, or ignores them. The summary at the end of a tenancy goes to the log,
whoever listens.

Nothing here is visible to an arena, with one exception: the summary is worked out
only if the log keeps it, and is a fault if its totals are no words.
-/

namespace RegionHeap

/-- Who listens to the arenas. -/
inductive Listener
  /-- Nobody. -/
  | silent
  /-- The log. -/
  | log
  /-- Somebody who keeps every event. -/
  | recorder (detail : Detail) (events : List Event)
  /-- A reader at the other end of a channel. -/
  | channel (detail : Detail) (channel : Channel)
  deriving DecidableEq

/-- What an arena says: an event, or the totals of a tenancy that ends. -/
inductive Entry
  | event (e : Event)
  | summary (regions wastedBytes regionBytes : Nat)
  deriving DecidableEq

/-- The event of an entry, if it is one. -/
def Entry.event? : Entry → Option Event
  | event e => some e
  | summary .. => none

/-- The listener, the log, and how much the log keeps. -/
structure Diagnostics where
  listener : Listener := .silent
  logLevel : LogLevel := .off
  log : List LogLine := []
  deriving DecidableEq

namespace Diagnostics

/-- The detail that the listener asks for. -/
def detail (d : Diagnostics) : Detail :=
  match d.listener with
  | .silent => .off
  | .log => d.logLevel.detail
  | .recorder detail _ => detail
  | .channel detail _ => detail

/-- Deliver an event that is at the listener's level of detail. -/
def deliver (d : Diagnostics) (e : Event) : Diagnostics :=
  match d.listener with
  | .silent => d
  | .log => { d with log := d.log ++ [.ofEvent e] }
  | .recorder detail events => { d with listener := .recorder detail (events ++ [e]) }
  | .channel detail channel => { d with listener := .channel detail (channel.send e) }

/-- Let the listener hear of an event. -/
def hear (d : Diagnostics) (e : Event) : Diagnostics :=
  match e.atDetail d.detail with
  | some e => d.deliver e
  | none => d

/-- Take note of one entry. -/
def note (d : Diagnostics) : Entry → Except Fault Diagnostics
  | .event e => .ok (d.hear e)
  | .summary regions wastedBytes regionBytes =>
      if d.logLevel.keepsDebug then do
        let summary ← Summary.new regions wastedBytes regionBytes
        let line := LogLine.debug ("Mutator Allocation stats, " ++ summary.text)
        return { d with log := d.log ++ [line] }
      else .ok d

/-- Take note of the entries in order, up to the first fault. -/
def noteAll (d : Diagnostics) : List Entry → Option Fault × Diagnostics
  | [] => (none, d)
  | entry :: rest =>
      match d.note entry with
      | .ok d => d.noteAll rest
      | .error fault => (some fault, d)

/-- The events that a recorder keeps. -/
def recorded (d : Diagnostics) : List Event :=
  match d.listener with
  | .recorder _ events => events
  | _ => []

/-- Let a recorder start over. -/
def clear (d : Diagnostics) : Diagnostics :=
  match d.listener with
  | .recorder detail _ => { d with listener := .recorder detail [] }
  | _ => d

/-- The channel, if the listener has one. -/
def channel? (d : Diagnostics) : Option Channel :=
  match d.listener with
  | .channel _ channel => some channel
  | _ => none

/-- Change the channel, if the listener has one. -/
def mapChannel (d : Diagnostics) (f : Channel → Channel) : Diagnostics :=
  match d.listener with
  | .channel detail channel => { d with listener := .channel detail (f channel) }
  | _ => d

/-- What a recorder at a level of detail keeps of a sequence of entries. -/
def heardAt (detail : Detail) (entries : List Entry) : List Event :=
  entries.filterMap fun entry => entry.event?.bind fun e => e.atDetail detail

end Diagnostics

end RegionHeap
