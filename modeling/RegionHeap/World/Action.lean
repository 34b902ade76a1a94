import RegionHeap.Region.Command
import RegionHeap.World.Basic

/-!
# What happens to a world

Something happens to a world by an action: a call on one of the arenas, or
something that the owner of the heap does to the regions, the supply, the tallies
or the diagnostics. Every action has an outcome or is a fault, and leaves a world
behind in either case.
-/

namespace RegionHeap

/-- A region that somebody may take for the sentinel. -/
inductive Candidate
  | place (p : Place)
  /-- A region built like the sentinel, at no place of the heap. -/
  | lookalike
  deriving DecidableEq

/-- What can happen to a world. -/
inductive Action
  | call (arena : Nat) (call : Call)
  /-- Let threads share an arena until each has been refused. -/
  | drain (arena threads words : Nat)
  | exhaust
  | recycle (region : Nat)
  | request (words : Nat) (purpose : Option Purpose) (node : Nat)
  | takeBack (region : Nat) (bytes : Nat)
  | takeBackFrom (purpose : Purpose) (region : Nat) (bytes : Nat)
  | onRegion (region : Nat) (command : Region.Command)
  | addRival (region : Nat) (words : Nat)
  | onTallies (command : Evacuation.Command)
  | isSentinel (candidate : Candidate)
  /-- Read at most so many events from the channel. -/
  | read (max : Option Nat)
  | hangUp
  | clearRecord
  deriving DecidableEq

/-- What an action brings. -/
inductive Outcome
  | nothing
  | answer (a : Answer)
  | starts (addresses : List Nat)
  | granted (region : Option Nat)
  | region (reply : Region.Reply)
  | tallies (reply : Evacuation.Reply)
  | flag (b : Bool)
  | events (es : Option (List Event))
  deriving DecidableEq

namespace World

/-- The world with another supply. -/
def setSupply (w : World) (supply : Supply) : World :=
  { w with heap.supply := supply }

/-- Do something to the supply that may be a fault. -/
def onSupply (w : World) (f : Supply → Except Fault Supply) : Except Fault Outcome × World :=
  match f w.heap.supply with
  | .ok supply => (.ok .nothing, w.setSupply supply)
  | .error fault => (.error fault, w)

/-- Carry out a command on a region of the table. -/
def onRegion (w : World) (i : Nat) (c : Region.Command) :
    Except Fault Outcome × World :=
  match w.heap.supply.slot i with
  | .error fault => (.error fault, w)
  | .ok slot =>
      let (reply, region) := slot.region.respond c
      (.region <$> reply, w.setSupply (w.heap.supply.setSlot i { slot with region }))

/-- Whether a candidate is the sentinel of the heap. -/
def isSentinel (w : World) : Candidate → Except Fault Bool
  | .lookalike => .ok false
  | .place place => do
      let _ ← w.heap.find place
      return place.isSentinel

/-- Read from the channel, if there is one. -/
def read (w : World) (max : Option Nat) : Option (List Event) × World :=
  match w.diagnostics.channel? with
  | none => (none, w)
  | some channel =>
      let (events, channel) := channel.drain max
      (events, { w with diagnostics := w.diagnostics.mapChannel fun _ => channel })

/-- Carry out an action. -/
def perform (w : World) : Action → Except Fault Outcome × World
  | .call i c =>
      let (result, w) := w.call i c
      (.answer <$> result, w)
  | .drain i threads words =>
      let (result, w) := w.drain i threads words
      (.starts <$> result, w)
  | .exhaust => w.onSupply fun s => .ok s.exhaust
  | .recycle i => w.onSupply fun s => s.recycle i
  | .request words purpose node =>
      let (granted, supply) := w.heap.supply.request words purpose node
      (.ok (.granted granted), w.setSupply supply)
  | .takeBack i bytes =>
      w.onSupply fun s => do
        let slot ← s.slot i
        return s.takeBack slot.region.index bytes
  | .takeBackFrom purpose i bytes =>
      w.onSupply fun s => do
        let slot ← s.slot i
        return s.takeBackFrom purpose slot.region.index bytes
  | .onRegion i c => w.onRegion i c
  | .addRival i words => w.onSupply fun s => s.addRival i words
  | .onTallies c =>
      let (reply, evacuation) := w.heap.evacuation.respond c
      (.tallies <$> reply, { w with heap.evacuation := evacuation })
  | .isSentinel candidate => (.flag <$> w.isSentinel candidate, w)
  | .read max =>
      let (events, w) := w.read max
      (.ok (.events events), w)
  | .hangUp =>
      (.ok .nothing, { w with diagnostics := w.diagnostics.mapChannel Channel.hangUp })
  | .clearRecord => (.ok .nothing, { w with diagnostics := w.diagnostics.clear })

/-- The world after a list of actions, whether they were faults or not. -/
def after (w : World) (actions : List Action) : World :=
  actions.foldl (fun w action => (w.perform action).2) w

@[simp] theorem after_nil (w : World) : w.after [] = w := rfl

@[simp] theorem after_cons (w : World) (a : Action) (actions : List Action) :
    w.after (a :: actions) = (w.perform a).2.after actions := rfl

theorem after_append (w : World) (first second : List Action) :
    w.after (first ++ second) = (w.after first).after second := by
  simp [after]

end World

end RegionHeap
