import RegionHeap.Identity

/-!
# Events

What an arena tells about itself. An event says which arena it is about, how
many regions the arena has installed, what it holds, and what is going on. Events
about a request for words also carry its sizes.

How much of this somebody wants to hear is a `Detail`. In between everything and
nothing lie the transitions and the refused requests, without sizes.
-/

namespace RegionHeap

/-- How much a listener wants to hear. -/
inductive Detail
  | off
  | debug
  | trace
  deriving DecidableEq

namespace Detail

/-- The level as a constructor name. -/
def constructorName : Detail → String
  | off => "Off"
  | debug => "Debug"
  | trace => "Trace"

end Detail

/-- What an arena holds, as events report it. -/
inductive HoldingLabel
  /-- The arena is not started. -/
  | null
  /-- The arena holds the sentinel. -/
  | sentinel
  /-- The arena holds a region, with this cursor at the time. -/
  | region (index : Nat) (bottom top limit : Nat)
  deriving DecidableEq

namespace HoldingLabel

/-- The label in words. -/
def text : HoldingLabel → String
  | null => "null"
  | sentinel => "SENTINEL"
  | region index bottom top limit =>
      RegionIndex.label index ++ ":[" ++ Address.text bottom ++ ", " ++ Address.text top ++
        ", " ++ Address.text limit ++ "]"

end HoldingLabel

/-- What is going on in an arena. -/
inductive Moment
  | starting
  | started
  | requesting
  | requestRefused
  | requestServed
  | publishing
  | published
  | adopting
  | adopted
  | retiring
  | retaining
  | retired
  | releasing
  | released
  | claimed
  | claimRefused
  | retainedClaimed
  | lockedClaimed
  | lockedRefused
  | forcing
  | forced
  | forceRefused
  /-- Something that no arena of this library reports. -/
  | other (label : String)
  deriving DecidableEq

namespace Moment

/-- The moment in words. -/
def label : Moment → String
  | starting => "initializing"
  | started => "initialized"
  | requesting => "attempting region allocation"
  | requestRefused => "region allocation failed"
  | requestServed => "region allocation successful"
  | publishing => "update"
  | published => "updated"
  | adopting => "setting"
  | adopted => "set"
  | retiring => "retiring"
  | retaining => "mutator retained"
  | retired => "retired"
  | releasing => "releasing"
  | released => "released"
  | claimed => "alloc"
  | claimRefused => "alloc failed"
  | retainedClaimed => "alloc retained"
  | lockedClaimed => "alloc locked (second attempt)"
  | lockedRefused => "alloc locked failed"
  | forcing => "forcing alloc"
  | forced => "alloc forced"
  | forceRefused => "alloc forced failed"
  | other label => label

end Moment

/-- The sizes of a request for words. -/
structure Sizes where
  min : Nat
  desired : Nat
  /-- The words handed out, zero if refused. -/
  actual : Nat
  /-- The address handed out. -/
  result : Option Nat
  deriving DecidableEq

namespace Sizes

/-- Whether nothing was handed out. -/
def isRefusal (s : Sizes) : Bool :=
  s.actual == 0 && s.result.isNone

/-- The sizes in words, each after a blank. A refused request of which any size
would have done says nothing. -/
def text (s : Sizes) : String :=
  match s.result with
  | some result =>
      " min " ++ toString s.min ++ " desired " ++ toString s.desired ++
        " actual " ++ toString s.actual ++ " " ++ Address.text result
  | none =>
      if s.min = 0 then ""
      else " min " ++ toString s.min ++ " desired " ++ toString s.desired

end Sizes

/-- One thing that an arena reports. -/
structure Event where
  arena : String
  /-- The regions that the arena has installed since it was started. -/
  count : Nat
  holding : HoldingLabel
  moment : Moment
  sizes : Option Sizes
  deriving DecidableEq

namespace Event

/-- The event in one line. -/
def text (e : Event) : String :=
  e.arena ++ ": " ++ toString e.count ++ " " ++ e.holding.text ++ " : " ++ e.moment.label ++
    (match e.sizes with
    | some sizes => sizes.text
    | none => "")

/-- The event without its sizes. -/
def withoutSizes (e : Event) : Event :=
  { e with sizes := none }

/-- What a listener at this level hears of the event. At `debug` it hears of
transitions and refusals, and never sizes. -/
def atDetail (e : Event) : Detail → Option Event
  | .off => none
  | .trace => some e
  | .debug =>
      match e.sizes with
      | none => some e.withoutSizes
      | some sizes => if sizes.isRefusal then some e.withoutSizes else none

@[simp] theorem atDetail_off (e : Event) : e.atDetail .off = none := rfl

@[simp] theorem atDetail_trace (e : Event) : e.atDetail .trace = some e := rfl

/-- What is heard at `debug` has no sizes and is otherwise the event itself. -/
theorem eq_of_atDetail_debug {e d : Event} (h : e.atDetail .debug = some d) :
    d = e.withoutSizes := by
  unfold atDetail at h
  grind

end Event

end RegionHeap
