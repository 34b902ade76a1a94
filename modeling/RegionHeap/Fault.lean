import RegionHeap.Identity

/-!
# Faults

Two ways to go wrong. A *misconfiguration* is found while a geometry or
the settings are checked and can be reported to whoever chose them. A *fault* is a
broken contract: the operation stops where it is, and what it had already done
stays done.
-/

namespace RegionHeap

/-- What is wrong with a geometry or with settings. -/
inductive Misconfiguration
  | wordBytes (got : Nat)
  | regionWords
  | heapBase (wordBytes got : Nat)
  | heapWordSize (got : Nat)
  | minFillWords
  | minRetainBytes
  | regionBytes (wordSize got : Nat)
  deriving DecidableEq

namespace Misconfiguration

/-- The reason in words. -/
def reason : Misconfiguration → String
  | wordBytes got => "word_bytes must be a power of two (got " ++ toString got ++ ")"
  | regionWords => "region_words must be non-zero"
  | heapBase word got =>
      "heap_base must be non-zero and aligned to " ++ toString word ++
        " bytes (got " ++ Address.text got ++ ")"
  | heapWordSize got => "heap_word_size must be a power of two (got " ++ toString got ++ ")"
  | minFillWords => "min_fill_words must be at least 1"
  | minRetainBytes => "min_retain_bytes must be at least 1"
  | regionBytes wordSize got =>
      "region_bytes must be a non-zero multiple of heap_word_size " ++ toString wordSize ++
        " (got " ++ toString got ++ ")"

/-- Any reason, as it is reported. -/
def report (reason : String) : String :=
  "invalid configuration: " ++ reason

/-- The message of a misconfiguration. -/
def message (m : Misconfiguration) : String :=
  report m.reason

end Misconfiguration

/-- A broken contract. Arenas are named by the name they were built with. -/
inductive Fault
  | sumOverflow
  | productOverflow
  | differenceOverflow
  | divisionByZero
  | indexOutOfBounds (length index : Nat)
  | originAbove (origin address : Nat)
  | minExceedsDesired (min desired : Nat)
  | fillerOutside (start limit : Nat) (region : Nat)
  | unusableGeometry (why : Misconfiguration)
  | sentinelHasRoom (bytes : Nat)
  | sentinelAllocates
  | installedTwice
  | usedBeforeInstallation
  | alreadyStarted (arena : String)
  | notStarted (arena : String)
  | stillRetaining (arena : String)
  | notOverSentinel (arena : String)
  | grantNotEmpty
  | cannotHold (arena : String) (region : Nat) (words : Nat)
  | notFresh (arena : String)
  | emptyPublication (arena : String)
  | retiredEmpty (arena : String) (region : Nat)
  | stillFillable (arena : String) (bytes : Nat)
  | shrank (region : Nat) (before used : Nat)
  | sentinelLost (arena : String)
  /-- A fill that keeps failing although nobody else touches the region. -/
  | endlessFill
  deriving DecidableEq

namespace Fault

/-- The fault in words. -/
def message : Fault → String
  | sumOverflow => "attempt to add with overflow"
  | productOverflow => "attempt to multiply with overflow"
  | differenceOverflow => "attempt to subtract with overflow"
  | divisionByZero => "attempt to divide by zero"
  | indexOutOfBounds length index =>
      "index out of bounds: the len is " ++ toString length ++ " but the index is " ++
        toString index
  | originAbove origin address =>
      "address " ++ Address.text origin ++ " lies above " ++ Address.text address
  | minExceedsDesired min desired =>
      "min " ++ toString min ++ " exceeds desired " ++ toString desired
  | fillerOutside start limit region =>
      "filler [" ++ Address.text start ++ ", " ++ Address.text limit ++
        ") outside allocated part of region " ++ RegionIndex.label region
  | unusableGeometry why => "MockProvider layout: " ++ why.message
  | sentinelHasRoom bytes =>
      "sentinel region must have no free space (has " ++ toString bytes ++ " bytes)"
  | sentinelAllocates => "allocation from the sentinel region must fail"
  | installedTwice => "allocation context installed twice"
  | usedBeforeInstallation => "allocation context used before installation"
  | alreadyStarted arena => arena ++ ": init on an arena that is already initialized"
  | notStarted arena => arena ++ ": not initialized"
  | stillRetaining arena => arena ++ ": init with a region still retained"
  | notOverSentinel arena =>
      arena ++ ": a new region can only be installed over the sentinel"
  | grantNotEmpty => "new regions should be empty"
  | cannotHold arena region words =>
      arena ++ ": region " ++ RegionIndex.label region ++ " cannot hold " ++ toString words ++ " words"
  | notFresh arena => arena ++ ": set requires a freshly initialized arena"
  | emptyPublication arena => arena ++ ": only non-empty regions may become active"
  | retiredEmpty arena region =>
      arena ++ ": region " ++ RegionIndex.label region ++ " retired while empty"
  | stillFillable arena bytes =>
      arena ++ ": " ++ toString bytes ++ " bytes still fillable after retirement"
  | shrank region before used =>
      "region " ++ RegionIndex.label region ++ " shrank from " ++ toString before ++ " to " ++
        toString used ++ " bytes while installed"
  | sentinelLost arena => arena ++ ": retire must leave the sentinel installed"
  | endlessFill => "the fill of a retired region does not end"

end Fault

end RegionHeap
