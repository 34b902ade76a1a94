import RegionHeap.Heap
import RegionHeap.Settings

/-!
# Setting a heap up

Arenas need a supply of regions, a sentinel and settings that fit together. Setup
checks the settings, and checks that the sentinel can never satisfy a claim. What
it accepts is a `Basis`. It can be installed once, and everybody takes the same
basis from there.
-/

namespace RegionHeap

/-- What is offered as a sentinel. -/
inductive SentinelOffer
  | region (r : Region)
  /-- A region without capacity that answers every claim with address zero. -/
  | leaking
  deriving DecidableEq

/-- Why a heap was not set up. -/
inductive SetupError
  | misconfigured (why : Misconfiguration)
  | fault (f : Fault)
  deriving DecidableEq

namespace SetupError

/-- The error in words. -/
def message : SetupError → String
  | misconfigured why => why.message
  | fault f => f.message

end SetupError

/-- The sentinel among the regions offered: it has no room, and a claim of one
word is refused. -/
def SentinelOffer.accept : SentinelOffer → Except Fault Region
  | .leaking => .error .sentinelAllocates
  | .region r => do
      let free ← r.free
      if free ≠ 0 then throw (.sentinelHasRoom free)
      else
        let (span, r) ← r.claim 1 1
        if span.isSome then throw .sentinelAllocates
        else return r

/-- What all arenas of one heap rest on. -/
structure Basis where
  sentinel : Region
  settings : Settings
  /-- The detail that whoever listens to the heap asks for. -/
  detail : Detail := .off
  deriving DecidableEq

namespace Basis

/-- Bundle a sentinel and settings, if they are fit for use. -/
def setup (offer : SentinelOffer) (settings : Settings) : Except SetupError Basis :=
  match settings.validate with
  | .error why => .error (.misconfigured why)
  | .ok () =>
      match offer.accept with
      | .error f => .error (.fault f)
      | .ok sentinel => .ok { sentinel, settings }

/-- The heap over a supply of regions. -/
def heap (b : Basis) (supply : Supply) : Heap :=
  { supply, sentinel := b.sentinel }

/-- The one-line text of a basis. -/
def describe (b : Basis) : String :=
  Text.partialRecord "AllocContext"
    [("config", b.settings.describe), ("observer_level", b.detail.constructorName)]

end Basis

/-- The place for the one basis of a process. -/
structure Installation where
  basis : Option Basis := none
  deriving DecidableEq

namespace Installation

/-- The basis, which must have been installed. -/
def get (i : Installation) : Except Fault Basis :=
  match i.basis with
  | some basis => .ok basis
  | none => .error .usedBeforeInstallation

/-- Install a basis where there is none. -/
def install (i : Installation) (basis : Basis) : Except Fault Installation :=
  match i.basis with
  | some _ => .error .installedTwice
  | none => .ok { basis := some basis }

/-- Whether a basis has been installed. -/
def isDone (i : Installation) : Bool :=
  i.basis.isSome

/-- Only what was never installed can be, and then it stays. -/
theorem get_of_install {i j : Installation} {basis : Basis}
    (h : i.install basis = .ok j) : i.isDone = false ∧ j.get = .ok basis := by
  unfold install at h
  split at h
  · cases h
  · cases h
    simp_all [get, isDone]

end Installation

end RegionHeap
