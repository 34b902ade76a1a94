import RegionHeap.Text.Hexadecimal

/-!
# Addresses, indices and purposes

The numbers by which the heap speaks of its parts: byte addresses below `2 ^ 64`,
positions in the region table and memory nodes below `2 ^ 32`. Address zero is
never the address of an object, and the last position and the last node have
names of their own. A purpose is the reason for which a collection asks for a
region.
-/

namespace RegionHeap

namespace Address

/-- Addresses are written in hexadecimal. -/
def text (a : Nat) : String :=
  Text.hexadecimal a

/-- Whether this is the address that no object has. -/
def isNull (a : Nat) : Bool :=
  a == 0

end Address

namespace RegionIndex

/-- The index of the zero-capacity region that stands in for "no region". -/
def sentinel : Nat := Nat.pow 2 32 - 1

/-- The sentinel goes by name, every other region by number. -/
def label (i : Nat) : String :=
  if i = sentinel then "sentinel" else toString i

end RegionIndex

namespace NodeIndex

/-- The node of a request that has no preference. -/
def anywhere : Nat := Nat.pow 2 32 - 1

/-- Having no preference is written `any`. -/
def label (n : Nat) : String :=
  if n = anywhere then "any" else toString n

end NodeIndex

/-- Why a collection acquires a region. -/
inductive Purpose
  /-- For objects that survive a young collection. -/
  | survivor
  /-- For objects promoted into the old generation. -/
  | old
  deriving DecidableEq

namespace Purpose

/-- Every purpose, in the order in which reports list them. -/
def all : List Purpose := [survivor, old]

theorem mem_all (p : Purpose) : p ∈ all := by
  cases p <;> decide

/-- The purpose as reports write it. -/
def label : Purpose → String
  | survivor => "survivor"
  | old => "old"

/-- The purpose as a constructor name. -/
def constructorName : Purpose → String
  | survivor => "Survivor"
  | old => "Old"

end Purpose

end RegionHeap
