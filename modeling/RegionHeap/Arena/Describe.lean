import RegionHeap.Arena.Call

/-!
# Arenas as text

The one-line text of an arena: its name, its node and the number of regions that
it has installed, and what its kind adds to that.
-/

namespace RegionHeap.Arena

/-- The part of the text that arenas of all kinds share. -/
def describePlain (a : Arena) (r : Registers) : String :=
  Text.partialRecord "AllocRegion"
    [("name", Text.quoted a.name), ("node", Text.wrapped "NodeIndex" a.node),
     ("count", toString r.count)]

/-- The text of an arena. -/
def describe (a : Arena) (r : Registers) : String :=
  match a.kind with
  | .plain => a.describePlain r
  | .mutator =>
      Text.record "MutatorAllocRegion"
        [("arena", a.describePlain r), ("retained", Text.flag r.retained.isSome),
         ("wasted_bytes", toString r.wasted)]
  | .collector purpose =>
      Text.record "CollectorAllocRegion"
        [("arena", a.describePlain r), ("purpose", purpose.constructorName)]

end RegionHeap.Arena
