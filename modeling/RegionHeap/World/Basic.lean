import RegionHeap.Arena.Call
import RegionHeap.Race.Shared
import RegionHeap.Setup

/-!
# Worlds

A world is a heap, the arenas that work on it, each with its registers, and the
diagnostics. Calls on the arenas run one at a time. After a fault the world goes
on with what the call had already done.

What an arena says while it works is collected in a transcript and handed to the
diagnostics when the call is over. So the diagnostics cannot influence a call,
except that the summary of a release can turn out to be a fault.
-/

namespace RegionHeap

/-- An arena with its registers. -/
structure Site where
  arena : Arena
  registers : Registers := {}
  deriving DecidableEq

/-- A heap, its arenas, and those who listen. -/
structure World where
  settings : Settings
  heap : Heap
  sites : List Site
  diagnostics : Diagnostics := {}
  deriving DecidableEq

namespace World

/-- A world in which nothing has happened yet. -/
def new (basis : Basis) (supply : Supply) (arenas : List Arena) (diagnostics : Diagnostics) :
    World :=
  { settings := basis.settings
    heap := basis.heap supply
    sites := arenas.map fun arena => { arena }
    diagnostics }

/-- What the arenas of the world rest on. -/
def basis (w : World) : Basis :=
  { sentinel := w.heap.sentinel, settings := w.settings, detail := w.diagnostics.detail }

/-- The arena at a position, with its registers. -/
def site (w : World) (i : Nat) : Except Fault Site :=
  match w.sites[i]? with
  | some site => .ok site
  | none => .error (.indexOutOfBounds w.sites.length i)

/-- The arena at a position, for a call that names only regions that there are. -/
def siteFor (w : World) (i : Nat) (c : Call) : Except Fault Site := do
  let site ← w.site i
  match c.place? with
  | none => return site
  | some place => do
      let _ ← w.heap.find place
      return site

/-- The world as the arena at a site sees it. -/
def store (w : World) (site : Site) : Store :=
  { registers := site.registers, heap := w.heap }

/-- The world after the arena at position `i` has left this store behind, and the
fault that the diagnostics found in its transcript. -/
def absorb (w : World) (i : Nat) (site : Site) (s : Store) : Option Fault × World :=
  let (fault, diagnostics) := w.diagnostics.noteAll s.transcript
  (fault,
    { w with
      heap := s.heap
      sites := w.sites.set i { site with registers := s.registers }
      diagnostics })

/-- Call the arena at position `i`. -/
def call (w : World) (i : Nat) (c : Call) : Except Fault Answer × World :=
  match w.siteFor i c with
  | .error fault => (.error fault, w)
  | .ok site =>
      let (result, s) := (site.arena.answer c).run (w.store site)
      match w.absorb i site s with
      | (some fault, w) => (.error fault, w)
      | (none, w) => (result, w)

/-- Let threads share the arena at position `i` until each has been refused; the
addresses handed out, in ascending order. -/
def drain (w : World) (i threads words : Nat) : Except Fault (List Nat) × World :=
  match w.site i with
  | .error fault => (.error fault, w)
  | .ok site =>
      let race := (Race.Shared.new site.arena (w.store site) threads).drain words
      match w.absorb i site race.store, race.fault? with
      | (some fault, w), _ => (.error fault, w)
      | (none, w), some fault => (.error fault, w)
      | (none, w), none => (.ok (race.spans.map Span.start), w)

/-- The bytes in use in the regions of the arena at a site. -/
def usedInRegions (w : World) (site : Site) : Except Fault Nat :=
  (Arena.usedInRegions.run (w.store site)).1

end World

end RegionHeap
