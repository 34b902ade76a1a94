import RegionHeap.Proofs.Arena.Stint
import RegionHeap.Proofs.World.Opened

/-!
# The ledger of the collections

The ledger is read off the history of a world. It has the current stint of every arena of
a collection, the stints that are over, and those of each purpose that ended since its
tally was last reset.
-/

namespace RegionHeap

/-- Whether what happens is counted as it should be. The arenas retire in the way of their
kind, and nobody else adds to the tallies. -/
def Action.counted : Action → Bool
  | .call _ c => c.counted
  | .onTallies (.add ..) => false
  | _ => true

/-- The region that an arena of a collection allocates from. -/
def Site.filling (site : Site) : Option Nat :=
  match site.arena.kind with
  | .collector _ => site.registers.filling
  | .plain | .mutator => none

namespace World

/-- The region that the arena at a position allocates from for a collection. -/
def filling (w : World) (k : Nat) : Option Nat :=
  (w.sites[k]?).bind Site.filling

/-- The purpose of the arena at a position, if it works for a collection. -/
def purposeOf (w : World) (k : Nat) : Option Purpose :=
  (w.sites[k]?).bind fun site => site.arena.purpose

/-- The bytes that the arena at a position has noted. -/
def baseline (w : World) (k : Nat) : Nat :=
  match w.sites[k]? with
  | some site => site.registers.baseline
  | none => 0

end World

namespace Happening

/-- The words that the arena at position `k` hands out. -/
def span (h : Happening) (k : Nat) : Option Span :=
  match h.action with
  | .call j c => if j = k then c.span (h.before.call j c).1 else none
  | _ => none

/-- The stint of the arena at position `k` afterwards. -/
def stint (h : Happening) (k : Nat) (t : Option Stint) : Option Stint :=
  Stint.next t h.before.heap (h.before.filling k) (h.after.filling k) (h.span k)

/-- The stints that end. -/
def closings (h : Happening) (current : Nat → Option Stint) : List Closing :=
  match h.action with
  | .call k _ =>
      match h.before.purposeOf k with
      | some purpose => Stint.closings purpose (current k) h.before.heap (h.after.filling k)
      | none => []
  | _ => []

/-- Whether the tally of a purpose is reset. -/
def resets (h : Happening) (p : Purpose) : Bool :=
  match h.action with
  | .onTallies (.reset q) => q = none || q = some p
  | _ => false

end Happening

/-- What has become of the regions of the collections. -/
structure Ledger where
  current : Nat → Option Stint := fun _ => none
  closed : List Closing := []
  recent : Purpose → List Closing := fun _ => []

/-- The ledger after something more has happened. -/
def Ledger.enter (l : Ledger) (h : Happening) : Ledger where
  current k := h.stint k (l.current k)
  closed := l.closed ++ h.closings l.current
  recent p :=
    if h.resets p then []
    else l.recent p ++ (h.closings l.current).filter fun c => c.purpose = p

/-- The ledger of what happens to a world. -/
def World.ledger (w : World) (actions : List Action) : Ledger :=
  (w.history actions).foldl Ledger.enter {}

/-- The tally of these stints, in words of so many bytes. -/
def Closing.tally (wordBytes : Nat) (cs : List Closing) : Tally where
  endWasteWords := (cs.map fun c => c.waste / wordBytes).sum % Word.bound
  regionsFilled := cs.length % 2 ^ 32

namespace Closing

variable {wordBytes : Nat} {cs : List Closing}

theorem tally_concat (wordBytes : Nat) (cs : List Closing) (c : Closing) :
    (tally wordBytes cs).add (c.waste / wordBytes) = tally wordBytes (cs ++ [c]) := by
  simp [tally, Tally.add, Word.wrapAdd, Word.wrapSucc32]

/-- Stints of one purpose are counted on its tally and on no other. -/
theorem get_foldl_add {purpose : Purpose} (wordBytes : Nat) {cs : List Closing}
    (only : ∀ c ∈ cs, c.purpose = purpose) {e : Evacuation} {p : Purpose} {recent : List Closing}
    (before : e.get p = tally wordBytes recent) :
    (cs.foldl (fun e c => e.add purpose (c.waste / wordBytes)) e).get p =
      tally wordBytes (recent ++ cs.filter fun c => c.purpose = p) := by
  induction cs generalizing e recent with
  | nil => simpa using before
  | cons c cs ih =>
      have mine := only c List.mem_cons_self
      have rest := fun c hc => only c (List.mem_cons_of_mem _ hc)
      rw [List.foldl_cons]
      by_cases eq : p = purpose
      · subst eq
        have now : (e.add p (c.waste / wordBytes)).get p = tally wordBytes (recent ++ [c]) := by
          rw [Evacuation.get_add, if_pos rfl, before, tally_concat]
        rw [ih rest now, List.filter_cons_of_pos (by simp [mine]), List.append_assoc]
        rfl
      · have now : (e.add purpose (c.waste / wordBytes)).get p = tally wordBytes recent := by
          rw [Evacuation.get_add, if_neg eq, before]
        have other : ¬ c.purpose = p := fun h => eq (h ▸ mine)
        rw [ih rest now, List.filter_cons_of_neg (by simp [other])]

/-- In bytes, the words lost are the bytes wasted, up to the size of the counter. -/
theorem tally_mul (wordBytes : Nat) (whole : ∀ c ∈ cs, wordBytes ∣ c.waste) :
    (tally wordBytes cs).endWasteWords * wordBytes =
      (cs.map waste).sum % (Word.bound * wordBytes) := by
  have words : (cs.map fun c => c.waste / wordBytes).sum * wordBytes = (cs.map waste).sum := by
    induction cs with
    | nil => simp
    | cons c cs ih =>
        have mine := Nat.div_mul_cancel (whole c List.mem_cons_self)
        have rest := ih fun c hc => whole c (List.mem_cons_of_mem _ hc)
        simp only [List.map_cons, List.sum_cons, Nat.add_mul, mine, rest]
  rw [← words, Nat.mul_mod_mul_right]
  rfl

end Closing

end RegionHeap
