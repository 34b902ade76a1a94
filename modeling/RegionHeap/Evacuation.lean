import RegionHeap.Word

/-!
# Evacuation tallies

For each purpose of a collection: the words lost at the end of retired regions,
and the number of those regions. All arenas of a purpose share one tally. Both
counters wrap, the words at 64 bits and the regions at 32.
-/

namespace RegionHeap

/-- The tally of one purpose. -/
structure Tally where
  endWasteWords : Nat := 0
  regionsFilled : Nat := 0
  deriving DecidableEq

/-- The tally after one more region that lost `words` words. -/
def Tally.add (t : Tally) (words : Nat) : Tally :=
  { endWasteWords := Word.wrapAdd t.endWasteWords words
    regionsFilled := Word.wrapSucc32 t.regionsFilled }

/-- One tally for each purpose. -/
structure Evacuation where
  survivor : Tally := {}
  old : Tally := {}
  deriving DecidableEq

namespace Evacuation

/-- The tally of `p`. -/
def get (e : Evacuation) : Purpose → Tally
  | .survivor => e.survivor
  | .old => e.old

/-- The tallies with that of `p` replaced. -/
def set (e : Evacuation) (p : Purpose) (t : Tally) : Evacuation :=
  match p with
  | .survivor => { e with survivor := t }
  | .old => { e with old := t }

/-- One more region of purpose `p`, that lost `words` words. -/
def add (e : Evacuation) (p : Purpose) (words : Nat) : Evacuation :=
  e.set p ((e.get p).add words)

/-- The tallies with that of `p` cleared, or all of them. -/
def reset (e : Evacuation) : Option Purpose → Evacuation
  | some p => e.set p {}
  | none => {}

/-- The words lost for any purpose, if their number is a word. -/
def totalEndWaste (e : Evacuation) : Except Fault Nat :=
  Word.sum (Purpose.all.map fun p => (e.get p).endWasteWords)

/-- What the tallies can be asked and told. -/
inductive Command
  | add (purpose : Purpose) (words : Nat)
  | reset (purpose : Option Purpose)
  | get
  | total
  deriving DecidableEq

/-- What the tallies answer. -/
inductive Reply
  | tallies (e : Evacuation)
  | words (n : Nat)
  deriving DecidableEq

/-- Carry out a command on the tallies. -/
def respond (e : Evacuation) : Command → Except Fault Reply × Evacuation
  | .add purpose words =>
      let e := e.add purpose words
      (.ok (.tallies e), e)
  | .reset purpose =>
      let e := e.reset purpose
      (.ok (.tallies e), e)
  | .get => (.ok (.tallies e), e)
  | .total => (.words <$> e.totalEndWaste, e)

@[simp] theorem get_set (e : Evacuation) (p q : Purpose) (t : Tally) :
    (e.set p t).get q = if q = p then t else e.get q := by
  cases p <;> cases q <;> rfl

theorem get_add (e : Evacuation) (p q : Purpose) (words : Nat) :
    (e.add p words).get q = if q = p then (e.get q).add words else e.get q := by
  cases p <;> cases q <;> rfl

theorem add_comm (e : Evacuation) (p q : Purpose) (a b : Nat) :
    (e.add p a).add q b = (e.add q b).add p a := by
  cases p <;> cases q <;>
    simp [add, get, set, Tally.add, Word.wrapAdd, Word.wrapSucc32, Nat.add_right_comm]

end Evacuation

end RegionHeap
