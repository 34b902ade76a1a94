import RegionHeap.Race.Cursor

/-!
# Commands on one region

The owner of the region table works on regions directly. A command either changes
the region and answers, or is a fault and leaves the region as it is.
-/

namespace RegionHeap

namespace Region

/-- What the owner of a region can do with it. -/
inductive Command
  | claim (min desired : Nat)
  | take (words : Nat)
  | fill (filler : Span)
  | mark (address : Nat)
  | unmark
  | reset
  | inFiller (address : Nat)
  | contains (address : Nat)
  | words
  | state
  | describe
  /-- Let threads claim so many words each until they are refused. -/
  | race (threads words : Nat)
  deriving DecidableEq

/-- What came of a race. -/
structure RaceOutcome where
  count : Nat
  first : Option Nat
  last : Option Nat
  disjoint : Bool
  deriving DecidableEq

/-- What a region answers. -/
inductive Reply
  | nothing
  | span (s : Option Span)
  | address (a : Option Nat)
  | flag (b : Bool)
  | words (wordBytes free capacity : Nat)
  | state (r : Region)
  | text (s : String)
  | race (outcome : RaceOutcome)
  deriving DecidableEq

/-- Whether each span of `words` words ends before the next one begins. -/
def apart (bytes : Nat) : List Span → Bool
  | a :: b :: rest => a.start + bytes ≤ b.start && apart bytes (b :: rest)
  | _ => true

/-- What a race has come to. -/
def outcome (r : Race.AtCursor) (words : Nat) : RaceOutcome :=
  let spans := r.spans
  { count := spans.length
    first := spans.head?.map Span.start
    last := spans.getLast?.map Span.start
    disjoint := apart (words * r.region.wordBytes) spans }

/-- Carry out a command. -/
def obey (r : Region) : Command → Except Fault (Reply × Region)
  | .claim min desired => do
      let (span, r) ← r.claim min desired
      return (.span span, r)
  | .take words => do
      let (span, r) ← r.claim words words
      return (.address (span.map Span.start), r)
  | .fill filler => do
      let r ← r.addFiller filler
      return (.nothing, r)
  | .mark address => return (.nothing, r.mark address)
  | .unmark => return (.nothing, r.unmark)
  | .reset => return (.nothing, r.reset)
  | .inFiller address => do
      let b ← r.inFiller address
      return (.flag b, r)
  | .contains address => return (.flag (r.contains address), r)
  | .words => do
      let free ← r.freeInWords
      let capacity ← r.capacityInWords
      return (.words r.wordBytes free capacity, r)
  | .state => return (.state r, r)
  | .describe => return (.text r.describe, r)
  | .race threads words =>
      let race := (Race.AtCursor.new r threads).drain words
      match race.fault? with
      | some fault => throw fault
      | none => return (.race (outcome race words), race.region)

/-- Carry out a command and say what came of it; after a fault the region is as it
was. -/
def respond (r : Region) (c : Command) : Except Fault Reply × Region :=
  match r.obey c with
  | .ok (reply, r) => (.ok reply, r)
  | .error fault => (.error fault, r)

/-- The region after a list of commands, whether they were faults or not. -/
def after (r : Region) (cs : List Command) : Region :=
  cs.foldl (fun r c => (r.respond c).2) r

@[simp] theorem after_nil (r : Region) : r.after [] = r := rfl

@[simp] theorem after_cons (r : Region) (c : Command) (cs : List Command) :
    r.after (c :: cs) = (r.respond c).2.after cs := rfl

end Region

end RegionHeap
