import Mathlib
import RegionHeap.Proofs.Arena.GiveUp
import RegionHeap.Proofs.Heap.Orderly

/-!
# Deeds of an arena

Whatever is asked of an arena, it does a few things one after the other. A *deed* is
one of these things, with everything that it changes. All that holds of every deed
holds of every call, so an invariant has one case for each deed.
-/

namespace RegionHeap

/-- One thing that an arena does. -/
inductive Deed
  /-- Hold the sentinel, and count waste from zero if this is done in the way of an
  arena that keeps regions. -/
  | start (anew : Bool)
  | claim (region : Nat) (span : Span)
  /-- Be refused because a rival comes first. -/
  | outrun (region : Nat)
  /-- Give the active region up, and count the waste in the way of the kind if told so. -/
  | giveUp (region : Nat) (filling counted : Bool) (waste : Nat)
  /-- Put the active region aside. -/
  | keep (region : Nat)
  /-- Put the active region aside and give up the one that was there. -/
  | displace (region kept : Nat) (waste : Nat)
  /-- Give up the region put aside. -/
  | drop (kept : Nat) (waste : Nat)
  /-- Request a region in vain. -/
  | refuse (words : Nat)
  | install (region : Nat) (span : Span)
  /-- Be granted a region and leave it. -/
  | lose (region words : Nat)
  | adopt (region : Nat)
  /-- Note the bytes of a region that is not adopted after all. -/
  | note (bytes : Nat)
  | stop

namespace Deed

/-- The words that a deed hands out. -/
def words : Deed → Nat
  | claim _ span => span.words
  | install _ span => span.words
  | _ => 0

/-- The bytes that a deed wastes. -/
def waste : Deed → Nat
  | giveUp _ _ _ waste => waste
  | displace _ _ waste => waste
  | drop _ waste => waste
  | _ => 0

/-- The regions that a deed hands back. -/
def returned : Deed → List Nat
  | giveUp region _ _ _ => [region]
  | displace _ kept _ => [kept]
  | drop kept _ => [kept]
  | _ => []

/-- The regions that a deed brings to the arena. -/
def gained : Deed → List Nat
  | install region _ => [region]
  | adopt region => [region]
  | _ => []

/-- The regions that a deed adopts. -/
def adopted : Deed → List Nat
  | adopt region => [region]
  | _ => []

/-- The regions that the supply grants to a deed. -/
def granted : Deed → List Nat
  | install region _ => [region]
  | lose region _ => [region]
  | _ => []

/-- Words handed out by deeds. -/
def totalWords (ds : List Deed) : Nat := (ds.map words).sum

/-- Bytes wasted by deeds. -/
def totalWaste (ds : List Deed) : Nat := (ds.map waste).sum

end Deed

namespace Arena

variable {a : Arena} {s : Store}

/-- The store after the arena has noted how many bytes its next region holds. -/
def noted (a : Arena) (bytes : Nat) (s : Store) : Store :=
  { s with registers.baseline := a.noting bytes s.registers.baseline }

/-- The tallies after `waste` bytes were wasted, if the arena works for a collection. -/
def tallied (a : Arena) (waste : Nat) (e : Evacuation) : Evacuation :=
  match a.kind with
  | .plain | .mutator => e
  | .collector purpose => e.add purpose (waste / a.settings.heapWordBytes)

/-- The counter after `waste` bytes were wasted, if the arena works for the application
and keeps regions. -/
def wasting (a : Arena) (waste counter : Nat) : Nat :=
  match a.kind with
  | .mutator => Waste.add counter waste
  | .plain | .collector _ => counter

/-- The store after the waste of a retirement was accounted for, if it is at all. -/
def accounted (a : Arena) (counted : Bool) (waste : Nat) (s : Store) : Store :=
  { s with
    registers.wasted :=
      if counted then a.wasting waste s.registers.wasted else s.registers.wasted
    heap.evacuation :=
      if counted then a.tallied waste s.heap.evacuation else s.heap.evacuation }

theorem accounted_of_mutator (kind : a.kind = .mutator) (waste : Nat) (s : Store) :
    a.accounted true waste s =
      { s with registers.wasted := Waste.add s.registers.wasted waste } := by
  simp [accounted, wasting, tallied, kind]

theorem accounted_of_collector {purpose : Purpose} (kind : a.kind = .collector purpose)
    (waste : Nat) (s : Store) :
    a.accounted true waste s =
      { s with
        heap.evacuation := s.heap.evacuation.add purpose (waste / a.settings.heapWordBytes) } := by
  simp [accounted, wasting, tallied, kind]

/-- The store after a request for `words` words. -/
def requested (a : Arena) (words : Nat) (s : Store) : Store :=
  { s with heap.supply := (s.heap.supply.request words a.purpose a.node).2 }

/-- The store after a granted region was found empty and its marker was forgotten. -/
def prepared (a : Arena) (i words : Nat) (slot : Slot) (s : Store) : Store :=
  a.noted 0 ((a.requested words s).setSlot i { slot with region := slot.region.unmark })

/-- The store after the region at `i` was made active. -/
def published (i : Nat) (s : Store) : Store :=
  { s with registers := { s.registers with
    active := some (.table i)
    count := Word.wrapSucc32 s.registers.count } }

/-- The store after the arena has come to hold the sentinel in place of a region. -/
def emptied (s : Store) : Store :=
  { s with registers.active := some .sentinel }

/-- What each deed finds and what it leaves behind. -/
inductive Does (a : Arena) : Deed → Store → Store → Prop
  | start {s : Store} (anew : Bool) (idle : s.registers.active = none)
      (none : anew = true → s.registers.retained = none) :
      Does a (.start anew) s { s with registers := { s.registers with
        active := some .sentinel
        count := 0
        wasted := if anew then 0 else s.registers.wasted } }
  | claim {s : Store} {i words : Nat} {slot : Slot} (mine : i ∈ s.registers.regions)
      (found : s.heap.supply.slots[i]? = some slot) (pos : 0 < words)
      (fits : words ≤ slot.region.left) :
      Does a (.claim i { start := slot.region.top, words }) s
        (s.setSlot i { slot with region := slot.region.took words })
  | outrun {s : Store} {i : Nat} {slot : Slot} (mine : i ∈ s.registers.regions)
      (found : s.heap.supply.slots[i]? = some slot) (rivals : slot.rivals ≠ []) :
      Does a (.outrun i) s (s.setSlot i slot.outrun)
  | giveUp {s : Store} {i waste : Nat} {slot : Slot} {filling counted : Bool}
      (active : s.registers.active = some (.table i))
      (found : s.heap.supply.slots[i]? = some slot)
      (wasted : slot.waste a.settings.minFillWords filling = waste) :
      Does a (.giveUp i filling counted waste) s
        (a.accounted counted waste (emptied (a.gaveUp i filling slot s)))
  | keep {s : Store} {i : Nat} {slot : Slot} (kind : a.kind = .mutator)
      (active : s.registers.active = some (.table i)) (none : s.registers.retained = none)
      (found : s.heap.supply.slots[i]? = some slot)
      (worth : a.settings.minRetainBytes ≤ slot.region.room) :
      Does a (.keep i) s { s with registers := { s.registers with
        active := some .sentinel
        retained := some (.table i) } }
  | displace {s : Store} {i j waste : Nat} {slot kept : Slot} (kind : a.kind = .mutator)
      (active : s.registers.active = some (.table i))
      (retained : s.registers.retained = some (.table j))
      (found : s.heap.supply.slots[i]? = some slot)
      (foundKept : s.heap.supply.slots[j]? = some kept)
      (worth : a.settings.minRetainBytes ≤ slot.region.room)
      (better : kept.region.room < slot.region.room)
      (wasted : kept.waste a.settings.minFillWords true = waste) :
      Does a (.displace i j waste) s
        (a.accounted true waste
          (emptied { a.gaveUp j true kept s with registers.retained := some (.table i) }))
  | drop {s : Store} {j waste : Nat} {kept : Slot} (kind : a.kind = .mutator)
      (idle : s.registers.active = none)
      (retained : s.registers.retained = some (.table j))
      (foundKept : s.heap.supply.slots[j]? = some kept)
      (wasted : kept.waste a.settings.minFillWords false = waste) :
      Does a (.drop j waste) s
        { a.accounted true waste (a.gaveUp j false kept s) with registers.retained := none }
  | refuse {s : Store} {words : Nat} (active : s.registers.active = some .sentinel)
      (refused : s.heap.supply.grant words = none) :
      Does a (.refuse words) s (a.requested words s)
  | install {s : Store} {i words : Nat} {slot : Slot}
      (active : s.registers.active = some .sentinel)
      (granted : s.heap.supply.grant words = some i)
      (found : s.heap.supply.slots[i]? = some slot) (pos : 0 < words)
      (fits : words ≤ slot.region.left) :
      Does a (.install i { start := slot.region.top, words }) s
        (published i ((a.prepared i words slot s).setSlot i
          { slot with region := slot.region.unmark.took words }))
  | lose {s : Store} {i words : Nat} {slot : Slot}
      (active : s.registers.active = some .sentinel)
      (granted : s.heap.supply.grant words = some i)
      (found : s.heap.supply.slots[i]? = some slot) (zero : words = 0) :
      Does a (.lose i words) s (a.prepared i words slot s)
  | adopt {s : Store} {i : Nat} {slot : Slot} (active : s.registers.active = some .sentinel)
      (fresh : s.registers.count = 0) (found : s.heap.supply.slots[i]? = some slot)
      (full : slot.region.load ≠ 0) :
      Does a (.adopt i) s (published i (a.noted slot.region.load s))
  | note {s : Store} {bytes : Nat} (active : s.registers.active = some .sentinel) :
      Does a (.note bytes) s (a.noted bytes s)
  | stop {s : Store} (active : s.registers.active = some .sentinel) :
      Does a .stop s { s with registers.active := none }

/-- Deeds done one after the other. -/
inductive Deeds (a : Arena) : List Deed → Store → Store → Prop
  | nil (s : Store) : Deeds a [] s s
  | cons {d : Deed} {ds : List Deed} {s s₁ s₂ : Store} (first : a.Does d s s₁)
      (rest : Deeds a ds s₁ s₂) : Deeds a (d :: ds) s s₂

theorem Does.single {d : Deed} {s s' : Store} (h : a.Does d s s') : a.Deeds [d] s s' :=
  .cons h (.nil s')

theorem Deeds.append {ds es : List Deed} {s s₁ s₂ : Store} (h : a.Deeds ds s s₁)
    (h' : a.Deeds es s₁ s₂) : a.Deeds (ds ++ es) s s₂ := by
  induction h with
  | nil s => exact h'
  | cons first rest ih => exact .cons first (ih h')

end Arena

end RegionHeap
