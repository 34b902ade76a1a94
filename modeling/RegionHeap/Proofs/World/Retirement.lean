import RegionHeap.Proofs.Arena.Return
import RegionHeap.Proofs.World.Opened

/-!
# Retirement

Setup looks at the settings and at the sentinel, but not at the words in which the regions
count. Where the settings count in the same words, whatever setup accepts is enough to retire
with: the fill ends, too little is left for another, and the region is handed back with all
bytes that are not waste. Where they do not, this is so at least if there is nothing to fill.
-/

namespace RegionHeap

namespace Arena

open Program

variable {a : Arena} {g : Geometry} {s s' : Store} {i : Nat} {slot : Slot}

/-- A region that has no room for a filler is given up as it is. -/
theorem giveUp_ends_of_few (kind : a.kind = .plain) (word : a.settings.heapWordBytes ≠ 0)
    (p : slot.region.Placed g i) (found : s.heap.find (.table i) = .ok slot)
    (full : slot.region.load ≠ 0)
    (few : slot.region.room / a.settings.heapWordBytes < a.settings.minFillWords) :
    (a.giveUp (.table i) true).Ends s (.ok slot.region.room)
      (a.handedBack i slot.region.load s) := by
  have notEmpty : slot.region.isEmpty = .ok false := by
    simp [p.isEmpty_eq, full]
  have words := Word.div_eq_ok (a := slot.region.room) word
  have fill (patience : Nat) : (a.fill (.table i) (patience + 1)
      (slot.region.room / a.settings.heapWordBytes)).Ends s (.ok 0) s := by
    rw [Arena.fill, if_pos few]
    exact Ends.pure 0 s
  have room : Word.add 0 slot.region.room = .ok slot.region.room := by
    have inside := p.inside
    rw [Word.add_eq_ok, Nat.zero_add]
    rw [Region.room]
    omega
  have settles : (a.settle (.table i) true).Ends s (.ok (slot.region.room, 0)) s :=
    (Ends.look found).bind ((Ends.compute p.free_eq s).bind ((Ends.compute words s).bind
      ((fill _).bind ((Ends.freeBytes found p.free_eq).bind ((Ends.compute words s).bind
        ((Ends.require few _ s).bind ((Ends.compute room s).bind (Ends.pure _ s))))))))
  refine (Ends.look found).bind ((Ends.compute notEmpty s).bind ((Ends.require rfl _ s).bind ?_))
  refine settles.bind ((Ends.usedBytes found p.used_eq).bind
    ((Ends.compute (Word.sub_eq_ok (Nat.zero_le _)) s).bind ?_))
  rw [p.index]
  exact (handBack_ends fun purpose other => by cases kind.symm.trans other).bind (Ends.pure _ _)

/-- A region is given up with nothing missing, if the settings count in its words or it has
no room for a filler. -/
theorem giveUp_ends_whole (kind : a.kind = .plain) (word : a.settings.heapWordBytes ≠ 0)
    (least : 0 < a.settings.minFillWords) (sound : g.Sound) (p : slot.region.Placed g i)
    (found : s.heap.find (.table i) = .ok slot) (full : slot.region.load ≠ 0)
    (agree : a.settings.heapWordBytes = g.wordBytes ∨
      slot.region.room / a.settings.heapWordBytes < a.settings.minFillWords) :
    ∃ waste live slot', (a.giveUp (.table i) true).Ends s (.ok waste)
        (a.handedBack i live (s.setSlot i slot')) ∧
      live + waste = g.bytes ∧
        slot'.region.room / a.settings.heapWordBytes < a.settings.minFillWords := by
  rcases agree with agree | few
  · have suits : a.Suits g := ⟨agree, least⟩
    have gives := giveUp_ends suits sound p found full
      (fun purpose other => by cases kind.symm.trans other) true
    have whole := Slot.waste_add_live p sound a.settings.minFillWords true
    have q := Slot.settled_placed p a.settings.minFillWords true
    have sealed : (slot.settled a.settings.minFillWords true).region.left <
        a.settings.minFillWords :=
      Region.left_plugged_lt _ least
    refine ⟨_, _, _, gives, (Nat.add_comm _ _).trans whole, ?_⟩
    rwa [agree, ← q.word]
  · have gives := giveUp_ends_of_few kind word p found full few
    refine ⟨slot.region.room, slot.region.load, slot, ?_, p.load_add_room, few⟩
    rwa [Store.setSlot_self found]

/-- Giving the active region up is all that happens to the heap. -/
theorem retirePlain_ends {waste : Nat} {filling : Bool}
    (active : s.registers.active = some (.table i))
    (gives : (a.giveUp (.table i) filling).Ends s (.ok waste) s') :
    (a.retirePlain filling).Ends s (.ok waste) (emptied s') :=
  (Ends.current active).bind ((Ends.tell a _ s).bind (gives.bind
    ((Ends.activate _ _).bind ((Ends.tell a _ _).bind (Ends.pure _ _)))))

end Arena

namespace World

/-- What setup accepts is enough to retire with, if the settings count in the words of the
regions, or if the region has no room for a filler: a plain arena that holds a region in its
place and not empty, for which nobody competes, fills it up and hands it back. What it hands
back as used and what it answers as waste are the whole region, and fewer words are left than
the shortest filler has. -/
theorem retirement {geometry : Geometry} {offer : SentinelOffer} {settings : Settings}
    {basis : Basis} (valid : geometry.validate = .ok ())
    (setup : Basis.setup offer settings = .ok basis) {w : World} {k i : Nat} {site : Site}
    {slot : Slot} (here : w.sites[k]? = some site) (kind : site.arena.kind = .plain)
    (shared : site.arena.settings = settings)
    (active : site.registers.active = some (.table i))
    (found : w.heap.supply.slots[i]? = some slot) (placed : slot.region.Placed geometry i)
    (full : slot.region.load ≠ 0)
    (agree : settings.heapWordBytes = geometry.wordBytes ∨
      slot.region.room / settings.heapWordBytes < settings.minFillWords) :
    ∃ waste used slot', (w.call k (.retire true)).1 = .ok (.bytes waste) ∧
      (w.call k (.retire true)).2.heap.supply.mutatorReturns =
        w.heap.supply.mutatorReturns ++ [{ region := i, usedBytes := used }] ∧
      used + waste = slot.region.limit - slot.region.bottom ∧
      (w.call k (.retire true)).2.heap.supply.slots[i]? = some slot' ∧
      slot'.region.room / settings.heapWordBytes < settings.minFillWords := by
  subst shared
  obtain ⟨accepted, -⟩ := Basis.setup_eq_ok setup
  obtain ⟨⟨n, power⟩, least, -⟩ := Settings.validate_eq_ok_iff.1 accepted
  have word : site.arena.settings.heapWordBytes ≠ 0 :=
    Nat.ne_of_gt (power ▸ Nat.two_pow_pos n)
  obtain ⟨waste, used, slot', gives, whole, few⟩ := Arena.giveUp_ends_whole (s := w.store site)
    kind word least (Geometry.sound_of_validate valid) placed
    (Heap.find_table_eq_ok_iff.2 found) full agree
  have ends := (Arena.retirePlain_ends (s := w.store site) active gives).map Answer.bytes
  have plain : site.arena.answer (.retire true) = Answer.bytes <$> site.arena.retirePlain true := by
    simp only [Arena.answer, Arena.retire, kind]
  rw [← plain] at ends
  obtain ⟨said, run⟩ := ends []
  obtain ⟨heap, -, outcome⟩ := call_eq (siteFor_eq_ok here rfl) run
  refine ⟨waste, used, slot', outcome (w.diagnostics.noteAll_events said), ?_, ?_, ?_, few⟩
  · rw [heap]
    change w.heap.supply.mutatorReturns ++ site.arena.mutatorReturns i used = _
    simp [Arena.mutatorReturns, kind]
  · rw [whole, placed.limit, Nat.add_sub_cancel_left]
  · rw [heap]
    exact List.getElem?_set_self (List.getElem?_eq_some_iff.1 found).1

/-- Three words of a region are used. The filler takes the other five. -/
theorem retirement_small :
    let w := small.after [.call 3 .start, .call 3 (.claimLocked 3 3)]
    ∃ waste used, (w.call 3 (.retire true)).1 = .ok (.bytes waste) ∧
      (w.call 3 (.retire true)).2.heap.supply.mutatorReturns =
        [{ region := 0, usedBytes := used }] ∧
      used + waste = 64 := by
  intro w
  have valid : Geometry.small.validate = .ok () := by decide +kernel
  have setup : Basis.setup (.region .full) .small =
      .ok { sentinel := .full, settings := .small } := by decide +kernel
  have here : w.sites[3]? = some _ := rfl
  have found : w.heap.supply.slots[0]? = some _ := rfl
  obtain ⟨waste, used, slot', answer, returns, whole, -⟩ := retirement valid setup here rfl rfl
    rfl found ⟨rfl, rfl, rfl, rfl, by decide +kernel, by decide +kernel, by decide +kernel,
      by decide +kernel⟩ (by decide +kernel) (.inl rfl)
  exact ⟨waste, used, answer, returns, whole⟩

end World

/-- Settings that count in words twice as large as those of the small geometry. -/
def Settings.wide : Settings :=
  { heapWordBytes := 16, regionBytes := 64 }

/-- One small region, for an arena with such settings. -/
def World.unequal : World :=
  .new { sentinel := .full, settings := .wide }
    { Supply.small with slots := Supply.small.slots.take 1, free := [0] }
    [{ name := "Plain", kind := .plain, settings := .wide }] {}

/-- Setup accepts settings that count in larger words than the regions do. When the arena
retires after it was given one word, the fill takes three of seven, and the rest is found to
be enough for another filler. -/
theorem World.unequal_words :
    Geometry.small.validate = .ok () ∧
      Supply.new .small 1 = .ok unequal.heap.supply ∧
      Geometry.small.sentinel = .ok unequal.heap.sentinel ∧
      Basis.setup (.region unequal.heap.sentinel) .wide = .ok unequal.basis ∧
      let w := unequal.after [.call 0 .start, .call 0 (.claimLocked 1 1)]
      w.sites.map (fun site => site.registers.active) = [some (.table 0)] ∧
        w.heap.supply.slots.map (fun slot => (slot.region.load, slot.rivals)) = [(8, [])] ∧
        (w.call 0 (.retire true)).1 = .error (.stillFillable "Plain" 32) := by
  decide +kernel

end RegionHeap
