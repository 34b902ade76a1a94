import RegionHeap.Proofs.Arena.Handling
import RegionHeap.Proofs.Heap.Each
import Mathlib.Data.List.Basic

/-!
# Faithful reports

The last event that an arena has reported tells how many regions the arena has counted and
what it holds, and the events since it was last started tell the count as well. An arena that
changes the one or the other reports at once. So this is kept by whole procedures, and where
a procedure writes these registers it is kept by the change and its report together.

## Implementation notes

`Store.CountTold` is what holds between a change of what the arena holds and its report;
`Store.Faithful` adds that the last event is up to date. `Program.Keeps` speaks of runs rather
than of steps, since a single step that makes a region active is not faithful.
-/

namespace RegionHeap

/-- The label tells what is held: nothing, the sentinel, or the region at a position. -/
inductive HoldingLabel.Names : HoldingLabel → Option Place → Prop
  | null : Names .null none
  | sentinel : Names .sentinel (some .sentinel)
  | region (i bottom top limit : Nat) : Names (.region i bottom top limit) (some (.table i))

/-- Whether an arena that reports this moment has just changed its count. -/
def Moment.counts : Moment → Bool
  | .started | .published => true
  | _ => false

/-- How often an arena has published a region since it was last started, by its events. -/
def Event.publications (events : List Event) : Nat :=
  (events.reverse.takeWhile fun e => e.moment ≠ .started).countP fun e => e.moment = .published

namespace Event

variable {events : List Event} {e : Event}

@[simp] theorem publications_nil : publications [] = 0 := rfl

theorem publications_started (h : e.moment = .started) : publications (events ++ [e]) = 0 := by
  simp [publications, h]

theorem publications_published (h : e.moment = .published) :
    publications (events ++ [e]) = publications events + 1 := by
  simp [publications, h]

theorem publications_of_not_counts (h : e.moment.counts = false) :
    publications (events ++ [e]) = publications events := by
  have started : e.moment ≠ .started := fun eq => by simp [eq, Moment.counts] at h
  have published : e.moment ≠ .published := fun eq => by simp [eq, Moment.counts] at h
  simp [publications, started, published]

/-- Whatever is heard of an event, only its sizes can be missing. -/
theorem atDetail_eq_some {detail : Detail} {heard : Event} (h : e.atDetail detail = some heard) :
    heard.count = e.count ∧ heard.holding = e.holding ∧ heard.moment = e.moment := by
  cases detail with
  | off => cases h
  | trace =>
      cases h
      exact ⟨rfl, rfl, rfl⟩
  | debug =>
      rw [eq_of_atDetail_debug h]
      exact ⟨rfl, rfl, rfl⟩

/-- Everybody who listens hears of a transition. -/
theorem atDetail_of_sizes_eq_none {detail : Detail} (listens : detail ≠ .off)
    (sizes : e.sizes = none) : ∃ heard, e.atDetail detail = some heard := by
  cases detail with
  | off => exact absurd rfl listens
  | trace => exact ⟨e, rfl⟩
  | debug => exact ⟨e.withoutSizes, by simp [atDetail, sizes]⟩

end Event

/-- The cursor is in bounds, and the region has this index. -/
structure Region.Numbered (i : Nat) (r : Region) : Prop extends Region.InBounds r where
  index : r.index = i

theorem Region.Numbered.keptByWork (i : Nat) : Region.KeptByWork (Region.Numbered i) where
  inBounds := Numbered.toInBounds
  stepped := by
    intro r r' numbered stepped
    refine ⟨stepped.inBounds numbered.toInBounds, ?_⟩
    cases stepped with
    | took words fits eq => rw [eq, ← numbered.index]; rfl
    | redrawn redrawn => rw [redrawn.index, numbered.index]

theorem Region.Numbered.reset {i : Nat} {r : Region} (h : r.Numbered i) : r.reset.Numbered i :=
  ⟨⟨h.word, Nat.le_refl _, Nat.le_trans h.bottom_le h.le_limit, h.inside⟩, h.index⟩

/-- Regions are told by their positions, and the active one is of the table. -/
structure Store.ToldByPosition (s : Store) : Prop where
  numbered : s.heap.Each s.heap.supply.slots.length Region.Numbered
  there : ∀ i, s.registers.active = some (.table i) → i < s.heap.supply.slots.length

theorem Store.ToldByPosition.names {s : Store} (h : s.ToldByPosition) :
    (s.heap.label s.registers.active).Names s.registers.active := by
  cases active : s.registers.active with
  | none => exact .null
  | some place =>
      cases place with
      | sentinel => exact .sentinel
      | table i =>
          obtain ⟨slot, found⟩ : ∃ slot, s.heap.supply.slots[i]? = some slot :=
            ⟨_, List.getElem?_eq_getElem (h.there i active)⟩
          have index := (h.numbered.holds found).index
          simp only [Heap.label, found, index]
          exact .region i ..

variable {detail : Detail} {earlier : List Event}

/-- What was heard of an arena so far: what was heard earlier, and of the transcript. -/
def Store.heard (detail : Detail) (earlier : List Event) (s : Store) : List Event :=
  earlier ++ Diagnostics.heardAt detail s.transcript

/-- The events heard tell how many regions the arena has counted. -/
structure Store.CountTold (detail : Detail) (earlier : List Event) (s : Store) : Prop
    extends Store.ToldByPosition s where
  counted : Event.publications (s.heard detail earlier) % Nat.pow 2 32 = s.registers.count

/-- So they do, and the last of them is up to date. -/
structure Store.Faithful (detail : Detail) (earlier : List Event) (s : Store) : Prop
    extends Store.CountTold detail earlier s where
  last : ∀ e, (s.heard detail earlier).getLast? = some e →
    e.count = s.registers.count ∧ e.holding.Names s.registers.active

namespace Store

variable {s : Store} {name : String} {moment : Moment} {sizes : Option Sizes}

theorem heard_say (detail : Detail) (earlier : List Event) (s : Store) (e : Event) :
    (s.say (.event e)).heard detail earlier =
      s.heard detail earlier ++ (e.atDetail detail).toList := by
  unfold heard say Diagnostics.heardAt
  rw [List.filterMap_append, List.append_assoc]
  cases heard : e.atDetail detail <;> simp [Entry.event?, heard]

/-- An event that is heard is up to date when it is reported. -/
theorem ToldByPosition.faithful_say (toldByPosition : s.ToldByPosition) {heard : Event}
    (hears : (s.event name moment sizes).atDetail detail = some heard)
    (counted : Event.publications (s.heard detail earlier ++ [heard]) % Nat.pow 2 32 =
      s.registers.count) :
    (s.say (.event (s.event name moment sizes))).Faithful detail earlier := by
  have said := heard_say detail earlier s (s.event name moment sizes)
  rw [hears] at said
  obtain ⟨count, holding, -⟩ := Event.atDetail_eq_some hears
  refine ⟨⟨⟨toldByPosition.numbered, toldByPosition.there⟩, ?_⟩, ?_⟩
  · rw [said]
    exact counted
  · intro e last
    rw [said] at last
    obtain rfl : heard = e := by simpa using last
    rw [count, holding]
    exact ⟨rfl, toldByPosition.names⟩

/-- Where nothing is counted, the events go on to tell the count. -/
theorem CountTold.tell (h : s.CountTold detail earlier) (listens : detail ≠ .off)
    (still : moment.counts = false) :
    (s.say (.event (s.event name moment none))).Faithful detail earlier := by
  obtain ⟨heard, hears⟩ := Event.atDetail_of_sizes_eq_none (e := s.event name moment none)
    listens rfl
  obtain ⟨-, -, same⟩ := Event.atDetail_eq_some hears
  refine h.toToldByPosition.faithful_say hears ?_
  rw [Event.publications_of_not_counts (same ▸ still)]
  exact h.counted

/-- So do reports with sizes, which not everybody hears. -/
theorem Faithful.report (h : s.Faithful detail earlier) (still : moment.counts = false) :
    (s.say (.event (s.event name moment sizes))).Faithful detail earlier := by
  cases hears : (s.event name moment sizes).atDetail detail with
  | some heard =>
      obtain ⟨-, -, same⟩ := Event.atDetail_eq_some hears
      refine h.toToldByPosition.faithful_say hears ?_
      rw [Event.publications_of_not_counts (same ▸ still)]
      exact h.counted
  | none =>
      have said := heard_say detail earlier s (s.event name moment sizes)
      rw [hears, Option.toList_none, List.append_nil] at said
      refine ⟨⟨⟨h.numbered, h.there⟩, ?_⟩, ?_⟩
      · rw [said]
        exact h.counted
      · rw [said]
        exact h.last

/-- An arena that is started over reports that it holds the sentinel and counts from zero. -/
theorem Faithful.start (h : s.Faithful detail earlier) (listens : detail ≠ .off) :
    let s' := { s with registers := { s.registers with active := some .sentinel, count := 0 } }
    (s'.say (.event (s'.event name .started none))).Faithful detail earlier := by
  intro s'
  obtain ⟨heard, hears⟩ := Event.atDetail_of_sizes_eq_none (e := s'.event name .started none)
    listens rfl
  obtain ⟨-, -, same⟩ := Event.atDetail_eq_some hears
  have toldByPosition : s'.ToldByPosition := ⟨h.numbered, nofun⟩
  refine toldByPosition.faithful_say hears ?_
  exact congrArg (fun n => n % Nat.pow 2 32) (Event.publications_started same)

/-- A region that is published is counted, and its publication is reported. -/
theorem Faithful.publish (h : s.Faithful detail earlier) (listens : detail ≠ .off) {i : Nat}
    (there : i < s.heap.supply.slots.length) :
    let s' := { s with registers := { s.registers with
      active := some (.table i), count := Word.wrapSucc32 s.registers.count } }
    (s'.say (.event (s'.event name .published none))).Faithful detail earlier := by
  intro s'
  obtain ⟨heard, hears⟩ := Event.atDetail_of_sizes_eq_none (e := s'.event name .published none)
    listens rfl
  obtain ⟨-, -, same⟩ := Event.atDetail_eq_some hears
  have toldByPosition : s'.ToldByPosition := by
    refine ⟨h.numbered, ?_⟩
    intro j active
    cases active
    exact there
  refine toldByPosition.faithful_say hears ?_
  rw [Event.publications_published same]
  change (Event.publications (s.heard detail earlier) + 1) % Nat.pow 2 32 =
    (s.registers.count + 1) % Nat.pow 2 32
  rw [← h.counted, Nat.mod_add_mod]

/-- An arena that goes over to the sentinel, or to nothing, has yet to report it. -/
theorem CountTold.withdraw (h : s.CountTold detail earlier) (place : Option Place)
    (withdrawn : ∀ i, place ≠ some (.table i)) :
    ({ s with registers := { s.registers with active := place } } : Store).CountTold
      detail earlier :=
  ⟨⟨h.numbered, fun i active => absurd active (withdrawn i)⟩, h.counted⟩

theorem CountTold.waste (h : s.CountTold detail earlier) (bytes : Nat) :
    ({ s with registers := { s.registers with wasted := bytes } } : Store).CountTold
      detail earlier :=
  ⟨⟨h.numbered, h.there⟩, h.counted⟩

end Store

/-- A step that changes neither what the arena holds nor its count, and reports no such change
of the count. -/
def Step.KeepsHolding : Step → Prop
  | .storeActive _ | .clearCount | .bumpCount => False
  | .report _ moment _ => moment.counts = false
  | _ => True

namespace Step

theorem Handles.keepsHolding {place : Place} {st : Step} (h : st.Handles place) :
    st.KeepsHolding := by
  cases st with
  | storeActive | clearCount | bumpCount | report => exact h.elim
  | _ => exact trivial

theorem KeepsHolding.keeps {st : Step} {s s' : Store} {answer : st.Answer} (still : st.KeepsHolding)
    (h : s.Faithful detail earlier) (performed : st.perform s = .ok (answer, s')) :
    s'.Faithful detail earlier := by
  have each := perform_each Region.Numbered.keptByWork h.numbered performed
  have of_same (registers : s'.registers.active = s.registers.active ∧
      s'.registers.count = s.registers.count)
      (heard : s'.heard detail earlier = s.heard detail earlier) : s'.Faithful detail earlier := by
    obtain ⟨active, count⟩ := registers
    refine ⟨⟨⟨each.length.symm ▸ each, ?_⟩, ?_⟩, ?_⟩
    · rw [active, each.length]
      exact h.there
    · rw [heard, count]
      exact h.counted
    · rw [heard, active, count]
      exact h.last
  cases st with
  | storeActive | clearCount | bumpCount => exact still.elim
  | report name moment sizes =>
      cases performed
      exact h.report still
  | summarise =>
      cases performed
      refine of_same ⟨rfl, rfl⟩ ?_
      simp [Store.heard, Store.say, Diagnostics.heardAt, Entry.event?]
  | look | claim | addFiller | mark | unmark =>
      have onHeap := perform_keeps performed trivial
      refine of_same ?_ ?_
      · rw [onHeap]
        exact ⟨rfl, rfl⟩
      · rw [onHeap]
        rfl
  | _ =>
      cases performed
      exact of_same ⟨rfl, rfl⟩ rfl

end Step

namespace Program

variable {α β : Type} {inv : Store → Prop} {x : Program α}

/-- A run of the program keeps the property, also if it ends in a fault. -/
def Keeps (inv : Store → Prop) (x : Program α) : Prop :=
  ∀ s, inv s → inv (x.run s).2

namespace Keeps

theorem bind {f : α → Program β} (first : x.Keeps inv) (rest : ∀ a, (f a).Keeps inv) :
    (x >>= f).Keeps inv := by
  intro s h
  have kept := first s h
  rw [run_bind]
  cases ran : x.run s with
  | mk result s' =>
      rw [ran] at kept
      cases result with
      | ok a => exact rest a s' kept
      | error fault => exact kept

/-- What follows a look at a place may rely on what is there. -/
theorem bind_look {place : Place} {f : Slot → Program β}
    (rest : ∀ s slot, s.heap.find place = .ok slot → inv s → inv ((f slot).run s).2) :
    (Program.look place >>= f).Keeps inv := by
  intro s h
  rw [run_bind, run_look]
  cases found : s.heap.find place with
  | error fault => exact h
  | ok slot => exact rest s slot found h

theorem pure (a : α) : (Pure.pure a : Program α).Keeps inv :=
  fun _ h => h

theorem fail (fault : Fault) : (Program.fail fault : Program α).Keeps inv :=
  fun _ h => h

theorem map {f : α → β} (h : x.Keeps inv) : (f <$> x).Keeps inv :=
  h.bind fun _ => pure _

theorem compute (result : Except Fault α) : (Program.compute result).Keeps inv := by
  intro s h
  rw [run_compute]
  exact h

theorem require (p : Prop) [Decidable p] (fault : Fault) : (Program.require p fault).Keeps inv := by
  intro s h
  rw [run_require]
  exact h

end Keeps

/-- Runs of the program leave the reports of the arena faithful. -/
abbrev KeepsFaithful (detail : Detail) (earlier : List Event) (x : Program α) : Prop :=
  x.Keeps (Store.Faithful detail earlier)

theorem Only.keepsFaithful (still : x.Only Step.KeepsHolding) : x.KeepsFaithful detail earlier := by
  intro s h
  apply still.run_invariant _ _ h
  intro st s s' answer still h performed
  exact still.keeps h performed

theorem Handles.keepsFaithful {place : Place} (h : x.Handles place) :
    x.KeepsFaithful detail earlier :=
  Only.keepsFaithful (h.mono fun _ => Step.Handles.keepsHolding)

end Program

namespace Arena

open Program

variable (a : Arena)

/-! ## Procedures that leave what is held and the count alone -/

theorem keepsFaithful_tell {moment : Moment} (still : moment.counts = false) :
    (a.tell moment).KeepsFaithful detail earlier :=
  Only.keepsFaithful (.perform still)

theorem keepsFaithful_tellSizes {moment : Moment} (still : moment.counts = false)
    (min desired : Nat)
    (result : Option Span) : (a.tellSizes moment min desired result).KeepsFaithful detail earlier :=
  Only.keepsFaithful (.perform still)

theorem keepsFaithful_perform {st : Step} (still : st.KeepsHolding) :
    (Program.perform st).KeepsFaithful detail earlier :=
  Only.keepsFaithful (.perform still)

theorem keepsFaithful_current : a.current.KeepsFaithful detail earlier := by
  refine .bind (keepsFaithful_perform trivial) fun place => ?_
  cases place with
  | none => exact .fail _
  | some place => exact .pure place

theorem keepsFaithful_held : Arena.held.KeepsFaithful detail earlier := by
  refine .bind (keepsFaithful_perform trivial) fun place => ?_
  cases place with
  | none => exact .pure _
  | some place => cases place <;> exact .pure _

theorem keepsFaithful_allocate (words : Nat) : (a.allocate words).KeepsFaithful detail earlier :=
  .bind a.keepsFaithful_current fun _ => .bind (keepsFaithful_perform trivial) fun _ => .pure _

theorem keepsFaithful_claim (min desired : Nat) :
    (a.claim min desired).KeepsFaithful detail earlier := by
  refine .bind a.keepsFaithful_current fun place => ?_
  refine .bind (keepsFaithful_perform trivial) fun span => ?_
  cases span with
  | none => exact .bind (a.keepsFaithful_tellSizes rfl _ _ _) fun _ => .pure _
  | some span => exact .bind (a.keepsFaithful_tellSizes rfl _ _ _) fun _ => .pure _

theorem keepsFaithful_claimRetained (min desired : Nat) :
    (a.claimRetained min desired).KeepsFaithful detail earlier := by
  refine .bind (keepsFaithful_perform trivial) fun place => ?_
  cases place with
  | none => exact .pure none
  | some place =>
      refine .bind (keepsFaithful_perform trivial) fun span => ?_
      cases span with
      | none => exact .pure none
      | some span => exact .bind (a.keepsFaithful_tellSizes rfl _ _ _) fun _ => .pure _

theorem keepsFaithful_summary : a.summary.KeepsFaithful detail earlier :=
  .bind (keepsFaithful_perform trivial) fun _ =>
    .bind (keepsFaithful_perform trivial) fun _ => .compute _

theorem keepsFaithful_worthRetaining (place : Place) :
    (a.worthRetaining place).KeepsFaithful detail earlier := by
  refine .bind (handles_freeBytes place).keepsFaithful fun free => ?_
  split
  · exact .pure false
  · refine .bind (keepsFaithful_perform trivial) fun kept => ?_
    cases kept with
    | none => exact .pure true
    | some kept => exact .bind (handles_freeBytes kept).keepsFaithful fun _ => .pure _

theorem keepsFaithful_retainInstead (place : Place) :
    (a.retainInstead place).KeepsFaithful detail earlier := by
  refine .bind (a.keepsFaithful_tell rfl) fun _ => ?_
  refine .bind (keepsFaithful_perform trivial) fun kept => ?_
  cases kept with
  | none => exact .bind (keepsFaithful_perform trivial) fun _ => .pure 0
  | some displaced =>
      refine .bind (a.handles_giveUp displaced true).keepsFaithful fun wasted => ?_
      exact .bind (keepsFaithful_perform trivial) fun _ => .pure wasted

theorem keepsFaithful_releaseRetained : a.releaseRetained.KeepsFaithful detail earlier := by
  refine .bind (keepsFaithful_perform trivial) fun kept => ?_
  cases kept with
  | none => exact .pure ()
  | some kept =>
      refine .bind (a.handles_giveUp kept false).keepsFaithful fun bytes => ?_
      exact .bind (keepsFaithful_perform trivial) fun _ => keepsFaithful_perform trivial

/-! ## Procedures that change them and report it -/

section
variable (listens : detail ≠ .off)
include listens

theorem keepsFaithful_startPlain : a.startPlain.KeepsFaithful detail earlier := by
  refine .bind (a.keepsFaithful_tell rfl) fun _ => ?_
  refine .bind (keepsFaithful_perform trivial) fun place => ?_
  cases place with
  | some place => exact .fail _
  | none => exact fun s h => h.start listens

theorem keepsFaithful_start : a.start.KeepsFaithful detail earlier := by
  unfold start
  cases a.kind with
  | plain | collector => exact a.keepsFaithful_startPlain listens
  | mutator =>
      refine .bind (keepsFaithful_perform trivial) fun kept => ?_
      refine .bind (.require _ _) fun _ => ?_
      exact .bind (a.keepsFaithful_startPlain listens) fun _ => keepsFaithful_perform trivial

theorem keepsFaithful_retirePlain (filling : Bool) :
    (a.retirePlain filling).KeepsFaithful detail earlier := by
  refine .bind a.keepsFaithful_current fun place => ?_
  refine .bind (a.keepsFaithful_tell rfl) fun _ => ?_
  split
  · exact .bind (a.keepsFaithful_tell rfl) fun _ => .pure 0
  · refine .bind (a.handles_giveUp place filling).keepsFaithful fun wasted s h => ?_
    exact (h.withdraw (some .sentinel) nofun).tell listens rfl

theorem keepsFaithful_retireRetaining (filling : Bool) :
    (a.retireRetaining filling).KeepsFaithful detail earlier := by
  refine .bind a.keepsFaithful_current fun place => ?_
  refine .bind (a.keepsFaithful_tell rfl) fun _ => ?_
  split
  · refine .bind (keepsFaithful_perform trivial) fun _ => ?_
    exact .bind (a.keepsFaithful_tell rfl) fun _ => .pure 0
  · refine .bind (a.keepsFaithful_worthRetaining place) fun keep => ?_
    refine .bind ?_ fun wasted s h => ?_
    · cases keep with
      | true => exact a.keepsFaithful_retainInstead place
      | false => exact (a.handles_giveUp place filling).keepsFaithful
    · have withdrawn := h.withdraw (some .sentinel) nofun
      exact (withdrawn.waste _).tell listens rfl

theorem keepsFaithful_retireTallying (purpose : Purpose) (filling : Bool) :
    (a.retireTallying purpose filling).KeepsFaithful detail earlier := by
  refine .bind keepsFaithful_held fun place => ?_
  cases place with
  | none => exact a.keepsFaithful_retirePlain listens filling
  | some place =>
      refine .bind (a.keepsFaithful_retirePlain listens filling) fun wasted => ?_
      refine .bind (.compute _) fun words => ?_
      exact .bind (keepsFaithful_perform trivial) fun _ => .pure wasted

theorem keepsFaithful_retire (filling : Bool) :
    (a.retire filling).KeepsFaithful detail earlier := by
  unfold retire
  cases a.kind with
  | plain => exact a.keepsFaithful_retirePlain listens filling
  | mutator => exact a.keepsFaithful_retireRetaining listens filling
  | collector purpose => exact a.keepsFaithful_retireTallying listens purpose filling

theorem keepsFaithful_releaseBy {retire : Bool → Program Nat}
    (keepsFaithful : (retire false).KeepsFaithful detail earlier) :
    (a.releaseBy retire).KeepsFaithful detail earlier := by
  refine .bind (a.keepsFaithful_tell rfl) fun _ => ?_
  refine .bind a.keepsFaithful_current fun place => ?_
  refine .bind keepsFaithful fun _ => ?_
  refine .bind (keepsFaithful_perform trivial) fun left => ?_
  refine .bind (.require _ _) fun _ s h => ?_
  exact (h.withdraw none nofun).tell listens rfl

theorem keepsFaithful_releaseRetaining : a.releaseRetaining.KeepsFaithful detail earlier := by
  have releases : (a.releaseBy a.retireRetaining).KeepsFaithful detail earlier :=
    a.keepsFaithful_releaseBy listens (a.keepsFaithful_retireRetaining listens false)
  refine .bind releases fun released => .bind a.keepsFaithful_releaseRetained fun _ => ?_
  refine .bind (keepsFaithful_perform trivial) fun regions => ?_
  refine .bind (keepsFaithful_perform trivial) fun bytes => ?_
  exact .bind (keepsFaithful_perform trivial) fun _ => .pure released

theorem keepsFaithful_release : a.release.KeepsFaithful detail earlier := by
  unfold release
  cases a.kind with
  | plain => exact a.keepsFaithful_releaseBy listens (a.keepsFaithful_retirePlain listens false)
  | mutator => exact a.keepsFaithful_releaseRetaining listens
  | collector purpose =>
      exact a.keepsFaithful_releaseBy listens (a.keepsFaithful_retireTallying listens purpose false)

/-- A region is looked at before it is published, so it is of the table. -/
theorem keepsFaithful_publish (place : Place) : (a.publish place).KeepsFaithful detail earlier := by
  refine .bind (a.keepsFaithful_tell rfl) fun _ => .bind_look fun s slot found h => ?_
  rw [run_bind, run_compute]
  cases slot.region.isEmpty with
  | error fault => exact h
  | ok empty =>
      dsimp only
      rw [run_bind, run_require]
      by_cases fit : place ≠ .sentinel ∧ empty = false
      · rw [if_pos fit]
        cases place with
        | sentinel => exact absurd rfl fit.1
        | table i =>
            have here := Heap.find_table_eq_ok_iff.1 found
            exact h.publish listens (List.getElem?_eq_some_iff.1 here).1
      · rw [if_neg fit]
        exact h

theorem keepsFaithful_installGranted (place : Place) (words : Nat) :
    (a.installGranted place words).KeepsFaithful detail earlier := by
  refine .bind (keepsFaithful_perform trivial) fun _ => ?_
  refine .bind (keepsFaithful_perform trivial) fun slot => ?_
  refine .bind (.compute _) fun empty => ?_
  refine .bind (.require _ _) fun _ => ?_
  refine .bind (a.handles_onInstall place).keepsFaithful fun _ => ?_
  refine .bind (keepsFaithful_perform trivial) fun span => ?_
  cases span with
  | none => exact .fail _
  | some span =>
      refine .bind (a.keepsFaithful_publish listens place) fun _ => ?_
      exact .bind (a.keepsFaithful_tell rfl) fun _ => .pure _

theorem keepsFaithful_install (words : Nat) : (a.install words).KeepsFaithful detail earlier := by
  refine .bind a.keepsFaithful_current fun place => ?_
  refine .bind (.require _ _) fun _ => ?_
  refine .bind (a.keepsFaithful_tell rfl) fun _ => ?_
  refine .bind (keepsFaithful_perform trivial) fun granted => ?_
  cases granted with
  | none => exact .bind (a.keepsFaithful_tell rfl) fun _ => .pure _
  | some i => exact .bind (a.keepsFaithful_installGranted listens _ words) fun _ => .pure _

theorem keepsFaithful_adopt (place : Place) : (a.adopt place).KeepsFaithful detail earlier := by
  refine .bind (a.keepsFaithful_tell rfl) fun _ => ?_
  refine .bind a.keepsFaithful_current fun current => ?_
  refine .bind (keepsFaithful_perform trivial) fun count => ?_
  refine .bind (.require _ _) fun _ => ?_
  refine .bind (a.handles_onInstall place).keepsFaithful fun _ => ?_
  exact .bind (a.keepsFaithful_publish listens place) fun _ => a.keepsFaithful_tell rfl

theorem keepsFaithful_claimFresh (min desired : Nat) :
    (a.claimFresh min desired).KeepsFaithful detail earlier := by
  refine .bind (a.keepsFaithful_retire listens true) fun _ => ?_
  refine .bind (a.keepsFaithful_install listens desired) fun start => ?_
  cases start with
  | none => exact .bind (a.keepsFaithful_tellSizes rfl _ _ _) fun _ => .pure _
  | some start => exact .bind (a.keepsFaithful_tellSizes rfl _ _ _) fun _ => .pure _

theorem keepsFaithful_claimLocked (min desired : Nat) :
    (a.claimLocked min desired).KeepsFaithful detail earlier := by
  refine .bind (a.keepsFaithful_claim min desired) fun span => ?_
  cases span with
  | none => exact a.keepsFaithful_claimFresh listens min desired
  | some span => exact .pure _

theorem keepsFaithful_claimForced (words : Nat) :
    (a.claimForced words).KeepsFaithful detail earlier := by
  refine .bind (a.keepsFaithful_tellSizes rfl _ _ _) fun _ => ?_
  refine .bind (a.keepsFaithful_install listens words) fun start => ?_
  cases start with
  | none => exact .bind (a.keepsFaithful_tellSizes rfl _ _ _) fun _ => .pure _
  | some start => exact .bind (a.keepsFaithful_tellSizes rfl _ _ _) fun _ => .pure _

/-- Whatever is asked of an arena, also by a call that is a fault: its reports stay faithful. -/
theorem keepsFaithful_answer (c : Call) : (a.answer c).KeepsFaithful detail earlier := by
  cases c with
  | start => exact .bind (a.keepsFaithful_start listens) fun _ => .pure _
  | retire filling => exact (a.keepsFaithful_retire listens filling).map
  | release => exact (a.keepsFaithful_release listens).map
  | allocate words => exact (a.keepsFaithful_allocate words).map
  | claim min desired => exact (a.keepsFaithful_claim min desired).map
  | claimRetained min desired => exact (a.keepsFaithful_claimRetained min desired).map
  | claimLocked min desired => exact (a.keepsFaithful_claimLocked listens min desired).map
  | claimFresh min desired => exact (a.keepsFaithful_claimFresh listens min desired).map
  | claimForced words => exact (a.keepsFaithful_claimForced listens words).map
  | install words => exact (a.keepsFaithful_install listens words).map
  | adopt place => exact .bind (a.keepsFaithful_adopt listens place) fun _ => .pure _
  | held => exact keepsFaithful_held.map
  | summary => exact a.keepsFaithful_summary.map
  | startPlain => exact .bind (a.keepsFaithful_startPlain listens) fun _ => .pure _
  | retirePlain filling => exact (a.keepsFaithful_retirePlain listens filling).map
  | releasePlain =>
      exact (a.keepsFaithful_releaseBy listens (a.keepsFaithful_retirePlain listens false)).map

end

end Arena

end RegionHeap
