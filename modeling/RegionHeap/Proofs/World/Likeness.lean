import RegionHeap.Proofs.Arena.Lockstep
import RegionHeap.Proofs.World.Indifference
import RegionHeap.Proofs.World.Each

/-!
# Likeness of arenas

Where no region has enough room to be put aside, an arena of application threads is a plain
one. The same calls on both, each in a world of its own, come to the same one after the other:
the same answers and faults, the same heap, the same events. Only the name of the arena tells
them apart.
-/

namespace RegionHeap

theorem Event.atDetail_anonymous (e : Event) (detail : Detail) :
    e.anonymous.atDetail detail = (e.atDetail detail).map Event.anonymous := by
  cases detail with
  | off => rfl
  | trace => rfl
  | debug =>
      rcases e with ⟨arena, count, holding, moment, sizes⟩
      cases sizes with
      | none => rfl
      | some sizes =>
          simp only [Event.atDetail, Event.anonymous]
          split <;> rfl

/-- The channel without names in the events that it holds. -/
def Channel.anonymous (c : Channel) : Channel :=
  { c with queue := c.queue.map Event.anonymous }

theorem Channel.anonymous_send (c : Channel) (e : Event) :
    (c.send e).anonymous = c.anonymous.send e.anonymous := by
  have same : c.anonymous.accepts = c.accepts := by
    simp only [accepts, anonymous, List.length_map]
  unfold send
  rw [same]
  cases c.accepts with
  | true => simp [anonymous]
  | false => rfl

/-- What was heard, without the names of arenas. -/
def Listener.anonymous : Listener → Listener
  | .recorder detail events => .recorder detail (events.map Event.anonymous)
  | .channel detail queued => .channel detail queued.anonymous
  | .silent => .silent
  | .log => .log

namespace Diagnostics

/-- The diagnostics without the names in events that were heard. -/
def anonymous (d : Diagnostics) : Diagnostics :=
  { d with listener := d.listener.anonymous }

theorem anonymous_detail (d : Diagnostics) : d.anonymous.detail = d.detail := by
  rcases d with ⟨listener, logLevel, log⟩
  cases listener <;> rfl

theorem anonymous_deliver {d : Diagnostics} (unlogged : d.listener ≠ .log) (e : Event) :
    (d.deliver e).anonymous = d.anonymous.deliver e.anonymous := by
  rcases d with ⟨listener, logLevel, log⟩
  cases listener with
  | silent => rfl
  | log => exact absurd rfl unlogged
  | recorder detail events =>
      simp only [deliver, anonymous, Listener.anonymous, List.map_append, List.map_cons,
        List.map_nil]
  | channel detail queued =>
      simp only [deliver, anonymous, Listener.anonymous, Channel.anonymous_send]

/-- Where the log keeps nothing, what is heard of an event does not depend on names. -/
theorem anonymous_hear {d : Diagnostics} (quiet : d.logLevel.keepsDebug = false) (e : Event) :
    (d.hear e).anonymous = d.anonymous.hear e.anonymous := by
  unfold hear
  rw [anonymous_detail, Event.atDetail_anonymous]
  by_cases logged : d.listener = .log
  · have off : d.detail = .off := by
      unfold detail
      rw [logged]
      cases level : d.logLevel with
      | off => rfl
      | info => rfl
      | debug => simp [level, LogLevel.keepsDebug] at quiet
      | trace => simp [level, LogLevel.keepsDebug] at quiet
    rw [off]
    rfl
  · cases e.atDetail d.detail with
    | none => rfl
    | some heard => exact anonymous_deliver logged heard

theorem anonymous_noteAll {d : Diagnostics} (quiet : d.logLevel.keepsDebug = false)
    (said : List Entry) :
    (d.noteAll said).2.anonymous = (told said).foldl hear d.anonymous := by
  induction said generalizing d with
  | nil => rfl
  | cons entry rest ih =>
      cases entry with
      | event e =>
          have level := d.hear_logLevel e
          have later := ih (d := d.hear e) (level ▸ quiet)
          rw [anonymous_hear quiet] at later
          exact later
      | summary regions bytes regionBytes =>
          have noted : d.note (.summary regions bytes regionBytes) = .ok d := by
            simp [note, quiet]
          simp only [noteAll, noted]
          exact ih quiet

end Diagnostics

/-- The sites of a mutator arena and of a plain one that hold the same. Neither has put a
region aside. -/
structure Site.Twins (site site' : Site) : Prop where
  arena : site.arena.Twins site'.arena
  active : site'.registers.active = site.registers.active
  count : site'.registers.count = site.registers.count
  retained : site.registers.retained = none
  retained' : site'.registers.retained = none

namespace World

/-- The worlds are the same, but for the name and the kind of one arena. -/
structure Beside (k : Nat) (w w' : World) : Prop where
  settings : w'.settings = w.settings
  heap : w'.heap = w.heap
  heard : w'.diagnostics.anonymous = w.diagnostics.anonymous
  others : ∀ j, j ≠ k → w'.sites[j]? = w.sites[j]?
  twins : ∃ site site', w.sites[k]? = some site ∧ w'.sites[k]? = some site' ∧ site.Twins site'

/-- The world with the arena at a position turned into a plain one of another name. -/
def plainAt (w : World) (k : Nat) (name : String) : World :=
  { w with
    sites := w.sites.modify k fun site =>
      { site with arena := { site.arena with name, kind := .plain } } }

variable {w w' : World} {k : Nat} {c : Call} {site site' : Site}

theorem beside_plainAt (here : w.sites[k]? = some site) (kind : site.arena.kind = .mutator)
    (aside : site.registers.retained = none) (name : String) :
    w.Beside k (w.plainAt k name) where
  settings := rfl
  heap := rfl
  heard := rfl
  others := fun j ne => by
    simp [plainAt, Ne.symm ne]
  twins := by
    refine ⟨site, { site with arena := { site.arena with name, kind := .plain } }, here, ?_, ?_⟩
    · simp [plainAt, here]
    · exact ⟨⟨kind, rfl, rfl, rfl⟩, rfl, rfl, aside, aside⟩

/-- A call reaches both arenas, or neither. -/
theorem siteFor_twins (here : w.sites[k]? = some site) (here' : w'.sites[k]? = some site')
    (heap : w'.heap = w.heap) :
    (∃ fault, w.siteFor k c = .error fault ∧ w'.siteFor k c = .error fault) ∨
      (w.siteFor k c = .ok site ∧ w'.siteFor k c = .ok site') := by
  simp only [siteFor, World.site, here, here', heap, Bind.bind, Except.bind]
  cases c.place? with
  | none => exact .inr ⟨rfl, rfl⟩
  | some place =>
      dsimp only
      cases w.heap.find place with
      | error fault => exact .inl ⟨fault, rfl, rfl⟩
      | ok slot => exact .inr ⟨rfl, rfl⟩

/-- What it takes for the two arenas to go on side by side. -/
structure Abreast (least k : Nat) (w w' : World) : Prop where
  beside : w.Beside k w'
  threshold : ∀ site, w.sites[k]? = some site → least ≤ site.arena.settings.minRetainBytes
  narrow : w.heap.NarrowerThan least
  quiet : w.diagnostics.logLevel.keepsDebug = false

/-- The same call on both comes to the same, and leaves them side by side. -/
theorem Abreast.call {least : Nat} (abreast : Abreast least k w w') (other : c ≠ .summary) :
    SameButName (w.call k c).1 (w'.call k c).1 ∧
      Abreast least k (w.call k c).2 (w'.call k c).2 := by
  obtain ⟨site, site', here, here', twins⟩ := abreast.beside.twins
  have quiet := abreast.quiet
  have heard := abreast.beside.heard
  have level : w'.diagnostics.logLevel = w.diagnostics.logLevel := by
    change w'.diagnostics.anonymous.logLevel = w.diagnostics.anonymous.logLevel
    rw [heard]
  have quiet' : w'.diagnostics.logLevel.keepsDebug = false := level ▸ quiet
  rcases siteFor_twins (c := c) here here' abreast.beside.heap with
    ⟨fault, refused, refused'⟩ | ⟨reached, reached'⟩
  · simp only [World.call, refused, refused']
    exact ⟨.refl _, abreast⟩
  · have narrow' : (w.call k c).2.heap.NarrowerThan least :=
      perform_narrow abreast.narrow (.call k c)
    have like : (w.store site).Like least (w'.store site') :=
      ⟨abreast.beside.heap, twins.active, twins.count, twins.retained, twins.retained', rfl,
        abreast.narrow⟩
    obtain ⟨same, like'⟩ := twins.arena.answer (abreast.threshold site here) other _ _ like
    rw [call_run reached quiet] at narrow' ⊢
    rw [call_run reached' quiet']
    have inside := (List.getElem?_eq_some_iff.1 here).1
    have inside' := (List.getElem?_eq_some_iff.1 here').1
    have noted := Diagnostics.noteAll_quiet quiet
      ((site.arena.answer c).run (w.store site)).2.transcript
    refine ⟨same, ⟨abreast.beside.settings, like'.heap, ?_, ?_, ?_⟩, ?_, narrow', ?_⟩
    · rw [Diagnostics.anonymous_noteAll quiet, Diagnostics.anonymous_noteAll quiet', heard,
        like'.told]
    · intro j ne
      rw [List.getElem?_set_ne (Ne.symm ne), List.getElem?_set_ne (Ne.symm ne)]
      exact abreast.beside.others j ne
    · exact ⟨_, _, List.getElem?_set_self inside, List.getElem?_set_self inside', twins.arena,
        like'.active, like'.count, like'.retained, like'.retained'⟩
    · intro later found
      rw [List.getElem?_set_self inside] at found
      cases found
      exact abreast.threshold site here
    · exact noted.2 ▸ quiet

end World

/-- The same happens in two worlds that are the same but for one arena, and comes to the same
up to the name of an arena in a fault. -/
structure Happening.Resembles (k : Nat) (h h' : Happening) : Prop where
  action : h'.action = h.action
  before : h.before.Beside k h'.before
  outcome : SameButName h.outcome h'.outcome
  after : h.after.Beside k h'.after

namespace World

variable {w w' : World} {k : Nat}

theorem Abreast.history {least : Nat} (abreast : Abreast least k w w') {calls : List Call}
    (others : ∀ c ∈ calls, c ≠ .summary) :
    List.Forall₂ (Happening.Resembles k) (w.history (calls.map (.call k)))
      (w'.history (calls.map (.call k))) := by
  induction calls generalizing w w' with
  | nil => exact .nil
  | cons c rest ih =>
      obtain ⟨same, abreast'⟩ := abreast.call (others c List.mem_cons_self)
      refine .cons ⟨rfl, abreast.beside, same.map Outcome.answer, abreast'.beside⟩ ?_
      exact ih abreast' fun c hc => others c (List.mem_cons_of_mem _ hc)

/-- Whatever has happened to a world: if no region is as large as what is worth to be put
aside, then calls on a mutator arena come to the same as calls on a plain one in its place, one
after the other. Answers, faults, regions, supply and events are the same up to the name of the
arena, and no region is put aside. -/
theorem likeness {w : World} (opened : w.Opened) (first : List Action) {k : Nat} {site : Site}
    (here : (w.after first).sites[k]? = some site) (kind : site.arena.kind = .mutator)
    (aside : site.registers.retained = none)
    (small : ∀ slot ∈ (w.after first).heap.supply.slots,
      slot.region.limit - slot.region.bottom < site.arena.settings.minRetainBytes)
    (quiet : (w.after first).diagnostics.logLevel.keepsDebug = false) (name : String)
    (calls : List Call) (others : ∀ c ∈ calls, c ≠ .summary) :
    List.Forall₂ (Happening.Resembles k) ((w.after first).history (calls.map (.call k)))
      (((w.after first).plainAt k name).history (calls.map (.call k))) := by
  have inBounds := opened.inBounds_after first
  have abreast : Abreast site.arena.settings.minRetainBytes k (w.after first)
      ((w.after first).plainAt k name) :=
    { beside := beside_plainAt here kind aside name
      threshold := fun other found => by
        cases here.symm.trans found
        exact Nat.le_refl _
      narrow := fun slot hslot => ⟨inBounds slot hslot, small slot hslot⟩
      quiet }
  exact abreast.history others

end World

/-- Settings under which no small region is worth to be put aside. -/
def Settings.strict : Settings :=
  { minRetainBytes := 65, regionBytes := 64 }

/-- Four small regions and one arena with such settings, of which everything is recorded. -/
def World.strict : World :=
  .new { sentinel := .full, settings := .strict } .small [.mutator 0 .strict]
    { listener := .recorder .trace [] }

theorem World.strict_opened : World.strict.Opened := by
  have table : Supply.new .small 4 = .ok .small := by decide +kernel
  have setup : Basis.setup (.region .full) .strict =
      .ok { sentinel := .full, settings := .strict } := by decide +kernel
  exact .new table setup rfl (by simp [Arena.mutator])

/-- Calls in order and calls out of order: a claim before the start, a region that is adopted
too late, a region that cannot hold what is claimed. -/
theorem World.likeness_small :
    let first : List Action := [.call 0 .start, .call 0 (.claimLocked 2 3), .addRival 0 1]
    let calls : List Call := [.retire true, .claimLocked 5 5, .adopt (.table 0), .claimFresh 1 9,
      .release, .claim 1 1, .start, .adopt (.table 0), .claimRetained 1 1, .retire false, .release]
    List.Forall₂ (Happening.Resembles 0) ((strict.after first).history (calls.map (.call 0)))
      (((strict.after first).plainAt 0 "Plain").history (calls.map (.call 0))) := by
  intro first calls
  have here : (strict.after first).sites[0]? = some {
      arena := .mutator 0 .strict
      registers := { active := some (.table 0), count := 1 } } := by decide +kernel
  exact likeness strict_opened first here rfl rfl (by decide +kernel) (by decide +kernel) "Plain"
    calls (by decide)

end RegionHeap
