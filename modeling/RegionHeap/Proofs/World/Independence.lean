import RegionHeap.Proofs.Arena.Confined
import RegionHeap.Proofs.World.Agreement

/-!
# Independence of arenas

Arenas share the supply and the tallies. As long as neither requests a region, two arenas of an
orderly world do not notice each other: a call on the one and a call on the other come to the
same in either order.
-/

namespace RegionHeap

/-- Whatever an arena holds is among the regions it holds, unless it put the sentinel aside. -/
theorem Registers.within_regions {r : Registers} (real : r.retained ≠ some .sentinel) :
    r.Within (· ∈ r.regions) where
  active := by
    intro i active
    simp [Registers.regions, active]
  retained := by
    intro place kept
    cases place with
    | sentinel => exact absurd kept real
    | table i => exact ⟨i, rfl, by simp [Registers.regions, kept]⟩

namespace Diagnostics

/-- Whether something said is a fault depends on how much the log keeps, and on nothing else. -/
theorem noteAll_fault {d d' : Diagnostics} (level : d'.logLevel = d.logLevel)
    (entries : List Entry) : (d'.noteAll entries).1 = (d.noteAll entries).1 := by
  induction entries generalizing d d' with
  | nil => rfl
  | cons entry rest ih =>
      cases entry with
      | event e =>
          apply ih
          rw [hear_logLevel, hear_logLevel, level]
      | summary regions bytes regionBytes =>
          simp only [noteAll, note, level]
          cases d.logLevel.keepsDebug with
          | false => exact ih level
          | true =>
              cases Summary.new regions bytes regionBytes with
              | error fault => rfl
              | ok summary => exact ih rfl

end Diagnostics

namespace World

/-- The worlds are the same, whatever was heard, but for the order in which regions were
handed back. -/
structure Matches (w w' : World) : Prop where
  settings : w'.settings = w.settings
  sites : w'.sites = w.sites
  heap : w.heap.Matches w'.heap

variable {w : World} {k j : Nat} {site : Site} {c d : Call}

/-- A call that stays with the regions of its arena comes to the same in every world that agrees
on them, and writes the same. -/
theorem Orderly.call_frame (o : w.Orderly) (here : w.sites[k]? = some site)
    (stays : c.isLocal = true) :
    ∃ (es : List Heap.Edit) (registers : Registers),
      (∀ e ∈ es, e.Within (· ∈ site.registers.regions)) ∧
      ∀ w' : World, w'.sites[k]? = some site →
        w.heap.Agrees (· ∈ site.registers.regions) w'.heap →
        w'.diagnostics.logLevel = w.diagnostics.logLevel →
        (w'.call k c).1 = (w.call k c).1 ∧
          (w'.call k c).2.heap = w'.heap.edit es ∧
          (w'.call k c).2.sites = w'.sites.set k { site with registers } ∧
          (w'.call k c).2.settings = w'.settings := by
  have ready := o.ready here
  have full : (w.store site).heap.Full := ⟨ready.order.full, ready.order.sentinelWord⟩
  have within := Registers.within_regions ready.agree.real
  obtain ⟨es, mine, same⟩ := (site.arena.keeping_answer stays).frame within full
  have unnamed : c.place? = none := by
    cases c with
    | adopt => cases stays
    | _ => rfl
  refine ⟨es, ((site.arena.answer c).run (w.store site)).2.registers, mine, ?_⟩
  intro w' here' agrees level
  have reached := siteFor_eq_ok here unnamed
  have reached' := siteFor_eq_ok here' unnamed
  have ran : (site.arena.answer c).run (w'.store site) =
      (((site.arena.answer c).run (w.store site)).1,
        { ((site.arena.answer c).run (w.store site)).2 with heap := w'.heap.edit es }) :=
    same w'.heap agrees
  have left := call_leaves reached'
  rw [ran] at left
  refine ⟨?_, ?_, ?_, call_settings w' k c⟩
  · rw [call_outcome reached, call_outcome reached', ran]
    dsimp only
    rw [Diagnostics.noteAll_fault level]
  · rw [left]
  · rw [left]

/-- In a world that was opened and kept in order, without rivals: two calls on two arenas that
request no region and name none come to the same in either order, whatever they come to, and
leave the same behind. -/
theorem independence (opened : w.Opened) (actions : List Action)
    (tidy : ∀ h ∈ w.history actions, h.action.Tidy h.before ∧ ¬ h.action.Contests)
    {site' : Site} (apart : k ≠ j) (here : (w.after actions).sites[k]? = some site)
    (there : (w.after actions).sites[j]? = some site') (first : c.isLocal = true)
    (second : d.isLocal = true) :
    let now := w.after actions
    ((now.call j d).2.call k c).1 = (now.call k c).1 ∧
      ((now.call k c).2.call j d).1 = (now.call j d).1 ∧
      ((now.call k c).2.call j d).2.Matches ((now.call j d).2.call k c).2 := by
  intro now
  have order : now.Orderly := (opened.orderly_after tidy).1
  have mine := order.ready here
  -- No region is held by both.
  have disjoint : ∀ i, i ∈ site.registers.regions → ¬ i ∈ site'.registers.regions :=
    fun i held held' => mine.not_mem_others held (mem_heldBeside there (Ne.symm apart) held')
  have disjoint' : ∀ i, i ∈ site'.registers.regions → ¬ i ∈ site.registers.regions :=
    fun i held' held => disjoint i held held'
  obtain ⟨es, registers, within, frame⟩ := order.call_frame here first
  obtain ⟨es', registers', within', frame'⟩ := order.call_frame there second
  obtain ⟨-, heap, sites, settings⟩ := frame now here (.refl _ _) rfl
  obtain ⟨-, heap', sites', settings'⟩ := frame' now there (.refl _ _) rfl
  have here' : (now.call j d).2.sites[k]? = some site := by
    rw [sites', List.getElem?_set_ne (Ne.symm apart)]
    exact here
  have there' : (now.call k c).2.sites[j]? = some site' := by
    rw [sites, List.getElem?_set_ne apart]
    exact there
  have agrees : now.heap.Agrees (· ∈ site.registers.regions) (now.call j d).2.heap :=
    heap' ▸ Heap.agrees_edit within' disjoint
  have agrees' : now.heap.Agrees (· ∈ site'.registers.regions) (now.call k c).2.heap :=
    heap ▸ Heap.agrees_edit within disjoint'
  have level := now.perform_logLevel (.call k c)
  have level' := now.perform_logLevel (.call j d)
  obtain ⟨outcome, after, stand, keep⟩ := frame _ here' agrees level'
  obtain ⟨outcome', after', stand', keep'⟩ := frame' _ there' agrees' level
  refine ⟨outcome, outcome', ?_, ?_, ?_⟩
  · rw [keep, settings', keep', settings]
  · rw [stand, sites', stand', sites]
    exact List.set_comm _ _ (Ne.symm apart)
  · rw [after, heap', after', heap]
    exact Heap.edit_comm within within' disjoint

/-- The mutator arena is released while an arena of a collection retires its region. -/
theorem independence_small :
    let actions : List Action := [.call 0 .start, .call 1 .start, .call 0 (.claimLocked 5 5),
      .call 1 (.claimLocked 6 6)]
    let now := small.after actions
    (now.call 0 .release).1 = .ok (.place (some (.table 0))) ∧
      (now.call 1 (.retire true)).1 = .ok (.bytes 16) ∧
      ((now.call 1 (.retire true)).2.call 0 .release).1 = (now.call 0 .release).1 ∧
      ((now.call 0 .release).2.call 1 (.retire true)).1 = (now.call 1 (.retire true)).1 ∧
      ((now.call 0 .release).2.call 1 (.retire true)).2.Matches
        ((now.call 1 (.retire true)).2.call 0 .release).2 :=
  ⟨by decide +kernel, by decide +kernel,
    independence (k := 0) (j := 1) small_opened _ (by decide +kernel) (by decide) rfl rfl rfl rfl⟩

end World

end RegionHeap
