import RegionHeap.Proofs.Heap.Fresh
import RegionHeap.Proofs.World.Tidy

/-!
# Worlds that were just opened

A world is opened over a fresh table with what setup accepts. The settings count in
the words of the table. Such a world is orderly, nobody waits in it, and its supply
has recorded nothing.
-/

namespace RegionHeap

/-- A world in which nothing has happened. -/
inductive World.Opened : World → Prop
  | new {geometry : Geometry} {count : Nat} {supply : Supply} {offer : SentinelOffer}
      {settings : Settings} {basis : Basis} {arenas : List Arena} {diagnostics : Diagnostics}
      (table : Supply.new geometry count = .ok supply)
      (setup : Basis.setup offer settings = .ok basis)
      (word : settings.heapWordBytes = geometry.wordBytes)
      (shared : ∀ a ∈ arenas, a.settings = settings) :
      Opened (World.new basis supply arenas diagnostics)

/-- Setup accepts valid settings and a sentinel without room. -/
theorem Basis.setup_eq_ok {offer : SentinelOffer} {settings : Settings} {basis : Basis}
    (h : Basis.setup offer settings = .ok basis) :
    settings.validate = .ok () ∧ basis.settings = settings ∧
      basis.sentinel.limit = basis.sentinel.top ∧ basis.sentinel.wordBytes ≠ 0 := by
  unfold Basis.setup at h
  cases valid : settings.validate with
  | error why => simp [valid] at h
  | ok u =>
      cases accepted : offer.accept with
      | error f => simp [valid, accepted] at h
      | ok sentinel =>
          simp only [valid, accepted] at h
          cases h
          exact ⟨rfl, rfl, SentinelOffer.accept_eq_ok accepted⟩

namespace World.Opened

variable {w : World}

theorem fresh (opened : w.Opened) : w.heap.supply.Fresh := by
  cases opened with
  | new table setup word shared => exact (Supply.new_eq_ok table).1

/-- Nothing is held, and no arena has counted anything. -/
theorem registers (opened : w.Opened) {site : Site} (h : site ∈ w.sites) :
    site.registers = {} := by
  cases opened with
  | new table setup word shared =>
      obtain ⟨a, -, rfl⟩ := List.mem_map.1 h
      rfl

theorem held (opened : w.Opened) : w.held = [] := by
  refine List.flatMap_eq_nil_iff.2 fun site h => ?_
  rw [opened.registers h]
  rfl

theorem suits (opened : w.Opened) {site : Site} (h : site ∈ w.sites) :
    site.arena.Suits w.heap.supply.geometry := by
  cases opened with
  | new table setup word shared =>
      obtain ⟨a, ha, rfl⟩ := List.mem_map.1 h
      obtain ⟨-, geometry, -⟩ := Supply.new_eq_ok table
      obtain ⟨valid, -⟩ := Basis.setup_eq_ok setup
      refine ⟨?_, ?_⟩
      · rw [shared a ha, word]
        exact congrArg Geometry.wordBytes geometry.symm
      · rw [shared a ha]
        exact (Settings.validate_eq_ok_iff.1 valid).2.1

theorem orderly (opened : w.Opened) : w.Orderly where
  order := by
    rw [opened.held]
    cases opened with
    | new table setup word shared =>
        obtain ⟨-, -, full, positive⟩ := Basis.setup_eq_ok setup
        exact Heap.Orderly.fresh (Supply.new_eq_ok table).1 full positive
  suits := fun _ h => opened.suits h
  agree := fun site h => by
    rw [opened.registers h]
    exact ⟨fun kept => absurd rfl kept, nofun, nofun, Nat.two_pow_pos 64⟩

theorem noRivals (opened : w.Opened) : w.heap.NoRivals :=
  fun _ _ hs => (opened.fresh.placed hs).2.noRivals

/-- A world stays orderly and without rivals while what happens is tidy and lets nobody
compete. -/
theorem orderly_after (opened : w.Opened) {actions : List Action}
    (tidy : ∀ h ∈ w.history actions, h.action.Tidy h.before ∧ ¬ h.action.Contests) :
    (w.after actions).Orderly ∧ (w.after actions).heap.NoRivals := by
  refine after_invariant (P := fun w => w.Orderly ∧ w.heap.NoRivals) ?_
    ⟨opened.orderly, opened.noRivals⟩
  rintro h hh ⟨order, noRivals⟩
  obtain ⟨tidy, quiet⟩ := tidy h hh
  exact ⟨order.perform tidy (rested_of_noRivals noRivals h.action),
    order.noRivals_perform noRivals tidy quiet⟩

end World.Opened

/-! ## A small world -/

/-- Regions of eight words. -/
def Geometry.small : Geometry :=
  { regionWords := 8, heapBase := 4096 }

/-- Four small regions. -/
def Supply.small : Supply where
  geometry := .small
  slots := (List.range 4).map fun i => { region := {
    index := i
    bottom := 4096 + i * 64
    top := 4096 + i * 64
    limit := 4096 + i * 64 + 64
    wordBytes := 8
    marker := none
    fillers := [] } }
  free := List.range 4

/-- Settings for small regions, of which three words are worth keeping. -/
def Settings.small : Settings :=
  { minRetainBytes := 24, regionBytes := 64 }

/-- A region without room. -/
def Region.full : Region where
  index := RegionIndex.sentinel
  bottom := 0
  top := 0
  limit := 0
  wordBytes := 8
  marker := none
  fillers := []

/-- An arena of every kind on four small regions. -/
def World.small : World :=
  .new { sentinel := .full, settings := .small } .small
    [.mutator 0 .small, .survivor 0 .small, .old 0 .small,
      { name := "Plain", kind := .plain, settings := .small }] {}

theorem World.small_opened : World.small.Opened := by
  have table : Supply.new .small 4 = .ok .small := by decide +kernel
  have setup : Basis.setup (.region .full) .small =
      .ok { sentinel := .full, settings := .small } := by decide +kernel
  exact .new table setup rfl (by simp [Arena.mutator, Arena.survivor, Arena.old])

end RegionHeap
