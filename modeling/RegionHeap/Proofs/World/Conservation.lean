import RegionHeap.Proofs.Arena.Tenancy
import RegionHeap.Proofs.World.Ownership

/-!
# Conservation of bytes

From the start of an arena of application threads on, what it has wasted, what it has
handed back and what it holds make up the regions that it has installed, whatever it is
asked for and whoever else claims words of its regions meanwhile.
-/

namespace RegionHeap

/-- Whether an action can happen within a tenancy of the arena at position `k`. The
other arenas rest. -/
def Action.tenant (k : Nat) : Action → Bool
  | .call j c => j = k && c.tenant
  | _ => true

namespace World

variable {w : World} {k : Nat} {site : Site} {returns : List MutatorReturn} {n wasted : Nat}

open Arena (Tenancy)

/-- The regions that the actions install: those granted and those adopted. -/
def installed (w : World) (actions : List Action) : Nat :=
  ((w.after actions).heap.supply.granted.length - w.heap.supply.granted.length) +
    (w.adopted actions).length

/-- What was handed back between two worlds. -/
def returnsSince (w now : World) : List MutatorReturn :=
  now.heap.supply.mutatorReturns.drop w.heap.supply.mutatorReturns.length

/-- The bytes of the region at a position. -/
def capacityOf (w : World) (i : Nat) : Nat :=
  match w.heap.supply.slots[i]? with
  | some slot => slot.region.limit - slot.region.bottom
  | none => 0

/-- Where an arena of application threads stands in its tenancy. -/
def InTenancy (w : World) (k : Nat) (returns : List MutatorReturn) (n : Nat) : Prop :=
  ∃ site wasted, w.sites[k]? = some site ∧ site.arena.kind = .mutator ∧
    Tenancy returns n wasted (w.store site)

/-- A call that runs its course carries the tenancy on. -/
theorem Ran.tenancy {c : Call} {s : Store} {o : Except Fault Answer} {ds : List Deed}
    (ran : w.Ran k c site s o ds) (order : w.Orderly)
    (adopts : ∀ i ∈ c.adopted (w.call k c).1, w.Unowned i) (kind : site.arena.kind = .mutator)
    (tenant : c.tenant = true) (kept : ∀ i words, Deed.lose i words ∉ ds)
    (t : Tenancy returns n wasted (w.store site)) :
    Tenancy returns (n + (ds.flatMap Deed.gained).length) (wasted + Deed.totalWaste ds) s :=
  ran.deeds.tenancy (order.ready ran.here) kind (ran.unowned adopts)
    (ran.course.tenant kind tenant kept) t

/-- A call on the arena carries its tenancy on. -/
theorem Orderly.tenancy_call (order : w.Orderly) {c : Call}
    (adopts : ∀ i ∈ c.adopted (w.call k c).1, w.Unowned i) (tenant : c.tenant = true)
    {m : Nat} (le : m ≤ w.heap.supply.requests.length)
    (asked : ∀ q ∈ (w.call k c).2.heap.supply.requests.drop m, 0 < q.words)
    (t : w.InTenancy k returns n) :
    ∃ n', (w.call k c).2.InTenancy k returns n' ∧
      n' + w.heap.supply.granted.length =
        n + (w.call k c).2.heap.supply.granted.length + (c.adopted (w.call k c).1).length := by
  rcases order.call_cases k c with ⟨fault, eq⟩ | ⟨site', s, o, ds, ran⟩
  · refine ⟨n, ?_, ?_⟩
    · rwa [eq]
    · rw [eq, Call.adopted_error]
      rfl
  · obtain ⟨site, wasted, here, kind, t⟩ := t
    cases here.symm.trans ran.here
    have asked' : ∀ q ∈ s.heap.supply.requests.drop m, 0 < q.words := ran.heap ▸ asked
    have kept := ran.deeds.lose_not_mem le asked'
    have t' := ran.tenancy order adopts kind tenant kept t
    have granted := congrArg List.length ran.deeds.granted
    have gained := (Arena.gained_perm kept).length_eq
    refine ⟨_, ⟨_, _, ran.here_after, kind, Tenancy.congr t' rfl ran.heap⟩, ?_⟩
    rw [ran.heap, ran.adopted]
    have same : (w.store site').heap = w.heap := rfl
    simp only [List.length_append, same] at granted gained
    omega

/-- Nothing but calls matters to a tenancy. -/
theorem InTenancy.of_sameBooks {w' : World} (t : w.InTenancy k returns n)
    (same : w.SameBooks w') : w'.InTenancy k returns n := by
  obtain ⟨site, wasted, here, kind, t⟩ := t
  exact ⟨site, wasted, same.sites ▸ here, kind, t.same same.mutatorReturns same.geometry rfl rfl rfl⟩

/-- What happens within a tenancy carries it on. -/
theorem Orderly.tenancy_perform (order : w.Orderly) {action : Action}
    (tidy : action.Tidy w) (tenant : action.tenant k = true)
    {m : Nat} (le : m ≤ w.heap.supply.requests.length)
    (asked : ∀ q ∈ (w.perform action).2.heap.supply.requests.drop m, 0 < q.words)
    (t : w.InTenancy k returns n) :
    ∃ n', (w.perform action).2.InTenancy k returns n' ∧
      n' + w.heap.supply.granted.length =
        n + (w.perform action).2.heap.supply.granted.length +
          (Happening.adopted { before := w, action }).length := by
  by_cases isCall : ∃ j c, action = .call j c
  · obtain ⟨j, c, rfl⟩ := isCall
    obtain ⟨rfl, within⟩ : j = k ∧ c.tenant = true := by
      simpa [Action.tenant] using tenant
    exact order.tenancy_call tidy within le asked t
  · have other : ∀ k c, action ≠ .call k c := fun k c eq => isCall ⟨k, c, eq⟩
    have same := sameBooks_of_not_call tidy other
    refine ⟨n, t.of_sameBooks same, ?_⟩
    rw [Happening.adopted_of_not_call other, same.granted]
    rfl

/-- All that happens within a tenancy carries it on. -/
theorem Orderly.tenancy_after (order : w.Orderly) {actions : List Action}
    (tidy : ∀ h ∈ w.history actions, h.action.Tidy h.before ∧ h.action.Rested h.before)
    (tenant : ∀ action ∈ actions, action.tenant k = true)
    {m : Nat} (le : m ≤ w.heap.supply.requests.length)
    (asked : ∀ q ∈ (w.after actions).heap.supply.requests.drop m, 0 < q.words)
    (t : w.InTenancy k returns n) :
    ∃ n', (w.after actions).InTenancy k returns n' ∧
      n' + w.heap.supply.granted.length =
        n + (w.after actions).heap.supply.granted.length + (w.adopted actions).length := by
  induction actions generalizing w n with
  | nil => exact ⟨n, t, rfl⟩
  | cons action rest ih =>
      rw [history_cons] at tidy
      obtain ⟨now, rested⟩ : action.Tidy w ∧ action.Rested w := tidy _ List.mem_cons_self
      have later := fun h hh => tidy h (List.mem_cons_of_mem _ hh)
      have order₁ := order.perform now rested
      have grown := order.requests now
      obtain ⟨n₁, t₁, eq₁⟩ := order.tenancy_perform now (tenant _ List.mem_cons_self) le
        (fun q hq => asked q (((order₁.requests_after later).drop m).subset hq)) t
      obtain ⟨n₂, t₂, eq₂⟩ := ih order₁ later
        (fun a ha => tenant a (List.mem_cons_of_mem _ ha)) (Nat.le_trans le grown.length_le)
        asked t₁
      refine ⟨n₂, t₂, ?_⟩
      rw [after_cons, adopted, history_cons, List.flatMap_cons, List.length_append]
      unfold adopted at eq₂
      omega

/-- A start that succeeds begins a tenancy in which nothing is installed yet. -/
theorem Orderly.tenancy_start (order : w.Orderly) (here : w.sites[k]? = some site)
    (kind : site.arena.kind = .mutator) (started : (w.call k .start).1 = .ok .nothing) :
    (w.call k .start).2.InTenancy k w.heap.supply.mutatorReturns 0 ∧
      (w.call k .start).2.heap.supply = w.heap.supply := by
  rcases order.call_cases k .start with ⟨fault, eq⟩ | ⟨site', s, o, ds, ran⟩
  · rw [eq] at started
    cases started
  · cases here.symm.trans ran.here
    have outcome := (ran.outcome nofun).symm.trans started
    have single := (outcome ▸ ran.course).of_start
    rw [decide_eq_true kind] at single
    subst single
    obtain ⟨count, wasted, regions, heap⟩ := ran.deeds.of_start
    have kept : (w.call k .start).2.heap = w.heap := ran.heap.trans heap
    refine ⟨⟨_, 0, ran.here_after, kind, ?_⟩, congrArg Heap.supply kept⟩
    refine Tenancy.congr (s := s) ⟨count, wasted, [], ?_, ?_, ?_⟩ rfl ran.heap
    · rw [heap, List.append_nil]
      rfl
    · rw [regions]
      rfl
    · simp [regions, MutatorReturn.totalUsed]

/-- What the arena at a site has to show for the time since `start`. Bytes that went into
regions are wasted, were in use when their region went back, or are in a region still held;
and every region that came went back or is still held. -/
structure Conserved (start now : World) (site : Site) : Prop where
  bytes : site.registers.wasted + MutatorReturn.totalUsed (start.returnsSince now) +
      (site.registers.regions.map now.capacityOf).sum =
    site.registers.count * now.heap.supply.geometry.bytes
  regions : (start.returnsSince now).length + site.registers.regions.length =
    site.registers.count

/-- The arena at a site holds nothing any more. Every region that came since `start` went
back, and its bytes were in use then or are wasted. -/
structure Settled (start now : World) (site : Site) : Prop where
  empty : site.registers.regions = []
  returns : (start.returnsSince now).length = site.registers.count
  bytes : site.registers.wasted + MutatorReturn.totalUsed (start.returnsSince now) =
    site.registers.count * now.heap.supply.geometry.bytes

theorem Conserved.settled {start now : World} (c : Conserved start now site)
    (empty : site.registers.regions = []) : Settled start now site := by
  obtain ⟨bytes, regions⟩ := c
  rw [empty] at bytes regions
  exact ⟨empty, regions, bytes⟩

theorem Conserved.wasted_le {start now : World} (c : Conserved start now site) :
    site.registers.wasted ≤ site.registers.count * now.heap.supply.geometry.bytes := by
  have := c.bytes
  omega

/-- Regions in their place are all of the same size. -/
theorem Orderly.capacity (order : w.Orderly) (here : w.sites[k]? = some site) :
    (site.registers.regions.map w.capacityOf).sum =
      site.registers.regions.length * w.heap.supply.geometry.bytes := by
  have whole : ∀ i ∈ site.registers.regions,
      w.capacityOf i = w.heap.supply.geometry.bytes := by
    intro i hi
    obtain ⟨slot, found, -⟩ := order.order.occupied i (mem_held here hi)
    have p := order.order.placed found
    simp only [capacityOf, found]
    rw [p.limit, Nat.add_sub_cancel_left]
  rw [List.map_congr_left whole, List.map_const', List.sum_replicate_nat]

/-- The counters tell the truth about a tenancy as long as they have not wrapped. -/
theorem Orderly.conserved {start : World} (order : w.Orderly) (here : w.sites[k]? = some site)
    (t : Tenancy start.heap.supply.mutatorReturns n wasted (w.store site))
    (few : n < 2 ^ 32) (small : n * w.heap.supply.geometry.bytes < 2 ^ 64) :
    site.registers.count = n ∧ site.registers.wasted = wasted ∧ Conserved start w site := by
  obtain ⟨backs, eq, many, total⟩ := t.books
  have same : (w.store site).heap = w.heap := rfl
  have mine : (w.store site).registers = site.registers := rfl
  rw [same] at eq total
  rw [mine] at many total
  have since : start.returnsSince w = backs := by
    rw [returnsSince, eq, List.drop_left]
  have count : site.registers.count = n := t.count.trans (Nat.mod_eq_of_lt few)
  have counter : site.registers.wasted = wasted := by
    refine t.counter.trans (Nat.mod_eq_of_lt ?_)
    have bound : Word.bound = 2 ^ 64 := rfl
    omega
  refine ⟨count, counter, ?_, ?_⟩
  · rw [since, order.capacity here, count, counter]
    exact total
  · rw [since, count]
    exact many

/-- A retirement within a tenancy answers what it adds to the counter. -/
theorem Orderly.conserved_retire {start : World} (order : w.Orderly)
    (here : w.sites[k]? = some site) (kind : site.arena.kind = .mutator)
    (busy : site.registers.active ≠ none)
    (t : Tenancy start.heap.supply.mutatorReturns n wasted (w.store site))
    (few : n < 2 ^ 32) (small : n * w.heap.supply.geometry.bytes < 2 ^ 64) (filling : Bool) :
    ∃ waste site', (w.call k (.retire filling)).1 = .ok (.bytes waste) ∧
      (w.call k (.retire filling)).2.sites[k]? = some site' ∧
        site'.registers.wasted = site.registers.wasted + waste ∧
          Conserved start (w.call k (.retire filling)).2 site' := by
  obtain ⟨waste, s, ds, ran, how, -⟩ := order.retire_call here busy filling
  have counts : site.arena.counts = true := by
    simp [Arena.counts, kind]
  have how : Arena.Retiring filling true waste ds := counts ▸ how
  obtain ⟨gained, kept⟩ := how.gains_nothing
  have none : ∀ i ∈ (Call.retire filling).adopted (w.call k (.retire filling)).1, w.Unowned i :=
    List.forall_mem_nil _
  have t' := ran.tenancy order none kind rfl kept t
  rw [gained, how.totalWaste, List.length_nil, Nat.add_zero] at t'
  have order' : (w.call k (.retire filling)).2.Orderly := order.call none
  have same : (w.call k (.retire filling)).2.heap.supply.geometry = w.heap.supply.geometry := by
    rw [ran.heap]
    exact ran.deeds.geometry
  obtain ⟨-, before, -⟩ := order.conserved here t few small
  obtain ⟨-, after, conserved⟩ := order'.conserved ran.here_after
    (Tenancy.congr t' rfl ran.heap) few (same ▸ small)
  exact ⟨waste, _, ran.outcome (fun eq => by cases eq), ran.here_after, by rw [after, before],
    conserved⟩

/-- A release within a tenancy hands every region back. -/
theorem Orderly.conserved_release {start : World} (order : w.Orderly)
    (here : w.sites[k]? = some site) (kind : site.arena.kind = .mutator)
    (busy : site.registers.active ≠ none)
    (t : Tenancy start.heap.supply.mutatorReturns n wasted (w.store site))
    (few : n < 2 ^ 32) (small : n * w.heap.supply.geometry.bytes < 2 ^ 64) :
    ∃ site', (w.call k .release).2.sites[k]? = some site' ∧
      site'.registers.regions = [] ∧ site'.registers.count = site.registers.count ∧
        Conserved start (w.call k .release).2 site' := by
  obtain ⟨place, s, ds, ran, how, none⟩ := order.release_call here kind busy
  obtain ⟨gained, kept⟩ := how.gains_nothing
  have t' := ran.tenancy order nofun kind rfl kept t
  rw [gained, List.length_nil, Nat.add_zero] at t'
  have order' : (w.call k .release).2.Orderly := order.call nofun
  have same : (w.call k .release).2.heap.supply.geometry = w.heap.supply.geometry := by
    rw [ran.heap]
    exact ran.deeds.geometry
  obtain ⟨before, -, -⟩ := order.conserved here t few small
  obtain ⟨after, -, conserved⟩ := order'.conserved ran.here_after
    (Tenancy.congr t' rfl ran.heap) few (same ▸ small)
  exact ⟨_, ran.here_after, none, after.trans before.symm, conserved⟩

/-- From a start of an arena of application threads on, the counter of wasted bytes, the
bytes in use in the regions handed back and the bytes of the regions held make up all
regions installed, unless a counter wraps. A retirement answers what it wastes, and a
release hands back whatever is held. -/
theorem conservation {w : World} (opened : w.Opened) (first rest : List Action) (k : Nat)
    (tidy : ∀ h ∈ w.history (first ++ .call k .start :: rest),
      h.action.Tidy h.before ∧ h.action.Rested h.before)
    (mutator : ∃ site, (w.after first).sites[k]? = some site ∧ site.arena.kind = .mutator)
    (started : ((w.after first).call k .start).1 = .ok .nothing)
    (tenant : ∀ action ∈ rest, action.tenant k = true) :
    let start := w.after first
    let now := start.after (.call k .start :: rest)
    let installed := start.installed (.call k .start :: rest)
    (∀ q ∈ now.heap.supply.requests.drop start.heap.supply.requests.length, 0 < q.words) →
    installed < 2 ^ 32 → installed * now.heap.supply.geometry.bytes < 2 ^ 64 →
    ∃ site, now.sites[k]? = some site ∧ Conserved start now site ∧
      site.registers.count = installed ∧
      site.registers.wasted ≤ site.registers.count * now.heap.supply.geometry.bytes ∧
      (site.registers.active ≠ none →
        (∀ filling, ∃ waste site', (now.call k (.retire filling)).1 = .ok (.bytes waste) ∧
          (now.call k (.retire filling)).2.sites[k]? = some site' ∧
            site'.registers.wasted = site.registers.wasted + waste) ∧
        ∃ site', (now.call k .release).2.sites[k]? = some site' ∧
          site'.registers.count = site.registers.count ∧
            Settled start (now.call k .release).2 site') := by
  intro start now installed asked few small
  rw [history_append] at tidy
  have order : start.Orderly :=
    opened.orderly.after fun h hh => tidy h (List.mem_append_left _ hh)
  have later := fun h hh => tidy h (List.mem_append_right _ hh)
  have order_now : now.Orderly := order.after later
  obtain ⟨site₀, here₀, kind₀⟩ := mutator
  obtain ⟨t₀, kept⟩ := order.tenancy_start here₀ kind₀ started
  rw [history_cons] at later
  obtain ⟨startTidy, startRested⟩ := later _ List.mem_cons_self
  have order₁ : (start.call k .start).2.Orderly := order.perform startTidy startRested
  have same : (start.call k .start).2.heap.supply.requests = start.heap.supply.requests :=
    congrArg Supply.requests kept
  have afterwards := fun h hh => later h (List.mem_cons_of_mem _ hh)
  obtain ⟨n, ⟨site, wasted, here, kind, t⟩, many⟩ := order₁.tenancy_after afterwards tenant
    (Nat.le_of_eq (congrArg List.length same).symm) asked t₀
  have grown : start.heap.supply.granted.length ≤ now.heap.supply.granted.length :=
    ((same ▸ order₁.requests_after afterwards).filterMap Request.granted).length_le
  obtain rfl : n = installed := by
    have adopted : start.adopted (.call k .start :: rest) =
        (start.call k .start).2.adopted rest := by
      rfl
    change n = now.heap.supply.granted.length - start.heap.supply.granted.length +
      (start.adopted (.call k .start :: rest)).length
    rw [kept] at many
    rw [adopted]
    change n + start.heap.supply.granted.length = 0 + now.heap.supply.granted.length + _ at many
    omega
  obtain ⟨count, -, conserved⟩ := order_now.conserved here t few small
  refine ⟨site, here, conserved, count, conserved.wasted_le, fun busy => ⟨?_, ?_⟩⟩
  · intro filling
    obtain ⟨waste, site', answer, here', grew, -⟩ :=
      order_now.conserved_retire here kind busy t few small filling
    exact ⟨waste, site', answer, here', grew⟩
  · obtain ⟨site', here', empty, same', conserved'⟩ :=
      order_now.conserved_release here kind busy t few small
    exact ⟨site', here', same', conserved'.settled empty⟩

/-- A region is filled up while somebody else competes for it, and another is put aside and
displaced. -/
theorem conservation_small :
    let rest : List Action := [.call 0 (.claimLocked 5 5), .onRegion 0 (.claim 1 1),
      .addRival 0 1, .call 0 (.claimLocked 4 4), .call 0 (.claimLocked 5 5),
      .call 0 (.claimRetained 1 2), .call 0 (.claimLocked 6 6), .call 0 .release]
    let now := small.after (.call 0 .start :: rest)
    ∃ site, now.sites[0]? = some site ∧ Conserved small now site ∧
      site.registers.count = small.installed (.call 0 .start :: rest) := by
  intro rest now
  obtain ⟨site, here, conserved, count, -⟩ := conservation small_opened [] rest 0
    (by decide +kernel) ⟨_, rfl, rfl⟩ (by decide +kernel) (by decide +kernel)
    (by decide +kernel) (by decide +kernel) (by decide +kernel)
  exact ⟨site, here, conserved, count⟩

end World

end RegionHeap
