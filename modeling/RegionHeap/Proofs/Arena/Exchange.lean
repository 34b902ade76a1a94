import RegionHeap.Proofs.Arena.Course
import RegionHeap.Proofs.Arena.Trade

/-!
# What a call comes to

An arena whose registers are true answers a call by a trade, or starts. A call that breaks the contract of the
arena changes nothing, but for the notes of a collection that was to adopt the sentinel or an
empty region. Any other fault comes of a granted region that cannot be installed, and then the
arena has gained nothing.
-/

namespace RegionHeap

/-- Whether the fault tells that a call broke the contract of its arena. -/
def Fault.isBreach : Fault → Bool
  | notStarted _ | alreadyStarted _ | stillRetaining _ | notOverSentinel _ | notFresh _
  | emptyPublication _ | minExceedsDesired .. => true
  | _ => false

/-- Whether a deed neither brings a region nor asks for one. -/
def Deed.bringsNothing : Deed → Bool
  | claim .. | outrun _ | giveUp .. | keep _ | displace .. | drop .. | stop => true
  | start _ | refuse _ | install .. | lose .. | adopt _ | note _ => false

/-- Whether a call asks the arena to give up what it allocates from. -/
def Call.withdraws : Call → Bool
  | retire _ | retirePlain _ | release | releasePlain => true
  | _ => false

/-- Whether a call asks the arena to start. -/
def Call.starts : Call → Bool
  | start | startPlain => true
  | _ => false

/-- Whether an arena of this kind counts waste anew from the call on. -/
def Call.anew : Call → Kind → Bool
  | start, .mutator => true
  | _, _ => false

namespace Arena

open Program

variable {α β : Type} {a : Arena} {s s₁ s' : Store} {granted : List Nat} {words min desired : Nat}

/-- How a program goes on that is past its checks. If it stops at a fault, no contract of the
arena was broken, and what was granted is left. Otherwise what was granted is gained. -/
inductive Proceeds (a : Arena) (s : Store) (granted : List Nat) : Except Fault α → Store → Prop
  | failed {e : Fault} {s' : Store} (noBreach : e.isBreach = false)
      (trades : a.Trades granted [] s s') : Proceeds a s granted (.error e) s'
  | traded {s' : Store} (v : α) (trades : a.Trades granted granted s s') :
      Proceeds a s granted (.ok v) s'

/-- How a program of the arena comes to an end: at a fault that changes nothing, or past its
checks. -/
inductive StaysOrProceeds (a : Arena) (s : Store) : List Nat → Except Fault α → Store → Prop
  | stays (e : Fault) : StaysOrProceeds a s [] (.error e) s
  | proceeds {granted : List Nat} {o : Except Fault α} {s' : Store}
      (h : a.Proceeds s granted o s') : StaysOrProceeds a s granted o s'

namespace Proceeds

/-- What came before was a trade without a region. -/
theorem after {o : Except Fault α} (first : a.Trades [] [] s s₁)
    (h : a.Proceeds s₁ granted o s') : a.Proceeds s granted o s' := by
  cases h with
  | failed noBreach trades => exact .failed noBreach (first.trans trades)
  | traded v trades => exact .traded v (first.trans trades)

theorem map {o : Except Fault α} (h : a.Proceeds s granted o s') (f : α → β) :
    a.Proceeds s granted (o.map f) s' := by
  cases h with
  | failed noBreach trades => exact .failed noBreach trades
  | traded v trades => exact .traded (f v) trades

end Proceeds

theorem StaysOrProceeds.map {o : Except Fault α} (h : a.StaysOrProceeds s granted o s')
    (f : α → β) :
    a.StaysOrProceeds s granted (o.map f) s' := by
  cases h with
  | stays e => exact .stays e
  | proceeds h => exact .proceeds (h.map f)

/-! ## Deeds that bring nothing -/

/-- Deeds that bring nothing are a trade without a region. -/
theorem Deeds.bringsNothing {ds : List Deed} (h : a.Deeds ds s s') (regs : a.RegistersTrue s)
    (bringsNothing : ∀ d ∈ ds, d.bringsNothing = true) : a.Trades [] [] s s' := by
  have each : ∀ d ∈ ds, d.granted = [] ∧ d.gained = [] ∧ d.isTrade = true := by
    intro d mem
    have here := bringsNothing d mem
    cases d with
    | start | refuse | install | lose | adopt | note => cases here
    | _ => exact ⟨rfl, rfl, rfl⟩
  have trades := h.trades regs fun d mem => (each d mem).2.2
  have granted : ds.flatMap Deed.granted = [] :=
    List.flatMap_eq_nil_iff.2 fun d mem => (each d mem).1
  have gained : ds.flatMap Deed.gained = [] :=
    List.flatMap_eq_nil_iff.2 fun d mem => (each d mem).2.1
  rwa [granted, gained] at trades

theorem Claiming.bringsNothing {o : Except Fault (Option Span)} {ds : List Deed}
    (h : Claiming min desired o ds) : ∀ d ∈ ds, d.bringsNothing = true := by
  cases h <;> simp [Deed.bringsNothing]

theorem Retiring.bringsNothing {filling counted : Bool} {waste : Nat} {ds : List Deed}
    (h : Retiring filling counted waste ds) : ∀ d ∈ ds, d.bringsNothing = true := by
  cases h <;> simp [Deed.bringsNothing]

theorem Retirement.bringsNothing {filling counted : Bool} {o : Except Fault Nat} {ds : List Deed}
    (h : Retirement filling counted o ds) : ∀ d ∈ ds, d.bringsNothing = true := by
  cases h with
  | fault e => simp
  | retired how => exact how.bringsNothing

theorem Release.bringsNothing {counted : Bool} {o : Except Fault (Option Place)} {ds : List Deed}
    (h : Release counted o ds) : ∀ d ∈ ds, d.bringsNothing = true := by
  cases h with
  | fault e => simp
  | released place how dropped =>
      have before := how.bringsNothing
      obtain rfl | ⟨j, waste, rfl⟩ := dropped <;>
        simp only [List.mem_append, List.mem_singleton, List.not_mem_nil] <;>
        grind [Deed.bringsNothing]

theorem Claiming.fault_deeds {e : Fault} {ds : List Deed} (h : Claiming min desired (.error e) ds) :
    ds = [] := by
  cases h
  rfl

theorem Retirement.fault_deeds {filling counted : Bool} {e : Fault} {ds : List Deed}
    (h : Retirement filling counted (.error e) ds) : ds = [] := by
  cases h
  rfl

theorem Release.fault_deeds {counted : Bool} {e : Fault} {ds : List Deed}
    (h : Release counted (.error e) ds) : ds = [] := by
  cases h
  rfl

/-- A program that fails before its first deed, and otherwise does deeds that bring nothing,
stays or proceeds. -/
theorem EndsBy.staysOrProceeds {x : Program α} {how : Except Fault α → List Deed → Prop}
    (h : a.EndsBy x s how)
    (regs : a.RegistersTrue s)
    (bringsNothing : ∀ {o ds}, how o ds → ∀ d ∈ ds, d.bringsNothing = true)
    (stays : ∀ {e ds}, how (.error e) ds → ds = []) :
    ∃ o s', x.Leads s o s' ∧ a.StaysOrProceeds s [] o s' := by
  obtain ⟨o, s', ds, ends, deeds, here⟩ := h
  refine ⟨o, s', ends.leads, ?_⟩
  cases o with
  | error e =>
      obtain rfl := stays here
      cases deeds
      exact .stays e
  | ok v => exact .proceeds (.traded v (deeds.bringsNothing regs (bringsNothing here)))

/-! ## Regions -/

theorem Installing.traded {start : Option Nat} {ds : List Deed}
    (h : Installing words (.ok start) ds) :
    ds.flatMap Deed.gained = ds.flatMap Deed.granted ∧ ∀ d ∈ ds, d.isTrade = true := by
  cases h <;> simp [Deed.gained, Deed.granted, Deed.isTrade]

section
variable (regs : a.RegistersTrue s) {i : Nat} (grant : s.heap.supply.grant words = some i)
include regs grant

/-- The arena was granted a region and left it. -/
theorem requested_left : a.Trades [i] [] s (a.requested words s) := by
  refine .left regs (.congr regs.allPlaced rfl rfl rfl) rfl ?_ rfl
  rw [requested_granted, grant]
  rfl

/-- The arena was granted a region, has worked on it and left it. -/
theorem setSlot_left {slot slot' : Slot} (found : s.heap.supply.slots[i]? = some slot)
    (placed : slot'.region.Placed s.heap.supply.geometry i)
    (le : slot.region.load ≤ slot'.region.load) :
    a.Trades [i] [] s ((a.requested words s).setSlot i slot') := by
  have worked : s.heap.Worked ((a.requested words s).setSlot i slot').heap :=
    .set regs.allPlaced found rfl rfl rfl placed le
  exact .left regs worked rfl (requested_left regs grant).granted rfl

variable (active : s.registers.active = some .sentinel)
include active

/-- The arena was granted a region, has taken note of it, has worked on it and left it. -/
theorem prepared_left {slot slot' : Slot} (found : s.heap.supply.slots[i]? = some slot)
    (placed : slot'.region.Placed s.heap.supply.geometry i)
    (le : slot.region.load ≤ slot'.region.load) :
    a.Trades [i] [] s ((a.prepared i words slot s).setSlot i slot') := by
  have noted : a.Trades [] [] s (a.noted 0 s) := .noted_zero regs active
  have worked : s.heap.Worked ((a.prepared i words slot s).setSlot i slot').heap :=
    .set regs.allPlaced found (List.set_set _) rfl rfl placed le
  have left : a.Trades [i] [] (a.noted 0 s) ((a.prepared i words slot s).setSlot i slot') :=
    .left noted.registersTrue worked rfl (requested_left regs grant).granted rfl
  exact noted.trans left

/-- Whatever state the granted region is in, it is installed or left. -/
theorem installGranted_proceeds :
    ∃ o s', (a.installGranted (.table i) words).Ends (a.requested words s) o s' ∧
      a.Proceeds s [i] o s' := by
  cases here : s.heap.supply.slots[i]? with
  | none =>
      have missing : (a.requested words s).heap.find (.table i) =
          .error (.indexOutOfBounds s.heap.supply.slots.length i) := by
        simp [Heap.find, Supply.slot, requested, Supply.request, here]
      exact ⟨_, _, (Ends.unmark_error missing).bind_error _,
        .failed rfl (requested_left regs grant)⟩
  | some slot =>
      have p := regs.allPlaced.placed here
      have found : (a.requested words s).heap.find (.table i) = .ok slot :=
        Heap.find_table_eq_ok_iff.2 here
      by_cases empty : slot.region.load = 0
      · by_cases outruns : slot.Outruns words words
        · -- A rival claims all that was asked for, and the region is left to it.
          let blank : Slot := { slot with region := slot.region.unmark }
          have q : blank.region.Placed s.heap.supply.geometry i := p.unmark
          have claimed := Slot.claim_of_outruns (q.whole regs.allPlaced.sound).toInBounds outruns
          have ends := Ends.claimAt (find_prepared (a := a) here words) claimed
          refine ⟨_, _, installGranted_ends here regs.allPlaced empty (ends.bind (Ends.fail _ _)),
            .failed rfl ?_⟩
          obtain ⟨n, hn, taken⟩ := blank.outrun_region
          refine prepared_left regs grant active here (blank.outrun_placed q) ?_
          rw [taken, q.load_took]
          exact Nat.le_add_right _ _
        · rcases Nat.eq_zero_or_pos words with zero | pos
          · exact ⟨_, _, installGranted_lost here regs.allPlaced empty outruns zero,
              .failed rfl ((Does.lose active grant here zero).trades regs rfl)⟩
          · have fits : words ≤ slot.region.left := by
              rw [p.left_of_empty regs.allPlaced.sound empty]
              exact (Supply.free_of_grant grant).1
            exact ⟨_, _, installGranted_served here regs.allPlaced empty outruns pos fits,
              .traded _ ((Does.install active grant here pos fits).trades regs rfl)⟩
      · have found₁ := Store.find_setSlot { slot with region := slot.region.unmark } found
        have used : slot.region.unmark.isEmpty = .ok false := by
          rw [p.unmark.isEmpty_eq]
          simpa [Region.load, Region.unmark] using empty
        have fails : ¬ (false = true) := Bool.false_ne_true
        exact ⟨_, _, (Ends.unmarkAt found).bind ((Ends.look found₁).bind
          ((Ends.compute used _).bind ((Ends.require_not fails _ _).bind_error _))),
            .failed rfl (setSlot_left regs grant here p.unmark (Nat.le_refl _))⟩

end

/-- Over the sentinel, a request is refused, or comes to what is made of the region granted. -/
theorem install_proceeds (regs : a.RegistersTrue s) (active : s.registers.active = some .sentinel)
    (words : Nat) :
    ∃ granted o s', (a.install words).Ends s o s' ∧ a.Proceeds s granted o s' := by
  cases grant : s.heap.supply.grant words with
  | none =>
      obtain ⟨start, s', ds, ends, deeds, how⟩ := install_refused active grant
      obtain ⟨same, trade⟩ := how.traded
      have trades := deeds.trades regs trade
      rw [same] at trades
      exact ⟨_, _, s', ends, .traded start trades⟩
  | some i =>
      obtain ⟨o, s', ends, proceeds⟩ := installGranted_proceeds regs grant active
      exact ⟨[i], _, s', install_granted active grant ends, proceeds.map some⟩

theorem install_staysOrProceeds (regs : a.RegistersTrue s) (words : Nat) :
    ∃ granted o s', (a.install words).Ends s o s' ∧ a.StaysOrProceeds s granted o s' := by
  cases active : s.registers.active with
  | none => exact ⟨[], _, s, (Ends.current_none active).bind_error _, .stays _⟩
  | some place =>
      cases place with
      | table i =>
          have real : ¬ Place.table i = Place.sentinel := nofun
          exact ⟨[], _, s, (Ends.current active).bind ((Ends.require_not real _ s).bind_error _),
            .stays _⟩
      | sentinel =>
          obtain ⟨granted, o, s', ends, proceeds⟩ := install_proceeds regs active words
          exact ⟨granted, o, s', ends, .proceeds proceeds⟩

/-- An arena that was started retires, and goes on to a fresh region. -/
theorem claimFresh_proceeds (regs : a.RegistersTrue s) (busy : s.registers.active ≠ none)
    (min desired : Nat) :
    ∃ granted o s', (a.claimFresh min desired).Ends s o s' ∧ a.Proceeds s granted o s' := by
  obtain ⟨waste, s₁, ds, retired, deeds, how, left⟩ :=
    (retire_retires regs.toAble true).busy busy
  have first := deeds.bringsNothing regs how.bringsNothing
  obtain ⟨granted, o, s₂, installed, proceeds⟩ := install_proceeds first.registersTrue left desired
  exact ⟨granted, _, s₂, claimFresh_ends retired installed, (proceeds.map _).after first⟩

theorem claimFresh_staysOrProceeds (regs : a.RegistersTrue s) (min desired : Nat) :
    ∃ granted o s', (a.claimFresh min desired).Ends s o s' ∧ a.StaysOrProceeds s granted o s' := by
  by_cases idle : s.registers.active = none
  · exact ⟨[], _, s, ((retire_retires regs.toAble true).idle idle).bind_error _, .stays _⟩
  · obtain ⟨granted, o, s', ends, proceeds⟩ := claimFresh_proceeds regs idle min desired
    exact ⟨granted, o, s', ends, .proceeds proceeds⟩

theorem claimLocked_staysOrProceeds (regs : a.RegistersTrue s) (min desired : Nat) :
    ∃ granted o s', (a.claimLocked min desired).Ends s o s' ∧ a.StaysOrProceeds s granted o s' := by
  by_cases idle : s.registers.active = none
  · exact ⟨[], _, s, ((Ends.current_none idle).bind_error _).bind_error _, .stays _⟩
  · obtain ⟨o, s₁, ds, ends, deeds, how⟩ := claimActive_endsBy regs.toAble min desired
    have first := deeds.bringsNothing regs how.bringsNothing
    have busy := how.busy deeds idle
    cases o with
    | error e =>
        cases how
        cases deeds
        exact ⟨[], _, s, ends.bind_error _, .stays e⟩
    | ok span =>
        cases span with
        | some span =>
            exact ⟨[], _, s₁, ends.bind (Ends.pure _ s₁), .proceeds (.traded _ first)⟩
        | none =>
            obtain ⟨granted, o, s₂, ends', proceeds⟩ :=
              claimFresh_proceeds first.registersTrue busy min desired
            exact ⟨granted, o, s₂, ends.bind ends', .proceeds (proceeds.after first)⟩

/-! ## Starts and releases -/

/-- How a start comes to an end. -/
inductive Starts (a : Arena) (anew : Bool) (s : Store) : Except Fault Unit → Store → Prop
  | stays (e : Fault) : Starts a anew s (.error e) s
  | begun {s' : Store} (begins : a.Begins anew s s') : Starts a anew s (.ok ()) s'

theorem EndsBy.starts {x : Program Unit} {anew : Bool} (h : a.EndsBy x s (Starting anew))
    (regs : a.RegistersTrue s) : ∃ o s', x.Ends s o s' ∧ a.Starts anew s o s' := by
  obtain ⟨o, s', ds, ends, deeds, how⟩ := h
  refine ⟨o, s', ends, ?_⟩
  cases how with
  | fault e =>
      cases deeds
      exact .stays e
  | started =>
      cases deeds with
      | cons first rest =>
          cases rest
          exact .begun (first.begins regs)

theorem release_staysOrProceeds (regs : a.RegistersTrue s) :
    ∃ o s', a.release.Leads s o s' ∧ a.StaysOrProceeds s [] o s' := by
  by_cases kind : a.kind = .mutator
  · have releases : a.release = a.releaseRetaining := by
      simp only [release, kind]
    rw [releases]
    by_cases idle : s.registers.active = none
    · exact ⟨_, s, (releaseRetaining_fails regs.toAble kind idle).leads, .stays _⟩
    · obtain ⟨s', waste, ds, es, leads, deeds, how, dropped, -⟩ :=
        releaseRetaining_leads regs.toAble kind idle
      have released : Release true (.ok s.registers.held) (ds ++ [.stop] ++ es) :=
        .released _ how dropped
      exact ⟨_, s', leads, .proceeds (.traded _ (deeds.bringsNothing regs released.bringsNothing))⟩
  · exact (release_endsBy regs.toAble kind).staysOrProceeds regs
      Release.bringsNothing Release.fault_deeds

/-! ## Calls -/

/-- What a call comes to. -/
inductive Exchange (a : Arena) (c : Call) (s : Store) (granted : List Nat) :
    Except Fault Answer → Store → Prop
  | stays (e : Fault) (nothing : granted = []) : Exchange a c s granted (.error e) s
  /-- The sentinel or an empty region was to be adopted, and its bytes were noted. -/
  | noted {place : Place} {slot : Slot} {bytes : Nat} (adopts : c = .adopt place)
      (found : s.heap.find place = .ok slot) (used : slot.region.used = .ok bytes)
      (active : s.registers.active = some .sentinel) (empty : place ≠ .sentinel → bytes = 0)
      (nothing : granted = []) :
      Exchange a c s granted (.error (.emptyPublication a.name)) (a.noted bytes s)
  | failed {e : Fault} {s' : Store} (noBreach : e.isBreach = false)
      (trades : a.Trades granted [] s s') : Exchange a c s granted (.error e) s'
  | begun {s' : Store} (v : Answer) (starts : c.starts = true) (nothing : granted = [])
      (begins : a.Begins (c.anew a.kind) s s') : Exchange a c s granted (.ok v) s'
  | traded {s' : Store} (v : Answer) (goesOn : c.starts = false)
      (nothing : c.withdraws = true → granted = [])
      (trades : a.Trades granted (granted ++ c.adopted (.ok v)) s s') :
      Exchange a c s granted (.ok v) s'

theorem StaysOrProceeds.exchange {c : Call} {o : Except Fault Answer}
    (h : a.StaysOrProceeds s granted o s')
    (goesOn : c.starts = false) (nothing : c.withdraws = true → granted = [])
    (own : ∀ v, c.adopted (.ok v) = []) : a.Exchange c s granted o s' := by
  cases h with
  | stays e => exact .stays e rfl
  | proceeds h =>
      cases h with
      | failed noBreach trades => exact .failed noBreach trades
      | traded v trades =>
          refine .traded v goesOn nothing ?_
          rwa [own v, List.append_nil]

theorem Starts.exchange {c : Call} {o : Except Fault Unit}
    (h : a.Starts (c.anew a.kind) s o s') (starts : c.starts = true) (v : Answer) :
    a.Exchange c s [] (o.map fun _ => v) s' := by
  cases h with
  | stays e => exact .stays e rfl
  | begun begins => exact .begun v starts rfl begins

theorem staysOrProceeds_exchange {x : Program α} (f : α → Answer) {c : Call}
    (goesOn : c.starts = false)
    (keeps : c.withdraws = false) (own : ∀ v, c.adopted (.ok v) = [])
    (h : ∃ granted o s', x.Leads s o s' ∧ a.StaysOrProceeds s granted o s') :
    ∃ granted o s', (f <$> x).Leads s o s' ∧ a.Exchange c s granted o s' := by
  obtain ⟨granted, o, s', leads, staysOrProceeds⟩ := h
  refine ⟨granted, _, s', leads.map f, ?_⟩
  refine (staysOrProceeds.map f).exchange goesOn (fun withdraws => ?_) own
  rw [keeps] at withdraws
  cases withdraws

theorem ends_exchange {x : Program α} (f : α → Answer) {c : Call} (goesOn : c.starts = false)
    (keeps : c.withdraws = false) (own : ∀ v, c.adopted (.ok v) = [])
    (h : ∃ granted o s', x.Ends s o s' ∧ a.StaysOrProceeds s granted o s') :
    ∃ granted o s', (f <$> x).Leads s o s' ∧ a.Exchange c s granted o s' := by
  obtain ⟨granted, o, s', ends, staysOrProceeds⟩ := h
  exact staysOrProceeds_exchange f goesOn keeps own ⟨granted, o, s', ends.leads, staysOrProceeds⟩

theorem withdrawal_exchange {x : Program α} (f : α → Answer) {c : Call}
    (goesOn : c.starts = false) (own : ∀ v, c.adopted (.ok v) = [])
    (h : ∃ o s', x.Leads s o s' ∧ a.StaysOrProceeds s [] o s') :
    ∃ granted o s', (f <$> x).Leads s o s' ∧ a.Exchange c s granted o s' := by
  obtain ⟨o, s', leads, staysOrProceeds⟩ := h
  exact ⟨[], _, s', leads.map f, (staysOrProceeds.map f).exchange goesOn (fun _ => rfl) own⟩

/-- A claim on an arena brings nothing but words. -/
theorem EndsBy.claims {x : Program (Option Span)} (h : a.EndsBy x s (Claiming min desired))
    (regs : a.RegistersTrue s) :
    ∃ granted o s', x.Leads s o s' ∧ a.StaysOrProceeds s granted o s' :=
  ⟨[], h.staysOrProceeds regs Claiming.bringsNothing Claiming.fault_deeds⟩

/-- Every call on an arena whose registers are true comes to a trade or a start, or else to a
fault. -/
theorem answer_exchange (regs : a.RegistersTrue s) (c : Call)
    (named : ∀ place, c.place? = some place → ∃ slot, s.heap.find place = .ok slot) :
    ∃ granted o s', (a.answer c).Leads s o s' ∧ a.Exchange c s granted o s' := by
  have able := regs.toAble
  cases c with
  | start =>
      obtain ⟨o, s', ends, starts⟩ := (start_endsBy a s).starts regs
      have anew : decide (a.kind = .mutator) = Call.start.anew a.kind := by
        cases a.kind <;> rfl
      rw [anew] at starts
      exact ⟨[], _, s', (ends.map fun _ => Answer.nothing).leads, starts.exchange rfl _⟩
  | startPlain =>
      obtain ⟨o, s', ends, starts⟩ := (startPlain_endsBy (a := a) (s := s)).starts regs
      exact ⟨[], _, s', (ends.map fun _ => Answer.nothing).leads, starts.exchange rfl _⟩
  | retire filling =>
      have endsBy := (retire_retires able filling).endsBy
      exact withdrawal_exchange _ rfl (fun _ => rfl)
        (endsBy.staysOrProceeds regs Retirement.bringsNothing Retirement.fault_deeds)
  | retirePlain filling =>
      have endsBy := (retirePlain_retires able filling).endsBy
      exact withdrawal_exchange _ rfl (fun _ => rfl)
        (endsBy.staysOrProceeds regs Retirement.bringsNothing Retirement.fault_deeds)
  | release => exact withdrawal_exchange _ rfl (fun _ => rfl) (release_staysOrProceeds regs)
  | releasePlain =>
      have endsBy := (releaseBy_releases (retirePlain_retires able false)).endsBy
      exact withdrawal_exchange _ rfl (fun _ => rfl)
        (endsBy.staysOrProceeds regs Release.bringsNothing Release.fault_deeds)
  | allocate words =>
      refine staysOrProceeds_exchange _ rfl rfl (fun _ => rfl)
        ⟨[], (allocate_endsBy able words).staysOrProceeds regs ?_ ?_⟩
      · rintro _ ds ⟨o, -, how⟩
        exact how.bringsNothing
      · rintro e ds ⟨o, eq, how⟩
        cases o with
        | error e => exact how.fault_deeds
        | ok span => cases eq
  | claim min desired =>
      have endsBy := claimActive_endsBy able min desired
      exact staysOrProceeds_exchange _ rfl rfl (fun _ => rfl) (endsBy.claims regs)
  | claimRetained min desired =>
      have endsBy := claimRetained_endsBy able min desired
      exact staysOrProceeds_exchange _ rfl rfl (fun _ => rfl) (endsBy.claims regs)
  | claimLocked min desired =>
      exact ends_exchange _ rfl rfl (fun _ => rfl) (claimLocked_staysOrProceeds regs min desired)
  | claimFresh min desired =>
      exact ends_exchange _ rfl rfl (fun _ => rfl) (claimFresh_staysOrProceeds regs min desired)
  | claimForced words =>
      obtain ⟨granted, o, s', ends, staysOrProceeds⟩ := install_staysOrProceeds regs words
      exact ends_exchange _ rfl rfl (fun _ => rfl)
        ⟨granted, o, s', claimForced_ends ends, staysOrProceeds⟩
  | install words =>
      exact ends_exchange _ rfl rfl (fun _ => rfl) (install_staysOrProceeds regs words)
  | adopt place =>
      obtain ⟨slot, found⟩ := named place rfl
      rcases adopt_cases able found with
        ⟨e, ends⟩ | ⟨bytes, active, used, empty, ends⟩ | ⟨i, s', rfl, ends, deed⟩
      · exact ⟨[], _, s, (ends.map fun _ => Answer.nothing).leads, .stays e rfl⟩
      · exact ⟨[], _, _, (ends.map fun _ => Answer.nothing).leads,
          .noted rfl found used active empty rfl⟩
      · exact ⟨[], _, s', (ends.map fun _ => Answer.nothing).leads,
          .traded _ rfl nofun (deed.trades regs rfl)⟩
  | held =>
      exact ends_exchange _ rfl rfl (fun _ => rfl)
        ⟨[], _, s, Ends.held s, .proceeds (.traded _ (.refl regs))⟩
  | summary =>
      refine ends_exchange _ rfl rfl (fun _ => rfl) ⟨[], _, s, summary_ends s, ?_⟩
      cases Summary.new s.registers.count s.registers.wasted a.settings.regionBytes with
      | error e => exact .stays e
      | ok summary => exact .proceeds (.traded summary (.refl regs))

/-- Whatever comes of a call, the registers are true, and the heap has been worked on at
most. -/
theorem Exchange.registersTrue {c : Call} {o : Except Fault Answer}
    (h : a.Exchange c s granted o s')
    (regs : a.RegistersTrue s) : a.RegistersTrue s' ∧ s.heap.Worked s'.heap := by
  cases h with
  | stays e nothing => exact ⟨regs, .refl regs.allPlaced⟩
  | noted adopts found used active => exact ⟨regs.noted active _, .refl regs.allPlaced⟩
  | failed noBreach trades => exact ⟨trades.registersTrue, trades.worked⟩
  | begun v starts nothing begins =>
      refine ⟨begins.registersTrue, ?_⟩
      rw [begins.heap]
      exact .refl regs.allPlaced
  | traded v goesOn nothing trades => exact ⟨trades.registersTrue, trades.worked⟩

/-- What cannot be adopted has no bytes in use, if the sentinel has none. -/
theorem adopted_bytes_eq_zero {h : Heap} {place : Place} {slot : Slot} {bytes : Nat}
    (found : h.find place = .ok slot) (used : slot.region.used = .ok bytes)
    (empty : place ≠ .sentinel → bytes = 0) (unused : h.sentinel.load = 0) : bytes = 0 := by
  cases place with
  | table i => exact empty (by simp)
  | sentinel =>
      cases found
      exact (Region.load_of_used_eq_ok used).symm.trans unused

/-- Bytes are noted of an active region only after a call, if they were before, unless a
sentinel that is in use was to be adopted. -/
theorem Exchange.notes {c : Call} {o : Except Fault Answer} (h : a.Exchange c s granted o s')
    (regs : a.RegistersTrue s) (before : s.registers.NotesActiveOnly)
    (spares : c = .adopt .sentinel → a.purpose ≠ none → s.registers.active = some .sentinel →
      s.heap.sentinel.load = 0) : s'.registers.NotesActiveOnly := by
  cases h with
  | stays e nothing => exact before
  | failed noBreach trades => exact trades.notes before
  | begun v starts nothing begins => exact begins.notes before
  | traded v goesOn nothing trades => exact trades.notes before
  | @noted place slot bytes adopts found used active empty =>
      intro _
      change a.noting bytes s.registers.baseline = 0
      by_cases none : a.purpose = Option.none
      · exact regs.noting_of_noteless none bytes
      · rw [noting_of_purpose none]
        by_cases sentinel : place = .sentinel
        · subst sentinel
          exact adopted_bytes_eq_zero found used empty (spares adopts none active)
        · exact empty sentinel

end Arena

end RegionHeap
