import RegionHeap.Proofs.Arena.Books
import RegionHeap.Proofs.Arena.Course

/-!
# Tenancies

The tenancy of an arena of application threads lasts from its start to its release.
Whatever the arena does in between, the bytes that it has wasted, the bytes that it has
handed back and the bytes of the regions that it holds make up the regions installed.
-/

namespace RegionHeap

/-- The bytes that were in use in the regions taken back. -/
def MutatorReturn.totalUsed (backs : List MutatorReturn) : Nat :=
  (backs.map MutatorReturn.usedBytes).sum

/-- What an arena does within a tenancy. It starts no other, counts what it wastes and
keeps what it is granted. -/
def Deed.Tenant : Deed → Prop
  | .start _ | .giveUp _ _ false _ | .lose .. => False
  | _ => True

namespace Arena

/-- The tenancy so far: `n` regions were installed and `wasted` bytes wasted since the
supply had recorded these returns. -/
structure Tenancy (returns : List MutatorReturn) (n wasted : Nat) (s : Store) : Prop where
  count : s.registers.count = n % 2 ^ 32
  counter : s.registers.wasted = wasted % Word.bound
  books : ∃ backs, s.heap.supply.mutatorReturns = returns ++ backs ∧
    backs.length + s.registers.regions.length = n ∧
      wasted + MutatorReturn.totalUsed backs +
          s.registers.regions.length * s.heap.supply.geometry.bytes =
        n * s.heap.supply.geometry.bytes

variable {a : Arena} {others : List Nat} {s s' : Store} {d : Deed} {ds : List Deed}
  {returns : List MutatorReturn} {n wasted : Nat}

/-- What an arena has said does not matter to its tenancy. -/
theorem Tenancy.congr (t : Tenancy returns n wasted s) (registers : s'.registers = s.registers)
    (heap : s'.heap = s.heap) : Tenancy returns n wasted s' := by
  obtain ⟨count, counter, books⟩ := t
  rw [← registers, ← heap] at books
  rw [← registers] at count counter
  exact ⟨count, counter, books⟩

/-- A region that goes back leaves its bytes in the books. -/
theorem Tenancy.back (t : Tenancy returns n wasted s) {i live waste : Nat}
    (backs : s'.heap.supply.mutatorReturns = s.heap.supply.mutatorReturns ++ [⟨i, live⟩])
    (geometry : s'.heap.supply.geometry = s.heap.supply.geometry)
    (whole : waste + live = s.heap.supply.geometry.bytes)
    (held : s'.registers.regions.length + 1 = s.registers.regions.length)
    (count : s'.registers.count = s.registers.count)
    (counted : s'.registers.wasted = Waste.add s.registers.wasted waste) :
    Tenancy returns n (wasted + waste) s' := by
  obtain ⟨before, eq, many, total⟩ := t.books
  refine ⟨count.trans t.count, ?_, before ++ [⟨i, live⟩], ?_, ?_, ?_⟩
  · rw [counted, t.counter, Waste.add, Word.wrapAdd, Nat.mod_add_mod]
  · rw [backs, eq, List.append_assoc]
  · simp only [List.length_append, List.length_singleton]
    omega
  · have more : MutatorReturn.totalUsed (before ++ [⟨i, live⟩]) =
        MutatorReturn.totalUsed before + live := by
      simp [MutatorReturn.totalUsed]
    rw [← held, Nat.add_mul] at total
    rw [geometry, more]
    omega

/-- A region that comes adds its bytes to the total. -/
theorem Tenancy.forth (t : Tenancy returns n wasted s)
    (backs : s'.heap.supply.mutatorReturns = s.heap.supply.mutatorReturns)
    (geometry : s'.heap.supply.geometry = s.heap.supply.geometry)
    (held : s'.registers.regions.length = s.registers.regions.length + 1)
    (count : s'.registers.count = Word.wrapSucc32 s.registers.count)
    (wasted_eq : s'.registers.wasted = s.registers.wasted) :
    Tenancy returns (n + 1) wasted s' := by
  obtain ⟨before, eq, many, total⟩ := t.books
  refine ⟨?_, wasted_eq.trans t.counter, before, backs.trans eq, by omega, ?_⟩
  · rw [count, t.count, Word.wrapSucc32, Nat.pow_eq, Nat.mod_add_mod]
  · rw [geometry, held, Nat.add_mul, Nat.add_mul]
    omega

/-- A tenancy stays as it is while the registers hold as many regions. -/
theorem Tenancy.same (t : Tenancy returns n wasted s)
    (backs : s'.heap.supply.mutatorReturns = s.heap.supply.mutatorReturns)
    (geometry : s'.heap.supply.geometry = s.heap.supply.geometry)
    (held : s'.registers.regions.length = s.registers.regions.length)
    (count : s'.registers.count = s.registers.count)
    (wasted_eq : s'.registers.wasted = s.registers.wasted) :
    Tenancy returns n wasted s' := by
  obtain ⟨before, eq, many, total⟩ := t.books
  exact ⟨count.trans t.count, wasted_eq.trans t.counter, before, backs.trans eq,
    held ▸ many, by rw [geometry, held, total]⟩

/-- Every deed of a tenancy keeps its account. -/
theorem Does.tenancy (h : a.Does d s s') (r : a.Ready others s) (kind : a.kind = .mutator)
    (tenant : d.Tenant) (t : Tenancy returns n wasted s) :
    Tenancy returns (n + d.gained.length) (wasted + d.waste) s' := by
  have held := h.regions.length_eq
  simp only [List.length_append] at held
  have recorded (i live : Nat) :
      s.heap.supply.mutatorReturns ++ a.mutatorReturns i live =
        s.heap.supply.mutatorReturns ++ [⟨i, live⟩] := by
    simp [mutatorReturns, kind]
  have counted (waste : Nat) : a.wasting waste s.registers.wasted =
      Waste.add s.registers.wasted waste := by
    simp [wasting, kind]
  cases h with
  | @giveUp _ i waste slot filling counts active found wasted =>
      cases counts with
      | false => exact absurd tenant id
      | true =>
          have whole := Slot.waste_add_live (r.order.placed found) r.sound
            a.settings.minFillWords filling
          rw [wasted] at whole
          exact t.back (recorded i _) rfl whole held rfl (counted waste)
  | @displace _ i j waste slot kept kind' active retained found foundKept worth better wasted =>
      have whole := Slot.waste_add_live (r.order.placed foundKept) r.sound
        a.settings.minFillWords true
      rw [wasted] at whole
      exact t.back (recorded j _) rfl whole held rfl (counted waste)
  | @drop _ j waste kept kind' idle retained foundKept wasted =>
      have whole := Slot.waste_add_live (r.order.placed foundKept) r.sound
        a.settings.minFillWords false
      rw [wasted] at whole
      exact t.back (recorded j _) rfl whole held rfl (counted waste)
  | @install _ i words slot active granted found pos fits =>
      exact t.forth rfl rfl held rfl rfl
  | @adopt _ i slot active fresh found full => exact t.forth rfl rfl held rfl rfl
  | start | lose => exact absurd tenant id
  | claim | outrun | refuse | keep | note | stop => exact t.same rfl rfl held rfl rfl

/-- Deeds of a tenancy keep its account. -/
theorem Deeds.tenancy (h : a.Deeds ds s s') (r : a.Ready others s) (kind : a.kind = .mutator)
    (unowned : AdoptsUnowned others s ds) (tenant : ∀ d ∈ ds, d.Tenant)
    (t : Tenancy returns n wasted s) :
    Tenancy returns (n + (ds.flatMap Deed.gained).length) (wasted + Deed.totalWaste ds) s' := by
  induction h generalizing n wasted with
  | nil s => exact t
  | @cons d ds s s₁ s₂ first rest ih =>
      have r₁ := first.ready r fun j eq => (unowned j (eq ▸ List.mem_cons_self)).2
      have t₁ := first.tenancy r kind (tenant d List.mem_cons_self) t
      have t₂ := ih r₁ unowned.tail (fun e he => tenant e (List.mem_cons_of_mem d he)) t₁
      simpa [Deed.totalWaste, Nat.add_assoc] using t₂

/-- An arena that was started anew holds nothing, has counted nothing, and left the heap
alone. -/
theorem Deeds.of_start (h : a.Deeds [.start true] s s') :
    s'.registers.count = 0 ∧ s'.registers.wasted = 0 ∧ s'.registers.regions = [] ∧
      s'.heap = s.heap := by
  cases h with
  | cons first rest =>
      cases rest
      cases first with
      | start anew idle none =>
          exact ⟨rfl, rfl, by simp [Registers.regions, none rfl], rfl⟩

end Arena

/-- Whether a call can be part of a tenancy. It neither starts the arena nor goes behind
the back of its way to retire. -/
def Call.tenant : Call → Bool
  | .start | .startPlain | .retirePlain _ | .releasePlain => false
  | _ => true

namespace Arena

variable {a : Arena} {ds : List Deed}

theorem Claiming.tenant {min desired : Nat} {o : Except Fault (Option Span)}
    (h : Claiming min desired o ds) : ∀ d ∈ ds, d.Tenant := by
  cases h <;> simp [Deed.Tenant]

theorem Installing.tenant {words : Nat} {o : Except Fault (Option Nat)}
    (h : Installing words o ds) (kept : ∀ i words, Deed.lose i words ∉ ds) :
    ∀ d ∈ ds, d.Tenant := by
  cases h with
  | lost e i => exact absurd List.mem_cons_self (kept i words)
  | _ => simp [Deed.Tenant]

theorem Retiring.tenant {filling : Bool} {waste : Nat} (h : Retiring filling true waste ds) :
    ∀ d ∈ ds, d.Tenant := by
  cases h <;> simp [Deed.Tenant]

theorem Retirement.tenant {filling : Bool} {o : Except Fault Nat}
    (h : Retirement filling true o ds) : ∀ d ∈ ds, d.Tenant := by
  cases h with
  | fault e => exact nofun
  | retired h => exact h.tenant

theorem Release.tenant {o : Except Fault (Option Place)} (h : Release true o ds) :
    ∀ d ∈ ds, d.Tenant := by
  cases h with
  | fault e => exact nofun
  | released place h dropped =>
      intro d hd
      simp only [List.mem_append, List.mem_singleton] at hd
      rcases hd with (hd | rfl) | hd
      · exact h.tenant d hd
      · exact trivial
      · obtain rfl | ⟨j, waste, rfl⟩ := dropped
        · exact absurd hd List.not_mem_nil
        · cases List.mem_singleton.1 hd
          exact trivial

theorem Renewal.tenant {desired : Nat} {o : Except Fault (Option Span)}
    (h : Renewal desired true o ds) (kept : ∀ i words, Deed.lose i words ∉ ds) :
    ∀ d ∈ ds, d.Tenant := by
  cases h with
  | fault e => exact nofun
  | renewed retiring installing =>
      intro d hd
      rcases List.mem_append.1 hd with hd | hd
      · exact retiring.tenant d hd
      · exact installing.tenant (fun i words h => kept i words (List.mem_append_right _ h)) d hd

/-- What an arena of application threads does on such a call belongs to the tenancy. -/
theorem Course.tenant {c : Call} {o : Except Fault Answer} (h : a.Course c o ds)
    (kind : a.kind = .mutator) (tenant : c.tenant = true)
    (kept : ∀ i words, Deed.lose i words ∉ ds) : ∀ d ∈ ds, d.Tenant := by
  have counts : a.counts = true := by simp [Arena.counts, kind]
  cases h with
  | start | startPlain | retirePlain | releasePlain => cases tenant
  | retire h => exact (counts ▸ h).tenant
  | release h => exact (counts ▸ h).tenant
  | allocate h | claim h | claimRetained h | claimLocked h => exact h.tenant
  | claimFresh h => exact (counts ▸ h).tenant kept
  | claimLocked_fresh h h' =>
      intro d hd
      rcases List.mem_append.1 hd with hd | hd
      · exact h.tenant d hd
      · exact (counts ▸ h').tenant (fun i words h => kept i words (List.mem_append_right _ h)) d hd
  | claimForced h | install h => exact h.tenant kept
  | adopt h => cases h <;> simp [Deed.Tenant]
  | held | summary => exact List.forall_mem_nil _

/-- A start that succeeds is one deed. -/
theorem Course.of_start (h : a.Course .start (.ok .nothing) ds) :
    ds = [.start (a.kind = .mutator)] := by
  generalize eq : (Except.ok Answer.nothing : Except Fault Answer) = o at h
  cases h with
  | start h =>
      cases h with
      | fault e => cases eq
      | started => rfl

end Arena

end RegionHeap
