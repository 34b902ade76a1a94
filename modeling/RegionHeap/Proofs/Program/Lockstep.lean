import RegionHeap.Proofs.Heap.Each
import RegionHeap.Proofs.Program.Only

/-!
# Programs in lockstep

Two programs go in lockstep if they do the same to stores that are alike and come to the same,
apart from the names of the arenas that they speak of. One of the two may count the bytes it
wastes. Neither has put a region aside.
-/

namespace RegionHeap

/-- The fault without the name of an arena. -/
def Fault.anonymous : Fault → Fault
  | .alreadyStarted _ => .alreadyStarted ""
  | .notStarted _ => .notStarted ""
  | .stillRetaining _ => .stillRetaining ""
  | .notOverSentinel _ => .notOverSentinel ""
  | .cannotHold _ region words => .cannotHold "" region words
  | .notFresh _ => .notFresh ""
  | .emptyPublication _ => .emptyPublication ""
  | .retiredEmpty _ region => .retiredEmpty "" region
  | .stillFillable _ bytes => .stillFillable "" bytes
  | .sentinelLost _ => .sentinelLost ""
  | fault => fault

/-- The event without the name of its arena. -/
def Event.anonymous (e : Event) : Event :=
  { e with arena := "" }

/-- The results are the same, apart from the name of an arena in a fault. -/
def SameButName {α : Type} (x y : Except Fault α) : Prop :=
  y.mapError Fault.anonymous = x.mapError Fault.anonymous

namespace SameButName

variable {α β : Type} {x y : Except Fault α}

theorem refl (x : Except Fault α) : SameButName x x :=
  rfl

theorem error {fault fault' : Fault} (same : fault'.anonymous = fault.anonymous) :
    SameButName (.error fault : Except Fault α) (.error fault') :=
  congrArg Except.error same

theorem cases (same : SameButName x y) :
    (∃ value, x = .ok value ∧ y = .ok value) ∨
      ∃ fault fault', x = .error fault ∧ y = .error fault' ∧
        fault'.anonymous = fault.anonymous := by
  cases x with
  | ok value =>
      cases y with
      | ok other =>
          cases same
          exact .inl ⟨value, rfl, rfl⟩
      | error fault => cases same
  | error fault =>
      cases y with
      | ok other => cases same
      | error fault' => exact .inr ⟨fault, fault', rfl, rfl, Except.error.inj same⟩

theorem map (same : SameButName x y) (f : α → β) : SameButName (f <$> x) (f <$> y) := by
  obtain ⟨value, rfl, rfl⟩ | ⟨fault, fault', rfl, rfl, named⟩ := same.cases
  · exact .refl _
  · exact .error named

end SameButName

/-- The events that were told, without names. -/
def told (said : List Entry) : List Event :=
  (said.filterMap Entry.event?).map Event.anonymous

theorem told_concat (said : List Entry) (entry : Entry) :
    told (said ++ [entry]) = told said ++ told [entry] := by
  simp only [told, List.filterMap_append, List.map_append]

/-- The stores are alike: the arenas hold the same on the same heap of narrow regions, have
told the same, and have put nothing aside. -/
structure Store.Like (least : Nat) (s t : Store) : Prop where
  heap : t.heap = s.heap
  active : t.registers.active = s.registers.active
  count : t.registers.count = s.registers.count
  retained : s.registers.retained = none
  retained' : t.registers.retained = none
  told : told t.transcript = told s.transcript
  narrow : s.heap.NarrowerThan least

namespace Step

/-- A step on the count of the waste, or a look at what was counted. -/
def Idle : Step → Prop
  | .loadCount | .loadWasted | .clearWasted | .addWasted _ | .summarise .. => True
  | _ => False

end Step

namespace Program

variable {α β : Type} {least : Nat}

/-- From stores that are alike, the programs come to the same and leave stores that are
alike. -/
def Lockstep (least : Nat) (x y : Program α) : Prop :=
  ∀ s t : Store, s.Like least t →
    SameButName (x.run s).1 (y.run t).1 ∧ (x.run s).2.Like least (y.run t).2

namespace Lockstep

variable {x y : Program α} {f g : α → Program β}

theorem pure (value : α) : Lockstep least (Pure.pure value) (Pure.pure value) :=
  fun _ _ like => ⟨.refl _, like⟩

theorem fail {fault fault' : Fault} (same : fault'.anonymous = fault.anonymous) :
    Lockstep least (Program.fail fault : Program α) (Program.fail fault') :=
  fun _ _ like => ⟨.error same, like⟩

theorem bind (first : Lockstep least x y) (rest : ∀ value, Lockstep least (f value) (g value)) :
    Lockstep least (x >>= f) (y >>= g) := by
  intro s t like
  obtain ⟨same, like'⟩ := first s t like
  rw [run_bind, run_bind]
  cases left : x.run s with
  | mk result s' =>
      cases right : y.run t with
      | mk result' t' =>
          rw [left, right] at same like'
          obtain ⟨value, rfl, rfl⟩ | ⟨fault, fault', rfl, rfl, named⟩ := same.cases
          · exact rest value s' t' like'
          · exact ⟨.error named, like'⟩

theorem map (h : Lockstep least x y) (f : α → β) : Lockstep least (f <$> x) (f <$> y) :=
  .bind h fun value => .pure (f value)

theorem compute (result : Except Fault α) :
    Lockstep least (Program.compute result) (Program.compute result) := by
  cases result with
  | ok value => exact .pure value
  | error fault => exact .fail rfl

theorem require (p : Prop) [Decidable p] {fault fault' : Fault}
    (same : fault'.anonymous = fault.anonymous) :
    Lockstep least (Program.require p fault) (Program.require p fault') := by
  unfold Program.require
  split
  · exact .pure ()
  · exact .fail same

theorem onHeap {st : Step} (h : st.OnHeap) : Lockstep least (perform st) (perform st) := by
  obtain ⟨f, told⟩ := Step.perform_onHeap h
  intro s t like
  have narrow (answer : st.Answer) (s' : Store) (performed : st.perform s = .ok (answer, s')) :
      s'.heap.NarrowerThan least :=
    Step.perform_narrow like.narrow performed
  rw [run_perform, run_perform]
  rw [told s] at narrow ⊢
  rw [told t, like.heap]
  cases done : f s.heap with
  | error fault => exact ⟨.refl _, like⟩
  | ok r =>
      rw [done] at narrow
      exact ⟨.refl _, { like with heap := rfl, narrow := narrow _ _ rfl }⟩

theorem look (place : Place) : Lockstep least (Program.look place) (Program.look place) :=
  .onHeap trivial

theorem claim (place : Place) (min desired : Nat) :
    Lockstep least (Program.claim place min desired) (Program.claim place min desired) :=
  .onHeap trivial

theorem freeBytes (place : Place) :
    Lockstep least (Program.freeBytes place) (Program.freeBytes place) :=
  .bind (.look place) fun _ => .compute _

theorem usedBytes (place : Place) :
    Lockstep least (Program.usedBytes place) (Program.usedBytes place) :=
  .bind (.look place) fun _ => .compute _

theorem active : Lockstep least Program.active Program.active :=
  fun _ _ like => ⟨congrArg (fun place => Except.ok place) like.active, like⟩

theorem activate (place : Option Place) :
    Lockstep least (Program.activate place) (Program.activate place) :=
  fun _ _ like => ⟨.refl _, { like with active := rfl }⟩

theorem count : Lockstep least Program.count Program.count :=
  fun _ _ like => ⟨congrArg (fun n => Except.ok n) like.count, like⟩

theorem clearCount : Lockstep least (perform .clearCount) (perform .clearCount) :=
  fun _ _ like => ⟨.refl _, { like with count := rfl }⟩

theorem bumpCount : Lockstep least (perform .bumpCount) (perform .bumpCount) :=
  fun _ _ like => ⟨.refl _, { like with count := congrArg Word.wrapSucc32 like.count }⟩

/-- The same is reported under two names. -/
theorem report (name name' : String) (moment : Moment) (sizes : Option Sizes) :
    Lockstep least (perform (.report name moment sizes))
      (perform (.report name' moment sizes)) := by
  intro s t like
  refine ⟨.refl _, { like with told := ?_ }⟩
  have same : (t.event name' moment sizes).anonymous = (s.event name moment sizes).anonymous := by
    simp only [Event.anonymous, Store.event, like.heap, like.active, like.count]
  change RegionHeap.told (t.transcript ++ [_]) = RegionHeap.told (s.transcript ++ [_])
  rw [told_concat, told_concat, like.told]
  exact congrArg (fun e => RegionHeap.told s.transcript ++ [e]) same

/-- Nothing is put aside. -/
theorem skip_retained {f : Option Place → Program β} {y : Program β}
    (rest : Lockstep least (f none) y) : Lockstep least (retained >>= f) y := by
  intro s t like
  rw [run_bind, run_retained, like.retained]
  exact rest s t like

/-- One of the programs does what makes no difference. -/
theorem skip {st : Step} (idle : st.Idle) {f : st.Answer → Program β} {y : Program β}
    (rest : ∀ answer, Lockstep least (f answer) y) : Lockstep least (perform st >>= f) y := by
  intro s t like
  rw [run_bind, run_perform]
  cases st with
  | loadCount | loadWasted => exact rest _ s t like
  | clearWasted | addWasted => exact rest () _ t { like with }
  | summarise regions bytes regionBytes =>
      refine rest () _ t { like with told := ?_ }
      change _ = RegionHeap.told (s.transcript ++ [_])
      rw [told_concat, like.told]
      exact (List.append_nil _).symm
  | _ => exact idle.elim

end Lockstep

end Program

end RegionHeap
