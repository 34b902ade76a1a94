import RegionHeap.Proofs.Arena.Course
import RegionHeap.Proofs.Arena.Frame

/-!
# Rounds of an arena of a collection

An arena of a collection holds at most one region. On a call it gives that region up, or
it does not; then it does one more thing, or nothing. The words that the call hands out
can be told from its outcome.
-/

namespace RegionHeap

/-- The words that a call has handed out if it ends like this. -/
def Call.span : Call → Except Fault Answer → Option Span
  | .allocate words, .ok (.address first)
  | .claimForced words, .ok (.address first)
  | .install words, .ok (.address first) => first.map fun address => { start := address, words }
  | .claim .., .ok (.span span)
  | .claimRetained .., .ok (.span span)
  | .claimLocked .., .ok (.span span)
  | .claimFresh .., .ok (.span span) => span
  | _, _ => none

theorem Call.span_error (c : Call) (fault : Fault) : c.span (.error fault) = none := by
  cases c <;> rfl

/-- Whether a call retires in the way of the arena's kind, if it retires. -/
def Call.counted : Call → Bool
  | .retirePlain _ | .releasePlain => false
  | _ => true

/-- What an arena of a collection does while nobody competes with it. -/
def Deed.Collects : Deed → Prop
  | .outrun _ | .keep _ | .displace .. | .drop .. => False
  | _ => True

/-- What can be done over the sentinel, or before it is there, and the words that it hands
out. -/
inductive Deed.Fresh : Option Span → Deed → Prop
  | start (anew : Bool) : Fresh none (.start anew)
  | refuse (words : Nat) : Fresh none (.refuse words)
  | install (i : Nat) (span : Span) : Fresh (some span) (.install i span)
  | lose (i words : Nat) : Fresh none (.lose i words)
  | adopt (i : Nat) : Fresh none (.adopt i)
  | note (bytes : Nat) : Fresh none (.note bytes)
  | stop : Fresh none .stop

namespace Arena

/-- What an arena of a collection does on one call, with the words that it hands out. -/
inductive Round : Option Span → List Deed → Prop
  | idle : Round none []
  | claim (i : Nat) (span : Span) : Round (some span) [.claim i span]
  | fresh {span : Option Span} {d : Deed} (h : d.Fresh span) : Round span [d]
  | giveUp (i : Nat) (filling : Bool) (waste : Nat) :
      Round none [.giveUp i filling true waste]
  | renew (i : Nat) (filling : Bool) (waste : Nat) {span : Option Span} {d : Deed}
      (h : d.Fresh span) (adopts_nothing : ∀ j, d ≠ .adopt j) :
      Round span [.giveUp i filling true waste, d]

variable {a : Arena} {s s' : Store} {ds : List Deed} {purpose : Purpose}

/-- No arena of a collection keeps regions, and where nobody waits it is not outrun. -/
theorem Does.collects {d : Deed} (h : a.Does d s s') (kind : a.kind = .collector purpose)
    (noRivals : s.heap.NoRivals) : d.Collects := by
  cases h with
  | outrun mine found rivals => exact absurd (noRivals _ _ found) rivals
  | keep kind' | displace kind' | drop kind' => cases kind.symm.trans kind'
  | start | claim | giveUp | refuse | install | lose | adopt | note | stop => exact trivial

theorem Deeds.collects (h : a.Deeds ds s s') (kind : a.kind = .collector purpose)
    (noRivals : s.heap.NoRivals) : ∀ d ∈ ds, d.Collects := by
  induction h with
  | nil s => exact nofun
  | cons first rest ih =>
      intro d hd
      rcases List.mem_cons.1 hd with rfl | hd
      · exact first.collects kind noRivals
      · exact ih (first.noRivals noRivals) d hd

/-- A claim hands out the words that it answers. -/
theorem Claiming.round {min desired : Nat} {o : Except Fault (Option Span)}
    (h : Claiming min desired o ds) (collects : ∀ d ∈ ds, d.Collects) :
    Round (o.toOption.join) ds := by
  cases h with
  | fault | refused => exact .idle
  | outrun i => exact absurd (collects _ List.mem_cons_self) id
  | served i span least most => exact .claim i span

/-- An installation does nothing, or one thing over the sentinel. -/
theorem Installing.cases_fresh {words : Nat} {o : Except Fault (Option Nat)}
    (h : Installing words o ds) :
    (ds = [] ∧ o.toOption.join = none) ∨ ∃ d, ds = [d] ∧ (∀ j, d ≠ .adopt j) ∧
      d.Fresh (o.toOption.join.map fun start => { start, words }) := by
  cases h with
  | fault e => exact .inl ⟨rfl, rfl⟩
  | refused => exact .inr ⟨_, rfl, nofun, .refuse words⟩
  | lost e i => exact .inr ⟨_, rfl, nofun, .lose i words⟩
  | served i start => exact .inr ⟨_, rfl, nofun, .install i { start, words }⟩

theorem Installing.round {words : Nat} {o : Except Fault (Option Nat)}
    (h : Installing words o ds) :
    Round (o.toOption.join.map fun start => { start, words }) ds := by
  obtain ⟨rfl, none⟩ | ⟨d, rfl, -, fresh⟩ := h.cases_fresh
  · rw [none]
    exact .idle
  · exact .fresh fresh

/-- A retirement gives one region up at most. -/
theorem Retiring.cases_giveUp {filling counted : Bool} {waste : Nat}
    (h : Retiring filling counted waste ds) (collects : ∀ d ∈ ds, d.Collects) :
    ds = [] ∨ ∃ i, ds = [.giveUp i filling counted waste] := by
  cases h with
  | idle => exact .inl rfl
  | gaveUp i waste => exact .inr ⟨i, rfl⟩
  | kept | displaced => exact absurd (collects _ List.mem_cons_self) id

/-- Something is done over the sentinel that a retirement has left. -/
theorem Retiring.round {filling : Bool} {waste : Nat} (h : Retiring filling true waste ds)
    (collects : ∀ d ∈ ds, d.Collects) {span : Option Span} {d : Deed} (fresh : d.Fresh span)
    (adopts_nothing : ∀ j, d ≠ .adopt j) : Round span (ds ++ [d]) := by
  obtain rfl | ⟨i, rfl⟩ := h.cases_giveUp collects
  · exact .fresh fresh
  · exact .renew i filling waste fresh adopts_nothing

theorem Renewal.round {desired : Nat} {o : Except Fault (Option Span)}
    (h : Renewal desired true o ds) (collects : ∀ d ∈ ds, d.Collects) :
    Round o.toOption.join ds := by
  cases h with
  | fault e => exact .idle
  | @renewed waste ds es o retiring installing =>
      have before := fun d hd => collects d (List.mem_append_left es hd)
      have same : (o.map fun start => start.map fun start =>
          ({ start, words := desired } : Span)).toOption.join =
            o.toOption.join.map fun start => { start, words := desired } := by
        cases o <;> rfl
      rw [same]
      obtain ⟨rfl, none⟩ | ⟨d, rfl, adopts_nothing, fresh⟩ := installing.cases_fresh
      · rw [none, List.append_nil]
        obtain rfl | ⟨i, rfl⟩ := retiring.cases_giveUp before
        · exact .idle
        · exact .giveUp i true waste
      · exact retiring.round before fresh adopts_nothing

theorem Release.round {o : Except Fault (Option Place)} (h : Release true o ds)
    (collects : ∀ d ∈ ds, d.Collects) : Round none ds := by
  cases h with
  | fault e => exact .idle
  | @released waste ds es place retiring dropped =>
      obtain rfl | ⟨j, waste, rfl⟩ := dropped
      · rw [List.append_nil] at collects ⊢
        exact retiring.round (fun d hd => collects d (List.mem_append_left _ hd)) .stop nofun
      · exact absurd (collects _ (List.mem_append_right _ List.mem_cons_self)) id

/-- The words of a call that answers a span. -/
theorem Round.of_span {o : Except Fault (Option Span)} (h : Round o.toOption.join ds) {c : Call}
    (same : ∀ span, c.span (.ok (.span span)) = span) : Round (c.span (o.map .span)) ds := by
  cases o with
  | error e => exact (c.span_error e).symm ▸ h
  | ok span => exact (same span).symm ▸ h

/-- The words of a call that answers an address. -/
theorem Round.of_address {o : Except Fault (Option Nat)} {words : Nat}
    (h : Round (o.toOption.join.map fun start => { start, words }) ds) {c : Call}
    (same : ∀ first, c.span (.ok (.address first)) = first.map fun start => { start, words }) :
    Round (c.span (o.map .address)) ds := by
  cases o with
  | error e => exact (c.span_error e).symm ▸ h
  | ok first => exact (same first).symm ▸ h

/-- On a call that retires in its own way, an arena of a collection does one round. -/
theorem Course.round {c : Call} {o : Except Fault Answer} (h : a.Course c o ds)
    (kind : a.kind = .collector purpose) (counted : c.counted = true)
    (collects : ∀ d ∈ ds, d.Collects) : Round (c.span o) ds := by
  have counts : a.counts = true := by simp [Arena.counts, kind]
  cases h with
  | start h =>
      cases h with
      | fault e => exact .idle
      | started => exact .fresh (.start _)
  | startPlain h =>
      cases h with
      | fault e => exact .idle
      | started => exact .fresh (.start _)
  | retire h =>
      cases h with
      | fault e => exact .idle
      | @retired waste _ h =>
          obtain rfl | ⟨i, rfl⟩ := h.cases_giveUp collects
          · exact .idle
          · exact counts ▸ .giveUp i _ waste
  | @release o _ h =>
      have none : Call.release.span (o.map Answer.place) = Option.none := by
        cases o <;> rfl
      rw [none]
      exact (counts ▸ h).round collects
  | retirePlain | releasePlain => cases counted
  | allocate h =>
      cases h with
      | fault | refused => exact .idle
      | outrun i => exact absurd (collects _ List.mem_cons_self) id
      | served i span least most =>
          have exactly : span.words = _ := Nat.le_antisymm most least
          exact exactly ▸ .claim i span
  | claim h => exact (h.round collects).of_span fun _ => rfl
  | claimRetained h => exact (h.round collects).of_span fun _ => rfl
  | claimLocked h => exact (h.round collects).of_span fun _ => rfl
  | claimFresh h => exact ((counts ▸ h).round collects).of_span fun _ => rfl
  | claimLocked_fresh h h' =>
      cases h with
      | refused => exact ((counts ▸ h').round collects).of_span fun _ => rfl
      | outrun i => exact absurd (collects _ List.mem_cons_self) id
  | claimForced h => exact h.round.of_address fun _ => rfl
  | install h => exact h.round.of_address fun _ => rfl
  | adopt h =>
      cases h with
      | fault => exact .idle
      | noted place e bytes => exact .fresh (.note bytes)
      | adopted i => exact .fresh (.adopt i)
  | held | summary => exact .idle

end Arena

end RegionHeap
