import MatrixCrypto.Lib.Threads
import MatrixCrypto.Verification.Invitations
import MatrixCrypto.Verification.Kept

/-!
# What the flow registry keeps

Registering is what sweeps: right after it the registry holds flows that are not over, flows
at `Done` that a pass is yet to come to, and the flow just registered.

## Main definitions

* `FlowRecord.Live`, `FlowRecord.Unmarked` — the two grounds a sweep keeps a record on.
* `InviteCall.Registers` — the call is about to register a flow.
* `FlowRecord.Completed` — the record is at `Done`, and by what.

## Main results

* `retained_iff` — **what a sweep keeps.**
* `registers_next` — what a registration leaves under every key.
* `Completed.filledFrom`, `Completed.settled` — a completed record stays one.
-/

namespace MatrixCrypto

open Lib

namespace FlowRecord

variable {u v : Upstream} {observed : Bool} {record filled : FlowRecord}

/-! ### The two grounds -/

/-- Neither the flow nor its request is over. -/
structure Live (u : Upstream) (record : FlowRecord) : Prop where
  stage : isFinished (record.stageOf u) = false
  request : record.requestIsOver u = false

/-- The flow is at `Done`, and a pass is yet to come to it. -/
structure Unmarked (u : Upstream) (observed : Bool) (record : FlowRecord) : Prop where
  done : record.stageOf u = .done
  owed : (record.completionAnnounced = false ∧ observed = true) ∨ record.keyQueryQueued = false

/-- **What a sweep keeps.** -/
theorem retained_iff :
    record.retained u observed = true ↔ record.Live u ∨ record.Unmarked u observed := by
  unfold retained
  split
  · next h =>
    rw [Bool.and_eq_true, Bool.not_eq_true', Bool.not_eq_true'] at h
    exact ⟨fun _ => Or.inl ⟨h.1, h.2⟩, fun _ => rfl⟩
  · next h =>
    have hover : ¬ record.Live u := by
      intro hlive
      apply h
      rw [hlive.stage, hlive.request]
      rfl
    split
    · next hdone =>
      constructor
      · intro hfalse
        cases hfalse
      · intro hor
        rcases hor with hlive | hun
        · exact absurd hlive hover
        · exact absurd hun.done hdone
    · next hdone =>
      rw [not_not] at hdone
      constructor
      · intro howed
        refine Or.inr ⟨hdone, ?_⟩
        simpa [Bool.or_eq_true, Bool.and_eq_true] using howed
      · intro hor
        rcases hor with hlive | hun
        · exact absurd hlive hover
        · simpa [Bool.or_eq_true, Bool.and_eq_true] using hun.owed

/-- A record at `Done` that both passes marked is not kept. -/
theorem not_retained_of_marked (hdone : record.stageOf u = .done)
    (hannounced : record.completionAnnounced = true) (hqueried : record.keyQueryQueued = true) :
    record.retained u observed = false := by
  rw [Bool.eq_false_iff]
  intro hret
  rcases retained_iff.mp hret with hlive | hun
  · have hstage := hlive.stage
    rw [hdone] at hstage
    cases hstage
  · rcases hun.owed with ⟨h, -⟩ | h
    · rw [hannounced] at h
      cases h
    · rw [hqueried] at h
      cases h

/-- A cancelled flow is not kept, nor one whose request is over before it finished. -/
theorem not_retained_of_over (h : record.stageOf u = .cancelled ∨
    record.requestIsOver u = true ∧ record.stageOf u ≠ .done) :
    record.retained u observed = false := by
  rw [Bool.eq_false_iff]
  intro hret
  rcases retained_iff.mp hret with hlive | hun
  · rcases h with hcancelled | ⟨hover, -⟩
    · have hstage := hlive.stage
      rw [hcancelled] at hstage
      cases hstage
    · rw [hlive.request] at hover
      cases hover
  · rcases h with hcancelled | ⟨-, hne⟩
    · rw [hun.done] at hcancelled
      cases hcancelled
    · exact hne hun.done

/-- A record that was looked at is kept on the ground it was. -/
theorem FilledFrom.live (h : FilledFrom u record filled) (hlive : record.Live u) :
    filled.Live u := by
  constructor
  · rw [h.stageOf]
    exact hlive.stage
  · rw [h.requestIsOver]
    exact hlive.request

theorem FilledFrom.unmarked (h : FilledFrom u record filled)
    (hannounced : filled.completionAnnounced = record.completionAnnounced)
    (hqueried : filled.keyQueryQueued = record.keyQueryQueued) (hun : record.Unmarked u observed) :
    filled.Unmarked u observed := by
  constructor
  · rw [h.stageOf]
    exact hun.done
  · rw [hannounced, hqueried]
    exact hun.owed

/-! ### Completed records -/

/-- The record is at `Done`: by the comparison it holds, failing that by the code it holds, or
by its request where it holds neither. -/
inductive Completed (u : Upstream) (record : FlowRecord) : Prop
  | comparison {c : Sas} {devices : List (String × String)} (hc : record.comparison = some c)
      (h : u.sasState c = .done devices)
  | code {q : QrVerification} (hc : record.comparisonOf u = none) (hq : record.code = some q)
      (h : u.codeState q = .done)
  | request {r : VerificationRequest} (hc : record.comparison = none) (hq : record.code = none)
      (hr : record.request = some r) (h : u.requestState r = .done)

theorem became_of_done {r : VerificationRequest} (hr : record.request = some r)
    (h : u.requestState r = .done) : record.became u = none := by
  unfold became
  rw [hr, Option.map_some, h]

theorem comparisonOf_of_done {r : VerificationRequest} (hc : record.comparison = none)
    (hr : record.request = some r) (h : u.requestState r = .done) :
    record.comparisonOf u = none := by
  rw [comparisonOf_eq, hc, became_of_done hr h]
  rfl

theorem codeOf_of_done {r : VerificationRequest} (hq : record.code = none)
    (hr : record.request = some r) (h : u.requestState r = .done) : record.codeOf u = none := by
  rw [codeOf_eq, hq, became_of_done hr h]
  rfl

theorem Completed.stageOf (h : record.Completed u) : record.stageOf u = .done := by
  cases h with
  | comparison hc hs => rw [stageOf_of_comparison (comparisonOf_of_some hc), hs]; rfl
  | code hc hq hs => rw [stageOf_of_code hc (codeOf_of_some hq), hs]; rfl
  | request hc hq hr hs =>
    unfold FlowRecord.stageOf
    rw [comparisonOf_of_done hc hr hs, codeOf_of_done hq hr hs, hr]
    simp only [hs, stageOfRequest]

/-- What a sweep left at `Done` is completed: the sweep has filled in what there was. -/
theorem completed_of_lookedAt (h : record.stageOf u = .done) :
    (record.lookedAt u).Completed u := by
  unfold lookedAt
  unfold stageOf at h
  cases hc : record.comparisonOf u with
  | some c =>
    rw [hc] at h
    cases hs : u.sasState c with
    | done devices => exact .comparison hc hs
    | _ => simp [stageOfComparison, hs] at h
  | none =>
    -- filling finds no comparison that the record did not answer with
    have hnone : ((record.fillComparison u).fillCode u).comparisonOf u = none := by
      have hfilled : FilledFrom u record ((record.fillComparison u).fillCode u) :=
        ⟨rfl, Or.inr rfl, Or.inr rfl⟩
      rw [hfilled.comparisonOf, hc]
    cases hq : record.codeOf u with
    | some q =>
      rw [hc, hq] at h
      cases hs : u.codeState q with
      | done => exact .code hnone hq hs
      | _ => simp [stageOfCode, hs] at h
    | none =>
      cases hr : record.request with
      | none =>
        rw [hc, hq, hr] at h
        cases h
      | some r =>
        rw [hc, hq, hr] at h
        cases hs : u.requestState r with
        | done => exact .request hc hq hr hs
        | _ => simp [stageOfRequest, hs] at h

/-- Looking at a completed record leaves it completed. -/
theorem Completed.filledFrom (h : record.Completed u) (hf : FilledFrom u record filled) :
    filled.Completed u := by
  cases h with
  | @comparison c devices hc hs =>
    refine .comparison (c := c) ?_ hs
    rcases hf.comparison with heq | heq
    · rw [heq, hc]
    · rw [heq, comparisonOf_of_some hc]
  | @code q hc hq hs =>
    refine .code (q := q) ?_ ?_ hs
    · rw [hf.comparisonOf, hc]
    · rcases hf.code with heq | heq
      · rw [heq, hq]
      · rw [heq, codeOf_of_some hq]
  | @request r hc hq hr hs =>
    refine .request (r := r) ?_ ?_ ?_ hs
    · rcases hf.comparison with heq | heq
      · rw [heq, hc]
      · rw [heq, comparisonOf_of_done hc hr hs]
    · rcases hf.code with heq | heq
      · rw [heq, hq]
      · rw [heq, codeOf_of_done hq hr hs]
    · rw [hf.request, hr]

end FlowRecord

/-- Nothing moved out of a final state. -/
structure Upstream.Settles (u v : Upstream) : Prop where
  sas : ∀ c, (u.sasState c).isFinal = true → v.sasState c = u.sasState c
  code : ∀ q, (u.codeState q).isFinal = true → v.codeState q = u.codeState q
  request : ∀ r, (u.requestState r).isFinal = true → v.requestState r = u.requestState r

/-- A completed record stays completed, whatever upstream goes on to, unless its request comes
to carry a comparison where a code had finished. -/
theorem FlowRecord.Completed.settled {u v : Upstream} {record : FlowRecord}
    (h : record.Completed u) (huv : u.Settles v)
    (hcarries : record.comparisonOf u = none → record.comparisonOf v = none) :
    record.Completed v := by
  cases h with
  | @comparison c devices hc hs =>
    have hstays : v.sasState c = .done devices := by rw [huv.sas c (by rw [hs]; rfl), hs]
    exact .comparison hc hstays
  | code hc hq hs =>
    refine .code (hcarries hc) hq ?_
    rw [huv.code _ (by rw [hs]; rfl), hs]
  | request hc hq hr hs =>
    refine .request hc hq hr ?_
    rw [huv.request _ (by rw [hs]; rfl), hs]

/-! ### Registering -/

/-- The call is about to register the record under the id. -/
inductive InviteCall.Registers : InviteCall → String → FlowRecord → Prop
  | opened (r : VerificationRequest) : Registers (.opened r) r.flowId (.fromRequest r)
  | announced (c : Candidate) (left : List VerificationRequest)
      (starts signals : List (String × String)) :
      Registers (.registering c left starts signals) c.flowId c.record
  | adopted (f flowId : String) (record : FlowRecord) :
      Registers (.finding f (.adopting flowId record)) flowId record

namespace Registry

variable {flows : Registry} {u : Upstream} {observed : Bool} {id k : String}
  {given record : FlowRecord}

/-- What a registration may leave under a key: what was there, if the sweep keeps it, or the
record given, under its id. -/
inductive LeftBy (flows : Registry) (u : Upstream) (observed : Bool) (id : String)
    (given : FlowRecord) (k : String) (record : FlowRecord) : Prop
  | swept {before : FlowRecord} (hget : flows.get? k = some before)
      (hret : before.retained u observed = true)
      (hfilled : FlowRecord.FilledFrom u (before.lookedAt u) record)
      (hannounced : record.completionAnnounced = before.completionAnnounced)
      (hqueried : record.keyQueryQueued = before.keyQueryQueued)
  | given (hk : k = id) (hgone : (releaseFinished flows u observed).get? id = none)
      (hfilled : record = given ∨ record = given.filled u)

theorem leftBy_of_releaseFinished (h : (releaseFinished flows u observed).get? k = some record) :
    LeftBy flows u observed id given k record := by
  obtain ⟨before, hget, rfl, hret⟩ := of_get?_releaseFinished h
  exact .swept hget hret ⟨rfl, Or.inl rfl, Or.inl rfl⟩
    (FlowRecord.completionAnnounced_lookedAt u before) (FlowRecord.keyQueryQueued_lookedAt u before)

theorem leftBy_register (h : (register flows u observed id given).2.get? k = some record) :
    LeftBy flows u observed id given k record := by
  rw [get?_register] at h
  split at h
  · next hk =>
    subst hk
    obtain rfl := Option.some.inj h
    cases hswept : (releaseFinished flows u observed).get? k with
    | none => exact .given rfl hswept (Or.inr rfl)
    | some kept =>
      obtain ⟨before, hget, rfl, hret⟩ := of_get?_releaseFinished hswept
      rw [Option.getD_some]
      refine .swept hget hret FlowRecord.filledFrom_filled ?_ ?_
      · rw [FlowRecord.completionAnnounced_filled, FlowRecord.completionAnnounced_lookedAt]
      · rw [FlowRecord.keyQueryQueued_filled, FlowRecord.keyQueryQueued_lookedAt]
  · exact leftBy_of_releaseFinished h

theorem leftBy_registerIfAbsent
    (h : (registerIfAbsent flows u observed id given).2.get? k = some record) :
    LeftBy flows u observed id given k record := by
  rw [get?_registerIfAbsent] at h
  split at h
  · next hk =>
    obtain rfl := Option.some.inj h
    exact .given hk.1 hk.2 (Or.inl rfl)
  · exact leftBy_of_releaseFinished h

/-- A registration keeps what its sweep keeps, wherever it stands. -/
theorem exists_leftBy_register {before : FlowRecord} (hget : flows.get? k = some before)
    (hret : before.retained u observed = true) :
    ∃ record, (register flows u observed id given).2.get? k = some record := by
  rw [get?_register]
  split
  · exact ⟨_, rfl⟩
  · exact ⟨_, get?_releaseFinished_of_retained hget hret⟩

theorem exists_leftBy_registerIfAbsent {before : FlowRecord} (hget : flows.get? k = some before)
    (hret : before.retained u observed = true) :
    ∃ record, (registerIfAbsent flows u observed id given).2.get? k = some record := by
  rw [get?_registerIfAbsent]
  split
  · exact ⟨_, rfl⟩
  · exact ⟨_, get?_releaseFinished_of_retained hget hret⟩

end Registry

/-- **What a registration leaves under every key**, as upstream and the observer are then. -/
theorem registers_next {s t : InviteState} {c : InviteCall}
    {r : InviteCall ⊕ Except MachineError Unit} {id : String} {given : FlowRecord}
    (hc : c.Registers id given) (h : InviteNext s c t r) :
    t.flow.upstream = s.flow.upstream ∧ t.flow.observed = s.flow.observed ∧
      (∀ k record, t.flow.flows.get? k = some record →
        s.flow.flows.LeftBy s.flow.upstream s.flow.observed id given k record) ∧
      ∀ k before, s.flow.flows.get? k = some before →
        before.retained s.flow.upstream s.flow.observed = true →
          ∃ record, t.flow.flows.get? k = some record := by
  cases hc with
  | opened request =>
    cases h with
    | registers =>
      exact ⟨rfl, rfl, fun k record hget => Registry.leftBy_register hget,
        fun k before hget hret => Registry.exists_leftBy_register hget hret⟩
  | announced c left starts signals =>
    cases h with
    | registersNew =>
      exact ⟨rfl, rfl, fun k record hget => Registry.leftBy_registerIfAbsent hget,
        fun k before hget hret => Registry.exists_leftBy_registerIfAbsent hget hret⟩
  | adopted f flowId record =>
    cases h with
    | finds hl => cases hl
    | findsNone hl => cases hl
    | found hl =>
      cases hl with
      | register =>
        exact ⟨rfl, rfl, fun k record hget => Registry.leftBy_register hget,
          fun k before hget hret => Registry.exists_leftBy_register hget hret⟩

end MatrixCrypto
