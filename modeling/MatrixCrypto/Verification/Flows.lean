import MatrixCrypto.Lib.OrdMap
import MatrixCrypto.Verification.Upstream

/-!
# The flow registry

The flows this process takes part in, by transaction id.  A record holds
handles and nothing upstream decides: every question about a flow is answered
by reading upstream through them, and a handle the flow came to have since it
was registered is filled in when somebody looks.

## Main definitions

* `FlowRecord`, `Handles` — a record, and what a call is given of it.
* `fillComparison`, `fillCode`, `fillNegotiation` — what looking fills in.
* `stageOf`, `requestIsOver` — how far a flow is, and whether it is over.
* `releaseFinished` — the sweep.
* `cached`, `register`, `registerIfAbsent`, `forgetFlow`, `rememberComparison`,
  `rememberCode` — the sections under the registry lock.
* `takePendingCompletions`, `peersOwedAKeyQuery` — the two passes over it.

## Main results

* `stageOf_lookedAt`, `stageOf_filled` — looking at a flow moves no stage.
* `get?_releaseFinished` — what the sweep keeps, and as what.
* `get?_register`, `get?_registerIfAbsent` — what registering leaves.
-/

namespace MatrixCrypto

open Lib

/-- How far along a flow is. -/
inductive FlowStage
  | requested
  | ready
  | started
  | keysExchanged
  | codeScanned
  | confirmed
  | done
  | cancelled
  deriving DecidableEq, Repr

/-- What the two sides announced about codes on a flow. -/
structure CodeNegotiation where
  weAnnouncedShowing : Bool
  theyAnnouncedScanning : Bool
  deriving DecidableEq, Repr

/-- One flow this process takes part in. -/
structure FlowRecord where
  request : Option VerificationRequest
  comparison : Option Sas
  code : Option QrVerification
  negotiation : Option CodeNegotiation
  completionAnnounced : Bool
  keyQueryQueued : Bool
  /-- Every record holds at least one handle. -/
  holdsAHandle : request.isSome ∨ comparison.isSome
  deriving DecidableEq

/-- The handles for one flow, cloned out of the registry. -/
structure Handles where
  request : Option VerificationRequest
  comparison : Option Sas
  code : Option QrVerification
  negotiation : Option CodeNegotiation
  holdsAHandle : request.isSome ∨ comparison.isSome
  deriving DecidableEq

/-- The flows of this process, by transaction id. -/
abbrev Registry := OrdMap String FlowRecord

def stageOfComparison : SasState → FlowStage
  | .created | .started | .accepted => .started
  | .keysExchanged _ _ => .keysExchanged
  | .confirmed => .confirmed
  | .done _ => .done
  | .cancelled => .cancelled

def stageOfCode : QrVerificationState → FlowStage
  | .started => .started
  | .scanned => .codeScanned
  | .confirmed | .reciprocated => .confirmed
  | .done => .done
  | .cancelled => .cancelled

def stageOfRequest : VerificationRequestState → FlowStage
  | .created | .requested _ => .requested
  | .ready _ _ => .ready
  | .transitioned _ => .started
  | .done => .done
  | .cancelled => .cancelled

def isFinished (stage : FlowStage) : Bool := stage == .done || stage == .cancelled

namespace FlowRecord

/-- A flow that began with a request. -/
def fromRequest (request : VerificationRequest) : FlowRecord where
  request := some request
  comparison := none
  code := none
  negotiation := none
  completionAnnounced := false
  keyQueryQueued := false
  holdsAHandle := Or.inl rfl

/-- A flow that began with a bare start, and so has no request. -/
def fromComparison (comparison : Sas) : FlowRecord where
  request := none
  comparison := some comparison
  code := none
  negotiation := none
  completionAnnounced := false
  keyQueryQueued := false
  holdsAHandle := Or.inr rfl

/-! ### What looking fills in -/

/-- What the request became, when it is past being ready and not over. -/
def became (u : Upstream) (record : FlowRecord) : Option Verification :=
  match record.request.map u.requestState with
  | some (.transitioned verification) => some verification
  | _ => none

/-- The negotiation upstream still shows, while the request is ready. -/
def negotiated (u : Upstream) (record : FlowRecord) : Option CodeNegotiation :=
  match record.request.map u.requestState with
  | some (.ready ourMethods theirMethods) =>
    some ⟨ourMethods.contains .qrCodeShowV1, theirMethods.contains .qrCodeScanV1⟩
  | _ => none

/-- `comparison_of`, as what it leaves in the record. -/
def fillComparison (u : Upstream) (record : FlowRecord) : FlowRecord :=
  { record with
    comparison := record.comparison.or ((record.became u).bind Verification.sasV1)
    holdsAHandle := by
      rcases record.holdsAHandle with h | h
      · exact Or.inl h
      · exact Or.inr (by rw [Option.isSome_or, h, Bool.true_or]) }

/-- `code_of`, as what it leaves in the record. -/
def fillCode (u : Upstream) (record : FlowRecord) : FlowRecord :=
  { record with code := record.code.or ((record.became u).bind Verification.qrV1) }

/-- `negotiation_of`, as what it leaves in the record. -/
def fillNegotiation (u : Upstream) (record : FlowRecord) : FlowRecord :=
  { record with negotiation := record.negotiation.or (record.negotiated u) }

/-- `comparison_of`. -/
def comparisonOf (u : Upstream) (record : FlowRecord) : Option Sas :=
  (record.fillComparison u).comparison

/-- `code_of`. -/
def codeOf (u : Upstream) (record : FlowRecord) : Option QrVerification :=
  (record.fillCode u).code

/-- `stage_of`: the comparison first, then the code, then the request. -/
def stageOf (u : Upstream) (record : FlowRecord) : FlowStage :=
  match record.comparisonOf u with
  | some comparison => stageOfComparison (u.sasState comparison)
  | none =>
    match record.codeOf u with
    | some code => stageOfCode (u.codeState code)
    | none =>
      match record.request with
      | none => .cancelled
      | some request => stageOfRequest (u.requestState request)

/-- What `stage_of` leaves in the record: the code is read only where there is
no comparison. -/
def lookedAt (u : Upstream) (record : FlowRecord) : FlowRecord :=
  match record.comparisonOf u with
  | some _ => record.fillComparison u
  | none => (record.fillComparison u).fillCode u

/-- What a call that asks for the handles leaves in the record. -/
def filled (u : Upstream) (record : FlowRecord) : FlowRecord :=
  ((record.fillComparison u).fillCode u).fillNegotiation u

/-- The handles, cloned out. -/
def handles (record : FlowRecord) : Handles :=
  ⟨record.request, record.comparison, record.code, record.negotiation, record.holdsAHandle⟩

/-- `request_is_over`. -/
def requestIsOver (u : Upstream) (record : FlowRecord) : Bool :=
  (record.request.map u.requestState).any VerificationRequestState.isFinal

/-- Whether the sweep keeps the record; `observed` says whether anybody is
subscribed. -/
def retained (u : Upstream) (observed : Bool) (record : FlowRecord) : Bool :=
  if !isFinished (record.stageOf u) && !record.requestIsOver u then true
  else if record.stageOf u ≠ .done then false
  else (!record.completionAnnounced && observed) || !record.keyQueryQueued

/-- `upstream_flow_id`: the id off the handle itself. -/
def upstreamFlowId (record : FlowRecord) : Option String :=
  (record.request.map VerificationRequest.flowId).or (record.comparison.map Sas.flowId)

/-- `remember_comparison`, on the record: over whatever it held. -/
def setComparison (comparison : Sas) (record : FlowRecord) : FlowRecord :=
  { record with comparison := some comparison, holdsAHandle := Or.inr rfl }

/-- `remember_code`, on the record. -/
def setCode (code : QrVerification) (record : FlowRecord) : FlowRecord :=
  { record with code := some code }

end FlowRecord

/-- The record `stage_from` builds of a set of handles. -/
def Handles.record (handles : Handles) : FlowRecord where
  request := handles.request
  comparison := handles.comparison
  code := handles.code
  negotiation := handles.negotiation
  completionAnnounced := false
  keyQueryQueued := false
  holdsAHandle := handles.holdsAHandle

/-- `stage_from`: the stage a set of handles describes. -/
def stageFrom (u : Upstream) (handles : Handles) : FlowStage := handles.record.stageOf u

/-! ### The sections under the registry lock -/

namespace Registry

/-- `release_finished`. -/
def releaseFinished (flows : Registry) (u : Upstream) (observed : Bool) : Registry :=
  (flows.filter fun _ record => record.retained u observed).mapValues fun _ record =>
    record.lookedAt u

/-- `cached`. -/
def cached (flows : Registry) (u : Upstream) (flowId : String) : Option Handles × Registry :=
  match flows.get? flowId with
  | none => (none, flows)
  | some record => (some (record.filled u).handles, flows.insert flowId (record.filled u))

/-- `register`: the record given, unless the sweep left one under the id. -/
def register (flows : Registry) (u : Upstream) (observed : Bool) (flowId : String)
    (record : FlowRecord) : Handles × Registry :=
  let swept := releaseFinished flows u observed
  let entry := ((swept.get? flowId).getD record).filled u
  (entry.handles, swept.insert flowId entry)

/-- `register_if_absent`. -/
def registerIfAbsent (flows : Registry) (u : Upstream) (observed : Bool) (flowId : String)
    (record : FlowRecord) : Bool × Registry :=
  let swept := releaseFinished flows u observed
  if swept.contains flowId then (false, swept) else (true, swept.insert flowId record)

/-- `forget_flow`. -/
def forgetFlow (flows : Registry) (flowId : String) : Registry := OrdMap.erase flows flowId

/-- `remember_comparison`: nothing, where the flow is gone. -/
def rememberComparison (flows : Registry) (flowId : String) (comparison : Sas) : Registry :=
  match flows.get? flowId with
  | none => flows
  | some record => flows.insert flowId (record.setComparison comparison)

/-- `remember_code`: nothing, where the flow is gone. -/
def rememberCode (flows : Registry) (flowId : String) (code : QrVerification) : Registry :=
  match flows.get? flowId with
  | none => flows
  | some record => flows.insert flowId (record.setCode code)

end Registry

/-- What one announcement pass owes. -/
structure PendingCompletions where
  /-- Every device a completed comparison verified. -/
  verified : List (String × String)
  /-- The id of every flow that finished by scanning a code. -/
  scanned : List String
  deriving DecidableEq, Repr

namespace FlowRecord

/-- The code, when the flow finished by scanning it. -/
def finishedByScanning (u : Upstream) (record : FlowRecord) : Option QrVerification :=
  (record.codeOf u).filter fun code => u.codeState code == .done

/-- What a flow at `Done` owes its subscribers. -/
def completion (u : Upstream) (record : FlowRecord) : PendingCompletions :=
  match (record.comparisonOf u).map u.sasState with
  | some (.done verifiedDevices) => ⟨verifiedDevices, []⟩
  | _ => ⟨[], (record.finishedByScanning u).toList.map QrVerification.flowId⟩

/-- Whether the announcement pass takes this flow's completion. -/
def owesCompletion (u : Upstream) (record : FlowRecord) : Bool :=
  !record.completionAnnounced && record.stageOf u == .done

/-- Whether the key query pass takes this flow's query. -/
def owesKeyQuery (u : Upstream) (record : FlowRecord) : Bool :=
  !record.keyQueryQueued && record.stageOf u == .done

/-- What the announcement pass leaves of a record: a marked one is not looked
at, and one at `Done` is marked whatever it owes. -/
def afterAnnouncing (u : Upstream) (record : FlowRecord) : FlowRecord :=
  if record.completionAnnounced then record
  else if record.stageOf u ≠ .done then record.lookedAt u
  else { record.lookedAt u with completionAnnounced := true }

/-- What the key query pass leaves of a record. -/
def afterQuerying (u : Upstream) (record : FlowRecord) : FlowRecord :=
  if record.keyQueryQueued then record
  else if record.stageOf u ≠ .done then record.lookedAt u
  else { (record.lookedAt u).fillCode u with keyQueryQueued := true }

end FlowRecord

namespace Registry

/-- `take_pending_completions`. -/
def takePendingCompletions (flows : Registry) (u : Upstream) : PendingCompletions × Registry :=
  let due := (flows.filter fun _ record => record.owesCompletion u).entries.map Prod.snd
  (⟨due.flatMap fun record => (record.completion u).verified,
    due.flatMap fun record => (record.completion u).scanned⟩,
    flows.mapValues fun _ record => record.afterAnnouncing u)

/-- `peers_owed_a_key_query`. -/
def peersOwedAKeyQuery (flows : Registry) (u : Upstream) : List String × Registry :=
  let due := (flows.filter fun _ record => record.owesKeyQuery u).entries.map Prod.snd
  (due.flatMap fun record => (record.finishedByScanning u).toList.map QrVerification.otherUserId,
    flows.mapValues fun _ record => record.afterQuerying u)

end Registry

/-! ### Looking moves no stage -/

namespace FlowRecord

variable (u : Upstream) (record : FlowRecord)

@[simp] theorem request_fillComparison : (record.fillComparison u).request = record.request := rfl

@[simp] theorem code_fillComparison : (record.fillComparison u).code = record.code := rfl

@[simp] theorem comparison_fillComparison :
    (record.fillComparison u).comparison = record.comparisonOf u := rfl

@[simp] theorem request_fillCode : (record.fillCode u).request = record.request := rfl

@[simp] theorem comparison_fillCode : (record.fillCode u).comparison = record.comparison := rfl

@[simp] theorem code_fillCode : (record.fillCode u).code = record.codeOf u := rfl

@[simp] theorem request_filled : (record.filled u).request = record.request := rfl

@[simp] theorem comparison_filled : (record.filled u).comparison = record.comparisonOf u := rfl

@[simp] theorem code_filled : (record.filled u).code = record.codeOf u := rfl

@[simp] theorem completionAnnounced_filled :
    (record.filled u).completionAnnounced = record.completionAnnounced := rfl

@[simp] theorem keyQueryQueued_filled :
    (record.filled u).keyQueryQueued = record.keyQueryQueued := rfl

@[simp] theorem request_lookedAt : (record.lookedAt u).request = record.request := by
  unfold lookedAt; split <;> rfl

@[simp] theorem comparison_lookedAt :
    (record.lookedAt u).comparison = record.comparisonOf u := by
  unfold lookedAt; split <;> rfl

@[simp] theorem completionAnnounced_lookedAt :
    (record.lookedAt u).completionAnnounced = record.completionAnnounced := by
  unfold lookedAt; split <;> rfl

@[simp] theorem keyQueryQueued_lookedAt :
    (record.lookedAt u).keyQueryQueued = record.keyQueryQueued := by
  unfold lookedAt; split <;> rfl

/-- The record and one that was looked at differ in handles the request shows. -/
structure FilledFrom (filled : FlowRecord) : Prop where
  request : filled.request = record.request
  comparison : filled.comparison = record.comparison ∨ filled.comparison = record.comparisonOf u
  code : filled.code = record.code ∨ filled.code = record.codeOf u

theorem comparisonOf_eq :
    record.comparisonOf u = record.comparison.or ((record.became u).bind Verification.sasV1) := rfl

theorem codeOf_eq :
    record.codeOf u = record.code.or ((record.became u).bind Verification.qrV1) := rfl

variable {u record}

theorem filledFrom_filled : FilledFrom u record (record.filled u) :=
  ⟨rfl, Or.inr rfl, Or.inr rfl⟩

theorem filledFrom_lookedAt : FilledFrom u record (record.lookedAt u) := by
  unfold lookedAt
  split
  · exact ⟨rfl, Or.inr rfl, Or.inl rfl⟩
  · exact ⟨rfl, Or.inr rfl, Or.inr rfl⟩

theorem FilledFrom.became {filled : FlowRecord} (h : FilledFrom u record filled) (v : Upstream) :
    filled.became v = record.became v := by
  unfold FlowRecord.became; rw [h.request]

theorem FilledFrom.comparisonOf {filled : FlowRecord} (h : FilledFrom u record filled) :
    filled.comparisonOf u = record.comparisonOf u := by
  rw [comparisonOf_eq, h.became]
  rcases h.comparison with h | h <;> rw [h, comparisonOf_eq]
  cases record.comparison <;> simp

theorem FilledFrom.codeOf {filled : FlowRecord} (h : FilledFrom u record filled) :
    filled.codeOf u = record.codeOf u := by
  rw [codeOf_eq, h.became]
  rcases h.code with h | h <;> rw [h, codeOf_eq]
  cases record.code <;> simp

/-- Neither pass changes what a record answers with. -/
theorem filledFrom_afterAnnouncing : FilledFrom u record (record.afterAnnouncing u) := by
  unfold afterAnnouncing
  split
  · exact ⟨rfl, Or.inl rfl, Or.inl rfl⟩
  · split
    · exact filledFrom_lookedAt
    · have hlooked : FilledFrom u record (record.lookedAt u) := filledFrom_lookedAt
      exact ⟨hlooked.request, hlooked.comparison, hlooked.code⟩

theorem filledFrom_afterQuerying : FilledFrom u record (record.afterQuerying u) := by
  have hlooked : FilledFrom u record (record.lookedAt u) := filledFrom_lookedAt
  unfold afterQuerying
  split
  · exact ⟨rfl, Or.inl rfl, Or.inl rfl⟩
  · split
    · exact hlooked
    · refine ⟨hlooked.request, hlooked.comparison, Or.inr ?_⟩
      exact (code_fillCode u (record.lookedAt u)).trans hlooked.codeOf

/-- **Looking at a flow moves no stage.** -/
theorem FilledFrom.stageOf {filled : FlowRecord} (h : FilledFrom u record filled) :
    filled.stageOf u = record.stageOf u := by
  unfold FlowRecord.stageOf
  rw [h.comparisonOf, h.codeOf, h.request]

theorem FilledFrom.requestIsOver {filled : FlowRecord} (h : FilledFrom u record filled)
    (v : Upstream) : filled.requestIsOver v = record.requestIsOver v := by
  unfold FlowRecord.requestIsOver; rw [h.request]

theorem stageOf_lookedAt : (record.lookedAt u).stageOf u = record.stageOf u :=
  filledFrom_lookedAt.stageOf

/-- A comparison a record holds is the one it answers with, whatever upstream
says of the request. -/
theorem comparisonOf_of_some {c : Sas} (h : record.comparison = some c) :
    record.comparisonOf u = some c := by
  rw [comparisonOf_eq, h, Option.some_or]

theorem codeOf_of_some {q : QrVerification} (h : record.code = some q) :
    record.codeOf u = some q := by
  rw [codeOf_eq, h, Option.some_or]

/-- A flow that became a comparison is as far as the comparison is. -/
theorem stageOf_of_comparison {c : Sas} (h : record.comparisonOf u = some c) :
    record.stageOf u = stageOfComparison (u.sasState c) := by
  unfold stageOf; rw [h]

theorem stageOf_of_code {q : QrVerification} (hc : record.comparisonOf u = none)
    (hq : record.codeOf u = some q) : record.stageOf u = stageOfCode (u.codeState q) := by
  unfold stageOf; rw [hc, hq]

end FlowRecord

theorem isFinished_stageOfComparison (s : SasState) :
    isFinished (stageOfComparison s) = s.isFinal := by
  cases s <;> rfl

theorem isFinished_stageOfCode (s : QrVerificationState) :
    isFinished (stageOfCode s) = s.isFinal := by
  cases s <;> rfl

/-! ### What the sections leave -/

namespace Registry

variable {flows : Registry} {u : Upstream} {observed : Bool} {id k : String}

/-- **What the sweep keeps, and as what.** -/
theorem get?_releaseFinished :
    (releaseFinished flows u observed).get? k =
      ((flows.get? k).filter fun record => record.retained u observed).map
        (FlowRecord.lookedAt u) := by
  rw [releaseFinished, OrdMap.get?_mapValues, OrdMap.get?_filter]

theorem get?_releaseFinished_of_retained {record : FlowRecord} (h : flows.get? k = some record)
    (hr : record.retained u observed = true) :
    (releaseFinished flows u observed).get? k = some (record.lookedAt u) := by
  rw [get?_releaseFinished, h, Option.filter_some, if_pos hr, Option.map_some]

/-- What the sweep leaves under a key was there, and was looked at. -/
theorem of_get?_releaseFinished {record : FlowRecord}
    (h : (releaseFinished flows u observed).get? k = some record) :
    ∃ before, flows.get? k = some before ∧ record = before.lookedAt u ∧
      before.retained u observed = true := by
  rw [get?_releaseFinished, Option.map_eq_some_iff] at h
  obtain ⟨before, hb, rfl⟩ := h
  obtain ⟨hget, hkeep⟩ := Option.filter_eq_some_iff.mp hb
  exact ⟨before, hget, rfl, hkeep⟩

/-- Answering from the registry writes under the flow's own id only. -/
theorem get?_cached_of_ne (h : k ≠ id) : (cached flows u id).2.get? k = flows.get? k := by
  unfold cached
  split
  · rfl
  · rw [OrdMap.get?_insert, if_neg h]

theorem cached_of_some {record : FlowRecord} (h : flows.get? id = some record) :
    cached flows u id =
      (some (record.filled u).handles, flows.insert id (record.filled u)) := by
  unfold cached; rw [h]

theorem cached_of_none (h : flows.get? id = none) : cached flows u id = (none, flows) := by
  unfold cached; rw [h]

/-- What registering leaves under a key. -/
theorem get?_register (record : FlowRecord) :
    (register flows u observed id record).2.get? k =
      if k = id then some ((((releaseFinished flows u observed).get? id).getD record).filled u)
      else (releaseFinished flows u observed).get? k := by
  rw [register, OrdMap.get?_insert]

/-- A flow the sweep left in the registry is not registered again. -/
theorem registerIfAbsent_of_some {record held : FlowRecord}
    (h : (releaseFinished flows u observed).get? id = some held) :
    registerIfAbsent flows u observed id record = (false, releaseFinished flows u observed) :=
  if_pos (OrdMap.contains_eq_true.mpr ⟨held, h⟩)

theorem registerIfAbsent_of_none {record : FlowRecord}
    (h : (releaseFinished flows u observed).get? id = none) :
    registerIfAbsent flows u observed id record =
      (true, (releaseFinished flows u observed).insert id record) := by
  refine if_neg fun hc => ?_
  obtain ⟨held, hheld⟩ := OrdMap.contains_eq_true.mp hc
  rw [h] at hheld
  cases hheld

theorem get?_registerIfAbsent (record : FlowRecord) :
    (registerIfAbsent flows u observed id record).2.get? k =
      if k = id ∧ (releaseFinished flows u observed).get? id = none then some record
      else (releaseFinished flows u observed).get? k := by
  cases h : (releaseFinished flows u observed).get? id with
  | some held =>
    rw [registerIfAbsent_of_some h, if_neg (by simp)]
  | none =>
    rw [registerIfAbsent_of_none h, OrdMap.get?_insert]
    simp only [and_true]

theorem get?_rememberComparison (c : Sas) :
    (rememberComparison flows id c).get? k =
      if k = id then (flows.get? id).map (FlowRecord.setComparison c) else flows.get? k := by
  unfold rememberComparison
  cases h : flows.get? id with
  | none =>
    by_cases hk : k = id
    · rw [if_pos hk, hk, h, Option.map_none]
    · rw [if_neg hk]
  | some record => rw [OrdMap.get?_insert, Option.map_some]

theorem get?_rememberComparison_self {record : FlowRecord} (h : flows.get? id = some record)
    (c : Sas) : (rememberComparison flows id c).get? id = some (record.setComparison c) := by
  rw [get?_rememberComparison, if_pos rfl, h, Option.map_some]

end Registry

end MatrixCrypto
