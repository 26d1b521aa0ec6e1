import MatrixCrypto.Lib.Sections
import MatrixCrypto.Session.Registry
import MatrixCrypto.Verification.Lookup

/-!
# Completions and sweeps

What a finished flow owes: one announcement of its completion and, when it
finished by scanning another user's code, one key query about that user.  Both
are collected by passes over the registry at the end of a sync, and any call
that registers another flow sweeps the registry in between.

## Main definitions

* `Verification.stage`, `FlowRecord.Shows` — how far the comparison or code of a
  flow is, and that a record answers with it.
* `completionsDue`, `queriesDue` — what the two passes take, by flow.
* `UpstreamMove` — one move of one object.
* `CompletionCall`, `CompletionNext`, `completing` — syncs and the calls that
  register other flows, section by section.

## Main results

* `takePendingCompletions_eq`, `peersOwedAKeyQuery_eq` — the passes take what is
  due.
* `filter_completionsDue`, `count_queriesDue` — what is due of one flow.
-/

namespace MatrixCrypto

open Lib

/-! ### How far a flow's comparison or code is -/

/-- The stage of a comparison or of a code. -/
def Verification.stage (u : Upstream) : Verification → FlowStage
  | sas c => stageOfComparison (u.sasState c)
  | qr q => stageOfCode (u.codeState q)

theorem stageOfCode_eq_done {s : QrVerificationState} (h : stageOfCode s = .done) : s = .done := by
  cases s with
  | done => rfl
  | _ => cases h

/-- What a comparison or a code at `Done` owes its subscribers. -/
def Verification.completion (u : Upstream) : Verification → PendingCompletions
  | sas c =>
    match u.sasState c with
    | .done verifiedDevices => ⟨verifiedDevices, []⟩
    | _ => ⟨[], []⟩
  | qr q => ⟨[], [q.flowId]⟩

namespace FlowRecord

/-- The record answers with the comparison or the code. -/
def Shows (u : Upstream) (v : Verification) (record : FlowRecord) : Prop :=
  match v with
  | .sas c => record.comparisonOf u = some c
  | .qr q => record.comparisonOf u = none ∧ record.codeOf u = some q

/-- The record has stored the comparison or the code: it answers with it whatever
becomes of the request. -/
def Holds (v : Verification) (record : FlowRecord) : Prop :=
  match v with
  | .sas c => record.comparison = some c
  | .qr q => record.comparison = none ∧ record.code = some q

variable {u : Upstream} {v : Verification} {record filled : FlowRecord}

theorem Shows.stageOf (h : record.Shows u v) : record.stageOf u = v.stage u := by
  cases v with
  | sas c => exact stageOf_of_comparison h
  | qr q => exact stageOf_of_code h.1 h.2

theorem Shows.filledFrom (h : record.Shows u v) (hf : FilledFrom u record filled) :
    filled.Shows u v := by
  cases v with
  | sas c => exact hf.comparisonOf.trans h
  | qr q => exact ⟨hf.comparisonOf.trans h.1, hf.codeOf.trans h.2⟩

/-- What a finished flow owes is read off its comparison or its code. -/
theorem Shows.completion (h : record.Shows u v) (hdone : v.stage u = .done) :
    record.completion u = v.completion u := by
  unfold FlowRecord.completion
  cases v with
  | sas c =>
    have hc : record.comparisonOf u = some c := h
    rw [hc, Option.map_some]
    have hstage : stageOfComparison (u.sasState c) = .done := hdone
    unfold Verification.completion
    cases hs : u.sasState c with
    | done devices => simp only [hs]
    | _ => rw [hs] at hstage; cases hstage
  | qr q =>
    have hq : u.codeState q = .done := stageOfCode_eq_done hdone
    rw [h.1, Option.map_none, finishedByScanning, h.2]
    simp [Verification.completion, hq]

/-- A flow that finished by scanning. -/
theorem Shows.finishedByScanning {q : QrVerification} (h : record.Shows u (.qr q))
    (hdone : (Verification.qr q).stage u = .done) : record.finishedByScanning u = some q := by
  have hq : u.codeState q = .done := stageOfCode_eq_done hdone
  rw [FlowRecord.finishedByScanning, h.2]
  simp [hq]

end FlowRecord

/-! ### What the passes take -/

namespace Registry

/-- What the announcement pass takes, by flow. -/
def completionsDue (flows : Registry) (u : Upstream) : List (String × PendingCompletions) :=
  (flows.filter fun _ record => record.owesCompletion u).entries.map fun e =>
    (e.1, e.2.completion u)

/-- Whom the key query pass finds a query owed about, by flow. -/
def queriesDue (flows : Registry) (u : Upstream) : List (String × String) :=
  (flows.filter fun _ record => record.owesKeyQuery u).entries.flatMap fun e =>
    (e.2.finishedByScanning u).toList.map fun code => (e.1, code.otherUserId)

/-- **The announcement pass takes what is due**, flow by flow. -/
theorem takePendingCompletions_eq (flows : Registry) (u : Upstream) :
    (takePendingCompletions flows u).1 =
      ⟨(completionsDue flows u).flatMap fun e => e.2.verified,
        (completionsDue flows u).flatMap fun e => e.2.scanned⟩ := by
  simp only [takePendingCompletions, completionsDue, List.flatMap_map]

/-- **The key query pass takes what is due**, flow by flow. -/
theorem peersOwedAKeyQuery_eq (flows : Registry) (u : Upstream) :
    (peersOwedAKeyQuery flows u).1 = (queriesDue flows u).map Prod.snd := by
  simp only [peersOwedAKeyQuery, queriesDue, List.flatMap_map, List.map_flatMap, List.map_map]
  rfl

variable {flows : Registry} {u : Upstream} {k : String}

/-- What is due of one flow. -/
theorem filter_completionsDue :
    (completionsDue flows u).filter (fun e => decide (e.1 = k)) =
      ((flows.get? k).filter fun record => record.owesCompletion u).toList.map fun record =>
        (k, record.completion u) := by
  have hfilter := (flows.filter fun _ record => record.owesCompletion u).filter_entries_key k
  rw [OrdMap.get?_filter] at hfilter
  rw [completionsDue, List.filter_map]
  show ((flows.filter fun _ record => record.owesCompletion u).entries.filter fun e =>
    decide (e.1 = k)).map _ = _
  rw [hfilter, List.map_map]
  rfl

/-- Whom a query is owed about for one flow. -/
theorem filter_queriesDue :
    (queriesDue flows u).filter (fun e => decide (e.1 = k)) =
      ((flows.get? k).filter fun record => record.owesKeyQuery u).toList.flatMap fun record =>
        (record.finishedByScanning u).toList.map fun code => (k, code.otherUserId) := by
  have hfilter := (flows.filter fun _ record => record.owesKeyQuery u).filter_entries_key k
  rw [OrdMap.get?_filter] at hfilter
  -- the queries of a list that are of one flow are the queries of that flow's entries
  have hsplit : ∀ l : List (String × FlowRecord),
      (l.flatMap fun e => (e.2.finishedByScanning u).toList.map fun code =>
          (e.1, code.otherUserId)).filter (fun e => decide (e.1 = k)) =
        (l.filter fun e => decide (e.1 = k)).flatMap fun e =>
          (e.2.finishedByScanning u).toList.map fun code => (e.1, code.otherUserId) := by
    intro l
    induction l with
    | nil => rfl
    | cons e l ih =>
      rw [List.flatMap_cons, List.filter_append, ih]
      by_cases he : e.1 = k
      · rw [List.filter_cons_of_pos (by simpa using he), List.flatMap_cons]
        congr 1
        rw [List.filter_eq_self]
        intro x hx
        obtain ⟨code, -, rfl⟩ := List.mem_map.mp hx
        simpa using he
      · rw [List.filter_cons_of_neg (by simpa using he)]
        have hnone : ((e.2.finishedByScanning u).toList.map fun code =>
            (e.1, code.otherUserId)).filter (fun e => decide (e.1 = k)) = [] := by
          rw [List.filter_eq_nil_iff]
          intro x hx
          obtain ⟨code, -, rfl⟩ := List.mem_map.mp hx
          simpa using he
        rw [hnone, List.nil_append]
  rw [queriesDue, hsplit, hfilter, List.flatMap_map]

end Registry

/-! ### One move of upstream -/

/-- One move of one object. -/
inductive UpstreamMove
  | request (r : VerificationRequest) (state : VerificationRequestState)
  | sas (c : Sas) (state : SasState)
  | code (q : QrVerification) (state : QrVerificationState)

namespace UpstreamMove

/-- Nothing moves out of a final state. -/
def Allowed (u : Upstream) : UpstreamMove → Prop
  | request r _ => (u.requestState r).isFinal = false
  | sas c _ => (u.sasState c).isFinal = false
  | code q _ => (u.codeState q).isFinal = false

/-- What the move leaves. -/
def apply (u : Upstream) : UpstreamMove → Upstream
  | request r state => u.setRequest r state
  | sas c state => u.setSas c state
  | code q state => u.setCode q state

/-- The move brings a comparison or a code to `Done`. -/
def finishes : UpstreamMove → Bool
  | sas _ (.done _) | code _ .done => true
  | _ => false

theorem Allowed.advance {u : Upstream} {m : UpstreamMove} (h : m.Allowed u) :
    u.Advance (m.apply u) := by
  cases m with
  | request r state => exact .request r state h
  | sas c state => exact .sas c state h
  | code q state => exact .code q state h

theorem userId_apply (u : Upstream) (m : UpstreamMove) : (m.apply u).userId = u.userId := by
  cases m <;> rfl

end UpstreamMove

/-! ### Syncs, and the calls that register other flows -/

/-- The registry and upstream, with what the passes took, by flow. -/
structure CompletionState where
  flow : FlowState
  /-- What the announcement passes took. -/
  taken : List (String × PendingCompletions)
  /-- The peer key queries that were queued: the flow and the user. -/
  asked : List (String × String)

/-- A call, between two of its sections. -/
inductive CompletionCall
  /-- `receive_sync_changes`, in upstream, which has these moves to make. -/
  | receiving (moves : List UpstreamMove)
  /-- `queue_peer_key_queries`, about to walk the registry. -/
  | querying
  /-- About to queue the queries that were owed. -/
  | asking (owed : List (String × String))
  /-- `announce_state_changes`, about to take the completions. -/
  | announcing
  /-- About to list the flows that may be new. -/
  | listing
  /-- About to register them, one by one. -/
  | candidates (found : List (String × FlowRecord))
  /-- A call on another flow, about to register it. -/
  | registering (flowId : String) (record : FlowRecord)
  /-- A call on any flow, about to ask the registry for it. -/
  | looking (flowId : String)

/-- The queries a sync queues: about everybody but the machine's own account. -/
def othersOwed (u : Upstream) (owed : List (String × String)) : List (String × String) :=
  owed.filter fun e => decide (e.2 ≠ u.userId)

/-- One section of a call; `k` is the flow no call registers. -/
inductive CompletionNext (k : String) (s : CompletionState) :
    CompletionCall → CompletionState → CompletionCall ⊕ Except SessionError Unit → Prop
  | moves {m : UpstreamMove} {rest : List UpstreamMove} (h : m.Allowed s.flow.upstream) :
      CompletionNext k s (.receiving (m :: rest))
        { s with flow := { s.flow with upstream := m.apply s.flow.upstream } }
        (.inl (.receiving rest))
  | received : CompletionNext k s (.receiving []) s (.inl .querying)
  | receiveFails {moves : List UpstreamMove} :
      CompletionNext k s (.receiving moves) s (.inr (.error .failed))
  | queries : CompletionNext k s .querying
      { s with flow := { s.flow with
        flows := (s.flow.flows.peersOwedAKeyQuery s.flow.upstream).2 } }
      (.inl (.asking (s.flow.flows.queriesDue s.flow.upstream)))
  | asks {owed : List (String × String)} {queries : List (String × KeysQueryRequest)}
      (h : queries.length = (othersOwed s.flow.upstream owed).length) :
      CompletionNext k s (.asking owed)
        { s with
          flow := { s.flow with
            requests := queries.foldl (fun requests query =>
              requests.queuePeerKeyQuery query.1 query.2) s.flow.requests }
          asked := s.asked ++ othersOwed s.flow.upstream owed }
        (.inl .announcing)
  | silent (h : s.flow.observed = false) : CompletionNext k s .announcing s (.inr (.ok ()))
  | announces (h : s.flow.observed = true) : CompletionNext k s .announcing
      { s with
        flow := { s.flow with
          flows := (s.flow.flows.takePendingCompletions s.flow.upstream).2 }
        taken := s.taken ++ s.flow.flows.completionsDue s.flow.upstream }
      (.inl .listing)
  | lists {found : List (String × FlowRecord)} (h : ∀ e ∈ found, e.1 ≠ k) :
      CompletionNext k s .listing s (.inl (.candidates found))
  | registersNew {e : String × FlowRecord} {rest : List (String × FlowRecord)} :
      CompletionNext k s (.candidates (e :: rest))
        { s with flow := { s.flow with flows :=
          (s.flow.flows.registerIfAbsent s.flow.upstream s.flow.observed e.1 e.2).2 } }
        (.inl (.candidates rest))
  | syncs : CompletionNext k s (.candidates []) s (.inr (.ok ()))
  | registers {flowId : String} {record : FlowRecord} :
      CompletionNext k s (.registering flowId record)
        { s with flow := { s.flow with flows :=
          (s.flow.flows.register s.flow.upstream s.flow.observed flowId record).2 } }
        (.inr (.ok ()))
  | looks {flowId : String} : CompletionNext k s (.looking flowId)
      { s with flow := { s.flow with flows := (s.flow.flows.cached s.flow.upstream flowId).2 } }
      (.inr (.ok ()))

/-- The calls that may begin: a sync, a call that looks a flow up, and one that
registers a flow other than `k`. -/
def CompletionCall.Begins (k : String) : CompletionCall → Prop
  | receiving _ | looking _ => True
  | registering flowId _ => flowId ≠ k
  | _ => False

/-- All interleavings.  Outside syncs upstream finishes no comparison and no
code. -/
def completing (k : String) :
    Calls CompletionState CompletionCall (Except SessionError Unit) UpstreamMove where
  start := fun _ call => call.Begins k
  next := CompletionNext k
  world := fun s m t => m.Allowed s.flow.upstream ∧ m.finishes = false ∧
    t = { s with flow := { s.flow with upstream := m.apply s.flow.upstream } }

end MatrixCrypto
