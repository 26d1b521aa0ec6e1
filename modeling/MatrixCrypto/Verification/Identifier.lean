import MatrixCrypto.Lib.Sections
import MatrixCrypto.Verification.Records

/-!
# What an identifier addresses

A product names a flow by its transaction id alone, and so does the registry.
Upstream keeps flows by user and transaction id, and a peer chooses the
transaction ids of the flows it opens.

## Main definitions

* `Candidate`, `announceable`, `bareStarts` — the inbound flows a pass announces.
* `IdentifierState` — the registry and upstream, with the flows upstream ever
  held and the identifiers handed out.
* `IdentifierCall`, `IdentifierNext`, `identifying` — opening a flow, the passes
  of a sync, and calls that take an identifier.
* `AddressesRight` — an identifier addresses the flow it was announced for.
* `Unshared` — upstream takes up no flow whose id another user's flow had.

## Main results

* `identified_stable` — what every call holds of the flow it is on.
* `addressesRight_of_unshared` — **while no two users share a transaction id, an
  identifier addresses its own flow.**
* `addresses_another` — a run in which two users do.
-/

namespace MatrixCrypto

open Lib

/-! ### Inbound flows -/

/-- An inbound flow a pass may announce, with the record it registers. -/
structure Candidate where
  flowId : String
  user : String
  deviceId : String
  record : FlowRecord

/-- The invitations of the tracked users that nobody has answered. -/
def announceable (u : Upstream) (tracked : List String) : List Candidate :=
  tracked.flatMap fun user => (u.getVerificationRequests user).filterMap fun request =>
    match u.requestState request with
    | .requested otherDeviceId =>
      some ⟨request.flowId, request.otherUser, otherDeviceId, .fromRequest request⟩
    | _ => none

/-- The comparison a start event of a sync began, where there is no request and
it is not over. -/
def bareStart (u : Upstream) (start : String × String) : Option Candidate :=
  match u.getVerificationRequest start.1 start.2 with
  | some _ => none
  | none =>
    match (u.getVerification start.1 start.2).bind Verification.sasV1 with
    | none => none
    | some comparison =>
      if isFinished ((FlowRecord.fromComparison comparison).stageOf u) then none
      else some ⟨comparison.flowId, comparison.otherUserId, comparison.otherDeviceId,
        .fromComparison comparison⟩

/-- The comparisons begun by the start events of a sync: of each, its sender and
transaction id. -/
def bareStarts (u : Upstream) (starts : List (String × String)) : List Candidate :=
  starts.filterMap (bareStart u)

/-- What a start event began is a comparison upstream holds for its sender. -/
theorem bareStart_eq_some {u : Upstream} {start : String × String} {c : Candidate}
    (h : bareStart u start = some c) :
    ∃ comparison, u.getVerification start.1 start.2 = some (.sas comparison) ∧
      c = ⟨comparison.flowId, comparison.otherUserId, comparison.otherDeviceId,
        .fromComparison comparison⟩ := by
  unfold bareStart at h
  split at h
  · cases h
  · split at h
    · cases h
    · next comparison hcomparison =>
      split at h
      · cases h
      · obtain ⟨v, hv, hsas⟩ := Option.bind_eq_some_iff.mp hcomparison
        cases v with
        | qr q => cases hsas
        | sas c' =>
          obtain rfl : c' = comparison := Option.some.inj hsas
          exact ⟨c', hv, (Option.some.inj h).symm⟩

/-! ### The state and the calls -/

/-- The registry and upstream; the flows upstream ever held, and the identifiers
that were handed out, each with its user. -/
structure IdentifierState where
  flow : FlowState
  known : List (String × String)
  handed : List (String × String)

/-- A call, between two of its sections. -/
inductive IdentifierCall
  /-- `request_flow` or `request_self_flow`, about to take the machine. -/
  | opening (user : String)
  /-- Upstream has built the request. -/
  | opened (request : VerificationRequest)
  /-- A sync, past upstream, with the start events it carried. -/
  | querying (starts : List (String × String))
  | taking (starts : List (String × String))
  | listing (starts : List (String × String))
  /-- Registering what is new; the signals so far. -/
  | registering (found : List Candidate) (signals : List (String × String))
  /-- Delivering the signals. -/
  | announcing (signals : List (String × String))
  /-- A call that takes an identifier, finding its flow. -/
  | finding (flowId : String) (l : Lookup)
  /-- It has the handles, and acts on them. -/
  | acting (flowId : String) (handles : Handles)
  /-- It was given a comparison or a code of the flow. -/
  | remembering (flowId : String) (v : Verification)

/-- Upstream keeps its flows by user and transaction id, and holds none but these. -/
structure Upstream.HoldsOnly (flows : List (String × String)) (u : Upstream) : Prop where
  coherent : u.Coherent
  request : ∀ user id r, u.getVerificationRequest user id = some r → (id, user) ∈ flows
  requests : ∀ user, ∀ r ∈ u.getVerificationRequests user, (r.flowId, user) ∈ flows
  verification : ∀ user id c, u.getVerification user id = some (.sas c) → (id, user) ∈ flows

/-- The flow of a comparison or a code. -/
def Verification.flow : Verification → String × String
  | sas c => (c.flowId, c.otherUserId)
  | qr q => (q.flowId, q.otherUserId)

/-- `remember_comparison` or `remember_code`. -/
def Registry.remember (flows : Registry) (flowId : String) : Verification → Registry
  | .sas c => flows.rememberComparison flowId c
  | .qr q => flows.rememberCode flowId q

/-- One section of a call. -/
inductive IdentifierNext (s : IdentifierState) :
    IdentifierCall → IdentifierState → IdentifierCall ⊕ Except MachineError Unit → Prop
  | refused {user : String} {e : MachineError} :
      IdentifierNext s (.opening user) s (.inr (.error e))
  | opens {user : String} {request : VerificationRequest} {u : Upstream}
      (hr : request.otherUser = user) (h : u.HoldsOnly (s.known ++ [(request.flowId, user)])) :
      IdentifierNext s (.opening user)
        { s with
          flow := { s.flow with upstream := u }
          known := s.known ++ [(request.flowId, user)] }
        (.inl (.opened request))
  | registers {request : VerificationRequest} : IdentifierNext s (.opened request)
      { s with
        flow := { s.flow with flows := (s.flow.flows.register s.flow.upstream s.flow.observed
          request.flowId (.fromRequest request)).2 }
        handed := s.handed ++ [(request.flowId, request.otherUser)] }
      (.inr (.ok ()))
  | queries {starts : List (String × String)} : IdentifierNext s (.querying starts)
      { s with flow := { s.flow with
        flows := (s.flow.flows.peersOwedAKeyQuery s.flow.upstream).2 } }
      (.inl (.taking starts))
  | silent {starts : List (String × String)} (h : s.flow.observed = false) :
      IdentifierNext s (.taking starts) s (.inr (.ok ()))
  | takes {starts : List (String × String)} (h : s.flow.observed = true) :
      IdentifierNext s (.taking starts)
        { s with flow := { s.flow with
          flows := (s.flow.flows.takePendingCompletions s.flow.upstream).2 } }
        (.inl (.listing starts))
  | lists {starts : List (String × String)} {tracked : List String}
      (ht : tracked.Perm s.flow.upstream.trackedUsers) :
      IdentifierNext s (.listing starts) s (.inl (.registering
        (announceable s.flow.upstream tracked ++ bareStarts s.flow.upstream starts) []))
  | registersNew {c : Candidate} {found : List Candidate} {signals : List (String × String)} :
      IdentifierNext s (.registering (c :: found) signals)
        { s with flow := { s.flow with flows := (s.flow.flows.registerIfAbsent s.flow.upstream
          s.flow.observed c.flowId c.record).2 } }
        (.inl (.registering found
          (if (s.flow.flows.registerIfAbsent s.flow.upstream s.flow.observed c.flowId c.record).1
            then signals ++ [(c.flowId, c.user)] else signals)))
  | registered {signals : List (String × String)} :
      IdentifierNext s (.registering [] signals) s (.inl (.announcing signals))
  | delivers {signal : String × String} {signals : List (String × String)}
      (h : s.flow.observed = true) :
      IdentifierNext s (.announcing (signal :: signals)) { s with handed := s.handed ++ [signal] }
        (.inl (.announcing signals))
  | forgets {signal : String × String} {signals : List (String × String)}
      (h : s.flow.observed = false) :
      IdentifierNext s (.announcing (signal :: signals))
        { s with flow := { s.flow with flows := s.flow.flows.forgetFlow signal.1 } }
        (.inl (.announcing signals))
  | announced : IdentifierNext s (.announcing []) s (.inr (.ok ()))
  | finds {flowId : String} {l l' : Lookup} {flow : FlowState}
      (h : LookupNext s.flow l flow (.inl l')) :
      IdentifierNext s (.finding flowId l) { s with flow := flow } (.inl (.finding flowId l'))
  | findsNone {flowId : String} {l : Lookup} {flow : FlowState} {e : MachineError}
      (h : LookupNext s.flow l flow (.inr (.error e))) :
      IdentifierNext s (.finding flowId l) { s with flow := flow } (.inr (.error e))
  | found {flowId : String} {l : Lookup} {flow : FlowState} {handles : Handles}
      (h : LookupNext s.flow l flow (.inr (.ok handles))) :
      IdentifierNext s (.finding flowId l) { s with flow := flow } (.inl (.acting flowId handles))
  | acts {flowId : String} {handles : Handles} {out : Except MachineError Unit} :
      IdentifierNext s (.acting flowId handles) s (.inr out)
  | becomes {flowId : String} {handles : Handles} {request : VerificationRequest}
      {v : Verification} (hr : handles.request = some request)
      (hv : v.flow = (request.flowId, request.otherUser)) :
      IdentifierNext s (.acting flowId handles) s (.inl (.remembering flowId v))
  | remembers {flowId : String} {v : Verification} : IdentifierNext s (.remembering flowId v)
      { s with flow := { s.flow with flows := s.flow.flows.remember flowId v } } (.inr (.ok ()))

/-- What happens outside the calls. -/
inductive IdentifierMove
  /-- Upstream moves, taking up the flows. -/
  | upstream (u : Upstream) (new : List (String × String))
  /-- Somebody subscribes to the signals, or nobody is subscribed any more. -/
  | observes (observed : Bool)

/-- The moves. -/
inductive IdentifierMoves (s : IdentifierState) : IdentifierMove → IdentifierState → Prop
  | upstream {u : Upstream} {new : List (String × String)} (h : u.HoldsOnly (s.known ++ new)) :
      IdentifierMoves s (.upstream u new)
        { s with flow := { s.flow with upstream := u }, known := s.known ++ new }
  | observes {observed : Bool} : IdentifierMoves s (.observes observed)
      { s with flow := { s.flow with observed := observed } }

/-- The calls that may begin. -/
def IdentifierCall.Begins : IdentifierCall → Prop
  | opening _ | querying _ => True
  | finding flowId l => l = .begins flowId
  | _ => False

/-- All interleavings. -/
def identifying : Calls IdentifierState IdentifierCall (Except MachineError Unit)
    IdentifierMove where
  start := fun _ call => call.Begins
  next := IdentifierNext
  world := IdentifierMoves

/-- A process at its start: no flow is registered, handed out or held. -/
structure IdentifierState.Starting (s : IdentifierState) : Prop where
  flows : s.flow.flows = OrdMap.empty
  known : s.known = []
  handed : s.handed = []
  holds : s.flow.upstream.HoldsOnly []

/-- What happens in one step. -/
abbrev IdentifierEvent := Event IdentifierCall (Except MachineError Unit) IdentifierMove

/-- The system of all interleavings, from the start of a process. -/
abbrev identifiers : TransitionSystem (Pool IdentifierState IdentifierCall) IdentifierEvent :=
  identifying.system IdentifierState.Starting

/-! ### Addressing -/

/-- Every handle of the record is of the flow. -/
structure FlowRecord.Is (id user : String) (record : FlowRecord) : Prop where
  request : ∀ r, record.request = some r → r.flowId = id ∧ r.otherUser = user
  comparison : ∀ c, record.comparison = some c → c.flowId = id ∧ c.otherUserId = user
  code : ∀ q, record.code = some q → q.flowId = id ∧ q.otherUserId = user

/-- **An identifier addresses the flow it was announced for**: a pass announces
what it finds unless the registry holds that very flow, and a call that takes an
identifier acts on the flow with the user it was handed out for. -/
structure AddressesRight (p : Pool IdentifierState IdentifierCall) : Prop where
  announces : ∀ c found signals t res, .registering (c :: found) signals ∈ p.calls →
    IdentifierNext p.shared (.registering (c :: found) signals) t res →
      res = .inl (.registering found (signals ++ [(c.flowId, c.user)])) ∨
        ∃ record, t.flow.flows.get? c.flowId = some record ∧ record.Is c.flowId c.user
  acts : ∀ id handles user, .acting id handles ∈ p.calls → (id, user) ∈ p.shared.handed →
    handles.record.Is id user

/-- The flows upstream takes up in a step. -/
def takenUp : IdentifierEvent → List (String × String)
  | .section (.opening _) (.inl (.opened request)) => [(request.flowId, request.otherUser)]
  | .world (.upstream _ new) => new
  | _ => []

/-- No flow upstream takes up has a transaction id that a flow with another user
has had. -/
def Unshared (p : Pool IdentifierState IdentifierCall) (e : IdentifierEvent) : Prop :=
  ∀ new ∈ takenUp e, ∀ old ∈ p.shared.known ++ takenUp e, old.1 = new.1 → old.2 = new.2

/-! ### What the handles of a flow are of -/

namespace FlowRecord

variable {u : Upstream} {id user : String} {record filled : FlowRecord}

theorem is_fromRequest (r : VerificationRequest) : (fromRequest r).Is r.flowId r.otherUser where
  request := by
    intro r' h
    obtain rfl : r = r' := Option.some.inj h
    exact ⟨rfl, rfl⟩
  comparison := fun c h => by cases h
  code := fun q h => by cases h

theorem is_fromComparison (c : Sas) : (fromComparison c).Is c.flowId c.otherUserId where
  request := fun r h => by cases h
  comparison := by
    intro c' h
    obtain rfl : c = c' := Option.some.inj h
    exact ⟨rfl, rfl⟩
  code := fun q h => by cases h

/-- What a request became is of its flow. -/
theorem Is.filledFrom (h : record.Is id user) (hu : u.Coherent) (hf : FilledFrom u record filled) :
    filled.Is id user := by
  -- what upstream makes of a request keeps the request's flow
  have hbecame : ∀ v, record.became u = some v → v.flow = (id, user) := by
    intro v hv
    unfold became at hv
    cases hr : record.request with
    | none => rw [hr] at hv; cases hv
    | some r =>
      obtain ⟨hid, huser⟩ := h.request r hr
      rw [hr, Option.map_some] at hv
      cases hstate : u.requestState r with
      | transitioned v' =>
        rw [hstate] at hv
        obtain rfl : v' = v := Option.some.inj hv
        cases v' with
        | sas c =>
          obtain ⟨h₁, h₂⟩ := hu.becameSas r c hstate
          rw [Verification.flow, h₁, h₂, hid, huser]
        | qr q =>
          obtain ⟨h₁, h₂⟩ := hu.becameCode r q hstate
          rw [Verification.flow, h₁, h₂, hid, huser]
      | _ => rw [hstate] at hv; cases hv
  refine ⟨fun r hr => h.request r (hf.request ▸ hr), fun c hc => ?_, fun q hq => ?_⟩
  · rcases hf.comparison with heq | heq <;> rw [heq] at hc
    · exact h.comparison c hc
    · rw [comparisonOf_eq, Option.or_eq_some_iff] at hc
      rcases hc with hc | ⟨-, hc⟩
      · exact h.comparison c hc
      · obtain ⟨v, hv, hsas⟩ := Option.bind_eq_some_iff.mp hc
        cases v with
        | qr q => cases hsas
        | sas c' =>
          obtain rfl : c' = c := Option.some.inj hsas
          exact Prod.mk.inj (hbecame _ hv)
  · rcases hf.code with heq | heq <;> rw [heq] at hq
    · exact h.code q hq
    · rw [codeOf_eq, Option.or_eq_some_iff] at hq
      rcases hq with hq | ⟨-, hq⟩
      · exact h.code q hq
      · obtain ⟨v, hv, hqr⟩ := Option.bind_eq_some_iff.mp hq
        cases v with
        | sas c => cases hqr
        | qr q' =>
          obtain rfl : q' = q := Option.some.inj hqr
          exact Prod.mk.inj (hbecame _ hv)

/-- A record that is of one flow is under the id upstream keeps it by. -/
theorem Is.upstreamFlowId {flowId : String} (h : record.Is id user)
    (hid : record.upstreamFlowId = some flowId) : flowId = id := by
  unfold FlowRecord.upstreamFlowId at hid
  cases hr : record.request with
  | some r =>
    rw [hr, Option.map_some, Option.some_or] at hid
    rw [← Option.some.inj hid, (h.request r hr).1]
  | none =>
    rw [hr, Option.map_none, Option.none_or, Option.map_eq_some_iff] at hid
    obtain ⟨c, hc, rfl⟩ := hid
    exact (h.comparison c hc).1

theorem Is.handles (h : record.Is id user) : record.handles.record.Is id user :=
  ⟨h.request, h.comparison, h.code⟩

end FlowRecord

/-! ### The registry's records -/

namespace Registry

/-- Every record is of a flow that was known under its id. -/
def Known (known : List (String × String)) (flows : Registry) : Prop :=
  ∀ id record, flows.get? id = some record → ∃ user, (id, user) ∈ known ∧ record.Is id user

variable {known known' : List (String × String)} {flows : Registry} {u : Upstream} {observed : Bool}
  {id user : String} {record : FlowRecord}

theorem Known.mono (h : flows.Known known) (hk : ∀ e ∈ known, e ∈ known') : flows.Known known' := by
  intro id record hget
  obtain ⟨user, hmem, his⟩ := h id record hget
  exact ⟨user, hk _ hmem, his⟩

/-- Filling a handle in keeps a record of its flow. -/
theorem fillClosed_known (hu : u.Coherent) (id : String) :
    FillClosed u fun record => ∃ user, (id, user) ∈ known ∧ record.Is id user := by
  rintro record filled ⟨user, hmem, his⟩ hf
  exact ⟨user, hmem, his.filledFrom hu hf⟩

theorem Known.releaseFinished (h : flows.Known known) (hu : u.Coherent) :
    (flows.releaseFinished u observed).Known known := All.releaseFinished h (fillClosed_known hu)

theorem Known.insert (h : flows.Known known) (hmem : (id, user) ∈ known)
    (his : record.Is id user) : Known known (flows.insert id record) :=
  All.insert h ⟨user, hmem, his⟩

theorem Known.cached (h : flows.Known known) (hu : u.Coherent) (id : String) :
    (flows.cached u id).2.Known known := All.cached h (fillClosed_known hu) id

/-- What registering a flow leaves under its id is of a flow of that id. -/
theorem Known.register (h : flows.Known known) (hu : u.Coherent) (hmem : (id, user) ∈ known)
    (his : record.Is id user) :
    (flows.register u observed id record).2.Known known ∧ ∃ user, (id, user) ∈ known ∧
      (flows.register u observed id record).1.record.Is id user :=
  All.register h (fillClosed_known hu) ⟨user, hmem, his⟩

theorem Known.registerIfAbsent (h : flows.Known known) (hu : u.Coherent)
    (hmem : (id, user) ∈ known) (his : record.Is id user) :
    (flows.registerIfAbsent u observed id record).2.Known known :=
  All.registerIfAbsent h (fillClosed_known hu) ⟨user, hmem, his⟩

theorem Known.forgetFlow (h : flows.Known known) (id : String) :
    (flows.forgetFlow id).Known known := All.forgetFlow h id

/-- A pass that looks at every record keeps them of their flows. -/
theorem Known.mapValues (h : flows.Known known) (hu : u.Coherent) {f : FlowRecord → FlowRecord}
    (hf : ∀ record, FlowRecord.FilledFrom u record (f record)) :
    Known known (flows.mapValues fun _ record => f record) :=
  All.mapValues h (fillClosed_known hu) hf

/-- What is remembered is of the one flow known under the id. -/
theorem Known.remember (h : flows.Known known)
    (hshared : ∀ e ∈ known, ∀ e' ∈ known, e.1 = e'.1 → e.2 = e'.2)
    (hmem : (id, user) ∈ known) {v : Verification} (hv : v.flow = (id, user)) :
    (flows.remember id v).Known known := by
  have hsame : ∀ record, flows.get? id = some record → record.Is id user := by
    intro record hget
    obtain ⟨user', hmem', his⟩ := h id record hget
    obtain rfl : user' = user := hshared _ hmem' _ hmem rfl
    exact his
  cases v with
  | sas c =>
    unfold Registry.remember rememberComparison
    cases hget : flows.get? id with
    | none => exact h
    | some record =>
      have his := hsame record hget
      refine h.insert hmem ⟨his.request, fun c' hc' => ?_, his.code⟩
      obtain rfl : c = c' := Option.some.inj hc'
      exact Prod.mk.inj hv
  | qr q =>
    unfold Registry.remember rememberCode
    cases hget : flows.get? id with
    | none => exact h
    | some record =>
      have his := hsame record hget
      refine h.insert hmem ⟨his.request, his.comparison, fun q' hq' => ?_⟩
      obtain rfl : q = q' := Option.some.inj hq'
      exact Prod.mk.inj hv

end Registry

/-! ### What the calls hold -/

/-- A lookup in flight is of a flow known under the id. -/
def Lookup.About (known : List (String × String)) (id : String) : Lookup → Prop
  | begins k | missed k => k = id
  | found record => ∃ user, (id, user) ∈ known ∧ record.Is id user
  | adopting k record => k = id ∧ ∃ user, (id, user) ∈ known ∧ record.Is id user

/-- Everything a call in flight holds is of a flow that was known. -/
def IdentifierCall.Of (known : List (String × String)) : IdentifierCall → Prop
  | opening _ | querying _ | taking _ | listing _ => True
  | opened request => (request.flowId, request.otherUser) ∈ known
  | registering found signals =>
    (∀ c ∈ found, (c.flowId, c.user) ∈ known ∧ c.record.Is c.flowId c.user) ∧
      ∀ signal ∈ signals, signal ∈ known
  | announcing signals => ∀ signal ∈ signals, signal ∈ known
  | finding id l => l.About known id
  | acting id handles => ∃ user, (id, user) ∈ known ∧ handles.record.Is id user
  | remembering id v => ∃ user, (id, user) ∈ known ∧ v.flow = (id, user)

theorem IdentifierCall.Of.mono {known known' : List (String × String)} {call : IdentifierCall}
    (h : call.Of known) (hk : ∀ e ∈ known, e ∈ known') : call.Of known' := by
  cases call with
  | opened request => exact hk _ h
  | registering found signals =>
    exact ⟨fun c hc => ⟨hk _ (h.1 c hc).1, (h.1 c hc).2⟩, fun signal hs => hk _ (h.2 signal hs)⟩
  | announcing signals => exact fun signal hs => hk _ (h signal hs)
  | finding id l =>
    cases l with
    | begins k => exact h
    | missed k => exact h
    | found record =>
      obtain ⟨user, hmem, his⟩ := h
      exact ⟨user, hk _ hmem, his⟩
    | adopting k record =>
      obtain ⟨hid, user, hmem, his⟩ := h
      exact ⟨hid, user, hk _ hmem, his⟩
  | acting id handles =>
    obtain ⟨user, hmem, his⟩ := h
    exact ⟨user, hk _ hmem, his⟩
  | remembering id v =>
    obtain ⟨user, hmem, hv⟩ := h
    exact ⟨user, hk _ hmem, hv⟩
  | _ => trivial

/-- No two users' flows were known under one id, and everything registered or
handed out was known. -/
structure Identified (s : IdentifierState) : Prop where
  shared : ∀ e ∈ s.known, ∀ e' ∈ s.known, e.1 = e'.1 → e.2 = e'.2
  holds : s.flow.upstream.HoldsOnly s.known
  handed : ∀ e ∈ s.handed, e ∈ s.known
  records : s.flow.flows.Known s.known

theorem Upstream.HoldsOnly.mono {u : Upstream} {flows flows' : List (String × String)}
    (h : u.HoldsOnly flows) (hf : ∀ e ∈ flows, e ∈ flows') : u.HoldsOnly flows' :=
  ⟨h.coherent, fun user id r hr => hf _ (h.request user id r hr),
    fun user r hr => hf _ (h.requests user r hr),
    fun user id c hc => hf _ (h.verification user id c hc)⟩

/-- Upstream finds a flow that was known under the id. -/
theorem Upstream.HoldsOnly.findFlow {u : Upstream} {flows : List (String × String)}
    (h : u.HoldsOnly flows) {tracked : List String} {id : String} {record : FlowRecord}
    (hfind : findFlow u tracked id = some record) :
    ∃ user, (id, user) ∈ flows ∧ record.Is id user := by
  rcases findFlow_eq_some hfind with ⟨user, -, r, hr, rfl⟩ | ⟨user, -, c, hc, rfl⟩
  · obtain ⟨hid, huser⟩ := h.coherent.request user id r hr
    have his := FlowRecord.is_fromRequest r
    rw [hid, huser] at his
    exact ⟨user, h.request user id r hr, his⟩
  · obtain ⟨hid, huser⟩ := h.coherent.sas user id c hc
    have his := FlowRecord.is_fromComparison c
    rw [hid, huser] at his
    exact ⟨user, h.verification user id c hc, his⟩

/-- What a pass lists was known, under the id it announces. -/
theorem Upstream.HoldsOnly.candidates {u : Upstream} {flows : List (String × String)}
    (h : u.HoldsOnly flows) {tracked : List String} {starts : List (String × String)}
    {c : Candidate} (hc : c ∈ announceable u tracked ++ bareStarts u starts) :
    (c.flowId, c.user) ∈ flows ∧ c.record.Is c.flowId c.user := by
  rcases List.mem_append.mp hc with hc | hc
  · unfold announceable at hc
    obtain ⟨user, -, hc⟩ := List.mem_flatMap.mp hc
    obtain ⟨r, hr, hstate⟩ := List.mem_filterMap.mp hc
    split at hstate
    · obtain rfl := Option.some.inj hstate
      have huser := h.coherent.requests user r hr
      exact ⟨huser ▸ h.requests user r hr, FlowRecord.is_fromRequest r⟩
    · cases hstate
  · unfold bareStarts at hc
    obtain ⟨start, -, hstart⟩ := List.mem_filterMap.mp hc
    obtain ⟨c', hv, rfl⟩ := bareStart_eq_some hstart
    obtain ⟨hid, huser⟩ := h.coherent.sas _ _ _ hv
    refine ⟨?_, FlowRecord.is_fromComparison c'⟩
    show (c'.flowId, c'.otherUserId) ∈ flows
    rw [hid, huser]
    exact h.verification _ _ _ hv

/-- Finding a flow finds one that was known under the id. -/
theorem LookupNext.about {known : List (String × String)} {s t : FlowState} {l : Lookup}
    {res : Lookup ⊕ Except MachineError Handles} {id : String}
    (hu : s.upstream.HoldsOnly known) (hrecords : s.flows.Known known) (hl : l.About known id)
    (h : LookupNext s l t res) :
    t.flows.Known known ∧ (∀ l', res = .inl l' → l'.About known id) ∧
      ∀ handles, res = .inr (.ok handles) →
        ∃ user, (id, user) ∈ known ∧ handles.record.Is id user := by
  cases h with
  | @hit k record hget =>
    -- looking at a record may fill it, with verifications of its own flow
    obtain rfl : k = id := hl
    refine ⟨hrecords.cached hu.coherent k, by simp, fun handles hh => ?_⟩
    have hh : (record.filled s.upstream).handles = handles := by simpa using hh
    obtain ⟨user, hmem, his⟩ := hrecords k record hget
    exact ⟨user, hmem, hh ▸ (his.filledFrom hu.coherent FlowRecord.filledFrom_filled).handles⟩
  | miss hget =>
    refine ⟨hrecords, fun l' hl' => ?_, by simp⟩
    cases hl'
    exact hl
  | @trip k tracked record ht hfind =>
    obtain rfl : k = id := hl
    refine ⟨hrecords, fun l' hl' => ?_, by simp⟩
    cases hl'
    exact hu.findFlow hfind
  | tripUnknown ht hfind => exact ⟨hrecords, by simp, by simp⟩
  | tripFails => exact ⟨hrecords, by simp, by simp⟩
  | finished hfin => exact ⟨hrecords, by simp, by simp⟩
  | @live record k hlive hid =>
    obtain ⟨user, hmem, his⟩ := hl
    have hlooked := his.filledFrom hu.coherent FlowRecord.filledFrom_lookedAt
    refine ⟨hrecords, fun l' hl' => ?_, by simp⟩
    cases hl'
    exact ⟨hlooked.upstreamFlowId hid, user, hmem, hlooked⟩
  | @register k record =>
    obtain ⟨rfl, user, hmem, his⟩ := hl
    obtain ⟨hknown, hgives⟩ : (s.flows.register s.upstream s.observed k record).2.Known known ∧
        ∃ user, (k, user) ∈ known ∧
          (s.flows.register s.upstream s.observed k record).1.record.Is k user :=
      hrecords.register hu.coherent hmem his
    refine ⟨hknown, by simp, fun handles hh => ?_⟩
    have hh : (s.flows.register s.upstream s.observed k record).1 = handles := by simpa using hh
    exact hh ▸ hgives

/-! ### Addressing the right flow -/

/-- Taking up flows whose ids no other user's flow has had shares no id. -/
theorem shared_append {known new : List (String × String)}
    (h : ∀ e ∈ known, ∀ e' ∈ known, e.1 = e'.1 → e.2 = e'.2)
    (hnew : ∀ e ∈ new, ∀ old ∈ known ++ new, old.1 = e.1 → old.2 = e.2) :
    ∀ e ∈ known ++ new, ∀ e' ∈ known ++ new, e.1 = e'.1 → e.2 = e'.2 := by
  intro e he e' he' heq
  rcases List.mem_append.mp he' with hold' | hnew'
  · rcases List.mem_append.mp he with hold | hnew'
    · exact h e hold e' hold' heq
    · exact (hnew e hnew' e' he' heq.symm).symm
  · exact hnew e' hnew' e he heq

section identified

variable {s t : IdentifierState}

/-- A section that writes to the table only what is known. -/
theorem Identified.writes (hs : Identified s) {flows : Registry} (h : flows.Known s.known) :
    Identified { s with flow := { s.flow with flows := flows } } :=
  ⟨hs.shared, hs.holds, hs.handed, h⟩

/-- A caller is handed a flow that is known. -/
theorem Identified.hands (hs : Identified s) {e : String × String} (he : e ∈ s.known) :
    Identified { s with handed := s.handed ++ [e] } := by
  refine ⟨hs.shared, hs.holds, fun e' he' => ?_, hs.records⟩
  rcases List.mem_append.mp he' with he' | he'
  · exact hs.handed e' he'
  · rw [List.mem_singleton] at he'
    exact he' ▸ he

/-- Upstream takes up flows that share no id with another user's. -/
theorem Identified.takesUp (hs : Identified s) {u : Upstream} {new : List (String × String)}
    (hu : u.HoldsOnly (s.known ++ new))
    (hnew : ∀ e ∈ new, ∀ old ∈ s.known ++ new, old.1 = e.1 → old.2 = e.2) :
    Identified { s with flow := { s.flow with upstream := u }, known := s.known ++ new } := by
  have hmono : ∀ e ∈ s.known, e ∈ s.known ++ new := fun e he => List.mem_append_left _ he
  exact ⟨shared_append hs.shared hnew, hu, fun e he => hmono e (hs.handed e he),
    hs.records.mono hmono⟩

/-- A pass goes on to the next flow it found, with a signal for the one it registered. -/
theorem IdentifierCall.Of.next {known : List (String × String)} {c : Candidate}
    {found : List Candidate} {signals : List (String × String)} {new : Bool}
    (h : (IdentifierCall.registering (c :: found) signals).Of known) :
    (IdentifierCall.registering found
      (if new then signals ++ [(c.flowId, c.user)] else signals)).Of known := by
  refine ⟨fun c' hc' => h.1 c' (List.mem_cons_of_mem _ hc'), fun signal hsignal => ?_⟩
  split at hsignal
  · rcases List.mem_append.mp hsignal with hsignal | hsignal
    · exact h.2 signal hsignal
    · rw [List.mem_singleton] at hsignal
      exact hsignal ▸ (h.1 c (List.mem_cons_self ..)).1
  · exact h.2 signal hsignal

/-- One section of a call, where upstream takes up no flow that shares an id. -/
theorem IdentifierNext.identified {call : IdentifierCall}
    {res : IdentifierCall ⊕ Except MachineError Unit} (hs : Identified s)
    (hG : ∀ new ∈ takenUp (.section call res), ∀ old ∈ s.known ++ takenUp (.section call res),
      old.1 = new.1 → old.2 = new.2)
    (hcall : call.Of s.known) (h : IdentifierNext s call t res) :
    Identified t ∧ (∀ call', res = .inl call' → call'.Of t.known) ∧
      ∀ e ∈ s.known, e ∈ t.known := by
  have hcoherent := hs.holds.coherent
  cases h with
  | refused => exact ⟨hs, by simp, fun _ h => h⟩
  | @opens user request u hr hu =>
    subst hr
    refine ⟨hs.takesUp hu hG, ?_, fun e he => List.mem_append_left _ he⟩
    rintro call' ⟨⟩
    exact List.mem_append_right _ (List.mem_singleton_self _)
  | @registers request =>
    have his := FlowRecord.is_fromRequest request
    exact ⟨(hs.writes (hs.records.register hcoherent hcall his).1).hands hcall, by simp,
      fun _ h => h⟩
  | queries =>
    refine ⟨hs.writes ?_, by rintro call' ⟨⟩; trivial, fun _ h => h⟩
    exact hs.records.mapValues hcoherent fun _ => FlowRecord.filledFrom_afterQuerying
  | silent hobserved => exact ⟨hs, by simp, fun _ h => h⟩
  | takes hobserved =>
    refine ⟨hs.writes ?_, by rintro call' ⟨⟩; trivial, fun _ h => h⟩
    exact hs.records.mapValues hcoherent fun _ => FlowRecord.filledFrom_afterAnnouncing
  | lists ht =>
    refine ⟨hs, ?_, fun _ h => h⟩
    rintro call' ⟨⟩
    exact ⟨fun c hc => hs.holds.candidates hc, by simp⟩
  | @registersNew c found signals =>
    obtain ⟨hmem, his⟩ := hcall.1 c (List.mem_cons_self ..)
    refine ⟨hs.writes (hs.records.registerIfAbsent hcoherent hmem his), ?_, fun _ h => h⟩
    rintro call' ⟨⟩
    exact hcall.next
  | registered =>
    refine ⟨hs, ?_, fun _ h => h⟩
    rintro call' ⟨⟩
    exact hcall.2
  | @delivers signal signals hobserved =>
    refine ⟨hs.hands (hcall signal (List.mem_cons_self ..)), ?_, fun _ h => h⟩
    rintro call' ⟨⟩
    exact fun signal' hs => hcall signal' (List.mem_cons_of_mem _ hs)
  | @forgets signal signals hobserved =>
    refine ⟨hs.writes (hs.records.forgetFlow _), ?_, fun _ h => h⟩
    rintro call' ⟨⟩
    exact fun signal' hs => hcall signal' (List.mem_cons_of_mem _ hs)
  | announced => exact ⟨hs, by simp, fun _ h => h⟩
  | finds h =>
    obtain ⟨hknown, habout, -⟩ := h.about hs.holds hs.records hcall
    rw [h.frame]
    refine ⟨hs.writes hknown, ?_, fun _ h => h⟩
    rintro call' ⟨⟩
    exact habout _ rfl
  | findsNone h =>
    obtain ⟨hknown, -, -⟩ := h.about hs.holds hs.records hcall
    rw [h.frame]
    exact ⟨hs.writes hknown, by simp, fun _ h => h⟩
  | found h =>
    obtain ⟨hknown, -, hgives⟩ := h.about hs.holds hs.records hcall
    rw [h.frame]
    refine ⟨hs.writes hknown, ?_, fun _ h => h⟩
    rintro call' ⟨⟩
    exact hgives _ rfl
  | acts => exact ⟨hs, by simp, fun _ h => h⟩
  | @becomes id handles request v hr hv =>
    refine ⟨hs, ?_, fun _ h => h⟩
    rintro call' ⟨⟩
    -- what upstream gives of a request is of that request's flow
    obtain ⟨user, hmem, his⟩ := hcall
    obtain ⟨hid, huser⟩ := his.request request hr
    exact ⟨user, hmem, by rw [hv, hid, huser]⟩
  | remembers =>
    obtain ⟨user, hmem, hv⟩ := hcall
    exact ⟨hs.writes (hs.records.remember hs.shared hmem hv), by simp, fun _ h => h⟩

end identified

/-- **What every call holds of the flow it is on**, while no two users share a
transaction id. -/
theorem identified_stable :
    identifying.Stable Unshared Identified (fun s call => call.Of s.known) where
  start := by
    intro p call _ _ hbegins
    cases call with
    | finding id l =>
      obtain rfl : l = .begins id := hbegins
      exact rfl
    | opening user => trivial
    | querying starts => trivial
    | _ => cases hbegins
  own := by
    intro p call t res hG _ hs hcall hnext
    obtain ⟨hs', hcall', -⟩ := IdentifierNext.identified hs hG hcall hnext
    exact ⟨hs', hcall'⟩
  other := by
    intro p call t res m hG _ hs hcall hm hnext
    exact hm.mono (IdentifierNext.identified hs hG hcall hnext).2.2
  world := by
    intro p e t hG hs hmove
    cases hmove with
    | @upstream u new hu =>
      have hmono : ∀ e ∈ p.shared.known, e ∈ p.shared.known ++ new :=
        fun e he => List.mem_append_left _ he
      exact ⟨hs.takesUp hu hG, fun m hm => hm.mono hmono⟩
    | observes => exact ⟨⟨hs.shared, hs.holds, hs.handed, hs.records⟩, fun _ hm => hm⟩

theorem IdentifierState.Starting.identified {s : IdentifierState} (h : s.Starting) :
    Identified s where
  shared := by
    rw [h.known]
    simp
  holds := by
    rw [h.known]
    exact h.holds
  handed := by
    rw [h.handed]
    simp
  records := by
    intro id record hget
    rw [h.flows] at hget
    cases hget

/-- An identifier addresses its flow wherever no two users' flows were known under
one id. -/
theorem addressesRight_of_identified {p : Pool IdentifierState IdentifierCall}
    (hs : Identified p.shared) (hcalls : ∀ call ∈ p.calls, call.Of p.shared.known) :
    AddressesRight p where
  announces := by
    intro c found signals t res hmem hnext
    obtain ⟨hknown, his⟩ := (hcalls _ hmem).1 c (List.mem_cons_self ..)
    cases hnext with
    | registersNew =>
      have hswept : (p.shared.flow.flows.releaseFinished p.shared.flow.upstream
          p.shared.flow.observed).Known p.shared.known :=
        hs.records.releaseFinished hs.holds.coherent
      cases hget : (p.shared.flow.flows.releaseFinished p.shared.flow.upstream
          p.shared.flow.observed).get? c.flowId with
      | none =>
        rw [Registry.registerIfAbsent_of_none hget]
        exact Or.inl rfl
      | some held =>
        -- what the registry holds under the id is the one flow known under it
        obtain ⟨user, hmem', hheld⟩ := hswept _ held hget
        obtain rfl : user = c.user := hs.shared _ hmem' _ hknown rfl
        rw [Registry.registerIfAbsent_of_some hget]
        exact Or.inr ⟨held, hget, hheld⟩
  acts := by
    intro id handles user hmem hhanded
    obtain ⟨user', hmem', his⟩ := hcalls _ hmem
    obtain rfl : user' = user := hs.shared _ hmem' _ (hs.handed _ hhanded) rfl
    exact his

/-- **While no two users share a transaction id, an identifier addresses the flow
it was announced for**, in every run from the start of a process. -/
theorem addressesRight_of_unshared {s₀ : IdentifierState} {es : List IdentifierEvent}
    {q : Pool IdentifierState IdentifierCall} (hstart : s₀.Starting)
    (hrun : (identifiers.restrict Unshared).Run ⟨s₀, []⟩ es q) : AddressesRight q := by
  obtain ⟨hs, hcalls⟩ := identified_stable.run hrun ⟨hstart.identified, by simp⟩
  exact addressesRight_of_identified hs hcalls

/-! ### One id, and two users

Bob opens a flow and it is announced; then it is cancelled, and Mallory opens one
under the same transaction id. -/

/-- Upstream holds one invitation nobody has answered, or none. -/
def holding (held : Option VerificationRequest) : Upstream where
  userId := "@alice:example.org"
  deviceId := "ALICE"
  trackedUsers := held.toList.map VerificationRequest.otherUser
  requestState := fun r => if held = some r then .requested "DEVICE" else .cancelled
  sasState := fun _ => .created
  codeState := fun _ => .started
  getVerificationRequest := fun user id =>
    held.filter fun r => decide (r.otherUser = user ∧ r.flowId = id)
  negotiated := fun _ => ([], [])
  hasCodeKeys := fun _ => true
  scanError := fun _ _ => none
  verifications := fun _ => ∅
  getVerificationRequests := fun user => (held.filter fun r => decide (r.otherUser = user)).toList

theorem holdsOnly_holding {held : Option VerificationRequest} {flows : List (String × String)}
    (h : ∀ r, held = some r → (r.flowId, r.otherUser) ∈ flows) :
    (holding held).HoldsOnly flows := by
  have hstate : ∀ r v, (holding held).requestState r ≠ .transitioned v := by
    intro r v heq
    have heq : (if held = some r then VerificationRequestState.requested "DEVICE" else .cancelled) =
        .transitioned v := heq
    split at heq <;> cases heq
  have hrequest : ∀ user id r, (holding held).getVerificationRequest user id = some r →
      held = some r ∧ r.otherUser = user ∧ r.flowId = id := by
    intro user id r hr
    obtain ⟨hheld, hr⟩ := Option.filter_eq_some_iff.mp hr
    exact ⟨hheld, by simpa using hr⟩
  have hrequests : ∀ user, ∀ r ∈ (holding held).getVerificationRequests user,
      held = some r ∧ r.otherUser = user := by
    intro user r hr
    have hr : r ∈ (held.filter fun r => decide (r.otherUser = user)).toList := hr
    rw [Option.mem_toList] at hr
    obtain ⟨hheld, hr⟩ := Option.filter_eq_some_iff.mp hr
    exact ⟨hheld, by simpa using hr⟩
  have hnone : ∀ user id c, (holding held).getVerification user id ≠ some (.sas c) :=
    fun user id c hc => by
      rw [Upstream.getVerification_of_empty _ user id rfl] at hc
      cases hc
  refine ⟨⟨fun user id r hr => ?_, fun user r hr => (hrequests user r hr).2,
    fun user id c hc => absurd hc (hnone user id c), fun r c hr => absurd hr (hstate r _),
    fun r q hr => absurd hr (hstate r _)⟩, fun user id r hr => ?_, fun user r hr => ?_,
    fun user id c hc => absurd hc (hnone user id c)⟩
  · obtain ⟨-, huser, hid⟩ := hrequest user id r hr
    exact ⟨hid, huser⟩
  · obtain ⟨hheld, rfl, rfl⟩ := hrequest user id r hr
    exact h r hheld
  · obtain ⟨hheld, rfl⟩ := hrequests user r hr
    exact h r hheld

/-- The candidate a pass makes of an invitation. -/
def candidateOf (r : VerificationRequest) : Candidate :=
  ⟨r.flowId, r.otherUser, "DEVICE", .fromRequest r⟩

/-- The registry a pass asks: the two passes before it have walked it. -/
def passedFlows (s : IdentifierState) : Registry :=
  ((s.flow.flows.peersOwedAKeyQuery s.flow.upstream).2.takePendingCompletions s.flow.upstream).2

/-- A pass has announced the invitation. -/
def IdentifierState.announced (s : IdentifierState) (r : VerificationRequest) : IdentifierState :=
  { s with
    flow := { s.flow with flows := ((passedFlows s).registerIfAbsent s.flow.upstream s.flow.observed
      r.flowId (.fromRequest r)).2 }
    handed := s.handed ++ [(r.flowId, r.otherUser)] }

theorem candidates_holding (r : VerificationRequest) :
    announceable (holding (some r)) [r.otherUser] ++ bareStarts (holding (some r)) [] =
      [candidateOf r] := by
  simp [announceable, holding, bareStarts, candidateOf, Option.filter]

/-- A section of the only call in flight, that takes up no flow. -/
theorem identifier_section {s t : IdentifierState} {call : IdentifierCall}
    {res : IdentifierCall ⊕ Except MachineError Unit} (h : IdentifierNext s call t res)
    (hno : takenUp (.section call res) = []) : (identifiers.restrict Unshared).step ⟨s, [call]⟩
      (.section call res) ⟨t, remaining res ++ []⟩ := by
  refine ⟨fun new hnew => ?_, Calls.step_section identifying [] [] h⟩
  rw [hno] at hnew
  cases hnew

/-- A pass announces the one invitation there is. -/
theorem announces_run {s : IdentifierState} {r : VerificationRequest}
    (hup : s.flow.upstream = holding (some r)) (hobserved : s.flow.observed = true)
    (hnew : ((passedFlows s).registerIfAbsent s.flow.upstream s.flow.observed r.flowId
      (.fromRequest r)).1 = true) :
    ∃ es, (identifiers.restrict Unshared).Run ⟨s, []⟩ es ⟨s.announced r, []⟩ := by
  have hstart : (identifiers.restrict Unshared).step ⟨s, []⟩ (.start (.querying []))
      ⟨s, [.querying []]⟩ := ⟨by simp [Unshared, takenUp], Calls.step_start identifying trivial⟩
  have hlists : IdentifierNext { s with flow := { s.flow with flows := passedFlows s } }
      (.listing []) { s with flow := { s.flow with flows := passedFlows s } }
      (.inl (.registering [candidateOf r] [])) := by
    have htracked : [r.otherUser].Perm s.flow.upstream.trackedUsers := by
      rw [hup]
      exact .refl _
    have h := @IdentifierNext.lists { s with flow := { s.flow with flows := passedFlows s } } []
      [r.otherUser] htracked
    rw [← candidates_holding r, ← hup]
    exact h
  have hregisters : IdentifierNext { s with flow := { s.flow with flows := passedFlows s } }
      (.registering [candidateOf r] [])
      { s with flow := { s.flow with flows := ((passedFlows s).registerIfAbsent s.flow.upstream
        s.flow.observed r.flowId (.fromRequest r)).2 } }
      (.inl (.registering [] [(r.flowId, r.otherUser)])) := by
    have h := @IdentifierNext.registersNew
      { s with flow := { s.flow with flows := passedFlows s } } (candidateOf r) [] []
    have hsignal : (if ((passedFlows s).registerIfAbsent s.flow.upstream s.flow.observed r.flowId
        (.fromRequest r)).1 then [] ++ [(r.flowId, r.otherUser)] else []) =
          [(r.flowId, r.otherUser)] := if_pos hnew
    rw [← hsignal]
    exact h
  exact ⟨_, .cons hstart (.cons (identifier_section .queries rfl)
    (.cons (identifier_section (.takes hobserved) rfl) (.cons (identifier_section hlists rfl)
      (.cons (identifier_section hregisters rfl) (.cons (identifier_section .registered rfl)
        (.cons (identifier_section (.delivers hobserved) rfl)
          (.single (identifier_section .announced rfl))))))))⟩

/-- Bob's invitation. -/
def bobsInvitation : VerificationRequest := ⟨0, "t1", "@bob:example.org"⟩

/-- Mallory's, under the transaction id of Bob's. -/
def mallorysInvitation : VerificationRequest := ⟨1, "t1", "@mallory:example.org"⟩

/-- A process that has just started, with somebody subscribed. -/
def quietState : IdentifierState where
  flow := ⟨OrdMap.empty, holding none, .initial, true⟩
  known := []
  handed := []

/-- Upstream has taken up an invitation, and holds no other. -/
def IdentifierState.invited (s : IdentifierState) (r : VerificationRequest) : IdentifierState :=
  { s with
    flow := { s.flow with upstream := holding (some r) }
    known := s.known ++ [(r.flowId, r.otherUser)] }

theorem quietState_starting : quietState.Starting where
  flows := rfl
  known := rfl
  handed := rfl
  holds := holdsOnly_holding fun r h => by cases h

theorem invites_step (s : IdentifierState) (r : VerificationRequest) :
    identifiers.step ⟨s, []⟩
      (.world (.upstream (holding (some r)) [(r.flowId, r.otherUser)])) ⟨s.invited r, []⟩ := by
  refine ⟨.upstream (holdsOnly_holding fun r' h => ?_), rfl⟩
  obtain rfl : r = r' := Option.some.inj h
  exact List.mem_append_right _ (List.mem_singleton_self _)

/-- A call is given what the registry has under the id. -/
theorem finds_run {s : IdentifierState} {id : String} {record : FlowRecord}
    (hget : s.flow.flows.get? id = some record) :
    ∃ es t, (identifiers.restrict Unshared).Run ⟨s, []⟩ es
      ⟨t, [.acting id (record.filled s.flow.upstream).handles]⟩ ∧ t.handed = s.handed := by
  have hstart : (identifiers.restrict Unshared).step ⟨s, []⟩ (.start (.finding id (.begins id)))
      ⟨s, [.finding id (.begins id)]⟩ :=
    ⟨by simp [Unshared, takenUp], Calls.step_start identifying rfl⟩
  exact ⟨_, _, .cons hstart (.single (identifier_section (.found (.hit hget)) rfl)), rfl⟩

/-- Bob's invitation was announced. -/
def bobsState : IdentifierState := (quietState.invited bobsInvitation).announced bobsInvitation

/-- Bob's flow is announced, and a call on its id is on his flow. -/
theorem bobs_run : ∃ es, (identifiers.restrict Unshared).Run ⟨quietState, []⟩ es
    ⟨bobsState, []⟩ := by
  obtain ⟨es, hannounces⟩ := announces_run (s := quietState.invited bobsInvitation)
    (r := bobsInvitation) rfl rfl rfl
  refine ⟨_, .cons ⟨?_, invites_step quietState bobsInvitation⟩ hannounces⟩
  intro new hnew old hold heq
  -- it is the only flow there is
  have hnew : new = ("t1", "@bob:example.org") := List.mem_singleton.mp hnew
  have hold : old = ("t1", "@bob:example.org") := List.mem_singleton.mp hold
  rw [hnew, hold]

/-- The identifier of Bob's flow addresses it. -/
theorem addressesRight_bobsState : ∃ es t handles,
    (identifiers.restrict Unshared).Run ⟨quietState, []⟩ es ⟨t, [.acting "t1" handles]⟩ ∧
      ("t1", "@bob:example.org") ∈ t.handed ∧ AddressesRight ⟨t, [.acting "t1" handles]⟩ := by
  obtain ⟨es, hrun⟩ := bobs_run
  have hget : bobsState.flow.flows.get? "t1" = some (.fromRequest bobsInvitation) := rfl
  obtain ⟨fs, t, hfinds, hhanded⟩ := finds_run hget
  refine ⟨_, t, _, hrun.append hfinds, ?_,
    addressesRight_of_unshared quietState_starting (hrun.append hfinds)⟩
  rw [hhanded]
  exact List.mem_singleton_self _

/-- **The identifier of Bob's flow comes to address Mallory's**: his was cancelled,
and the pass that announced hers swept it. -/
theorem addresses_another : ∃ es q, quietState.Starting ∧
    identifiers.Run ⟨quietState, []⟩ es q ∧ ¬ AddressesRight q := by
  obtain ⟨es, hrun⟩ := bobs_run
  obtain ⟨fs, hannounces⟩ := announces_run (s := bobsState.invited mallorysInvitation)
    (r := mallorysInvitation) rfl rfl rfl
  have hget : ((bobsState.invited mallorysInvitation).announced
      mallorysInvitation).flow.flows.get? "t1" = some (.fromRequest mallorysInvitation) := rfl
  obtain ⟨gs, t, hfinds, hhanded⟩ := finds_run hget
  refine ⟨_, _, quietState_starting, hrun.of_restrict.append
    (.cons (invites_step bobsState mallorysInvitation) (hannounces.append hfinds).of_restrict),
    fun h => ?_⟩
  -- the id was handed out for Bob's flow, and the handles are of Mallory's
  have hbob : ("t1", "@bob:example.org") ∈ t.handed := by
    rw [hhanded]
    exact List.mem_append_left _ (List.mem_singleton_self _)
  have his := h.acts "t1" _ "@bob:example.org" (List.mem_singleton_self _) hbob
  exact absurd (his.request mallorysInvitation rfl).2 (by decide)

end MatrixCrypto
