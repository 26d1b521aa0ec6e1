import MatrixCrypto.Process
import MatrixCrypto.Verification.Begin
import MatrixCrypto.Verification.Confirm
import MatrixCrypto.Verification.Records

/-!
# Flows with the machine's own account

A flow with another device of the account ends in signatures under the identity
this store holds.  The calls that open or answer a flow read whether that identity
is settled; the calls on a flow that is going do not read it again.

## Main definitions

* `Gate`, `GateNext` — `refuse_own_flow_until_the_identity_is_settled`, section by
  section, and `Reading`, what it read when it let a call pass.
* `Upstream.opened`, `Upstream.accept` — what opening and answering a flow do.
* `OwnCall`, `OwnNext`, `ownFlows` — the six calls on flows, beside everything else
  the process does.
* `Upstream.Follows` — upstream's own moves: a flow nobody here opened or answered
  waits.
-/

namespace MatrixCrypto

open Lib

/-- What the gate read when it let a flow with the machine's own account pass. -/
structure Reading where
  reads : Reads
  store : Store
  /-- How often the identity held had been written before. -/
  writes : ℕ
  published : identityIsUnpublished reads store = false

/-- What the calls on flows and on the identity read and write. -/
structure OwnState where
  flow : FlowState
  store : Store
  /-- How often the identity held, or the record of it, was written; forgetting the
  record apart. -/
  writes : ℕ
  /-- The flows with the machine's own account that were opened or answered here,
  each with what the gate read. -/
  admitted : List (String × Reading)

namespace OwnState

/-- The machine's own account. -/
abbrev account (s : OwnState) : String := s.flow.upstream.userId

/-- The request registry and the store. -/
def process (s : OwnState) : Process := ⟨s.flow.requests, s.store⟩

/-- The identity held, or its record, is written. -/
def write (s : OwnState) (store : Store) : OwnState :=
  { s with store := store, writes := if store = s.store then s.writes else s.writes + 1 }

/-- A flow is opened or answered behind a gate. -/
def admitFlow (s : OwnState) (user flowId : String) : Option Reading → OwnState
  | some reading =>
    if user = s.account then { s with admitted := (flowId, reading) :: s.admitted } else s
  | none => s

/-- The flow is with another user, or was opened or answered here. -/
def Admits (s : OwnState) (user flowId : String) : Prop :=
  user = s.account → ∃ reading, (flowId, reading) ∈ s.admitted

end OwnState

/-! ### The gate -/

/-- `refuse_own_flow_until_the_identity_is_settled`, between two of its sections. -/
inductive Gate
  /-- About to ask the machine whose it is. -/
  | begins (user : String)
  /-- The flow is with its own account; about to read `account_keys_answered`. -/
  | asked
  /-- It was false; about to queue the query that ends the refusal. -/
  | refusing
  /-- It was true; about to read the record of the identity. -/
  | reading

/-- One section of the gate. -/
inductive GateNext (s : OwnState) :
    Gate → OwnState → Gate ⊕ Except MachineError (Option Reading) → Prop
  | other {user : String} (h : user ≠ s.account) :
      GateNext s (.begins user) s (.inr (.ok none))
  | own {user : String} (h : user = s.account) : GateNext s (.begins user) s (.inl .asked)
  | answered (h : s.flow.requests.accountKeysAnswered = true) :
      GateNext s .asked s (.inl .reading)
  | unanswered (h : s.flow.requests.accountKeysAnswered = false) :
      GateNext s .asked s (.inl .refusing)
  | refuses {id : String} {query : KeysQueryRequest} :
      GateNext s .refusing
        { s with flow := { s.flow with
          requests := s.flow.requests.queueAccountKeyQuery id query } }
        (.inr (.error .accountKeysNotFetched))
  | passes {reads : Reads} (h : identityIsUnpublished reads s.store = false) :
      GateNext s .reading s (.inr (.ok (some ⟨reads, s.store, s.writes, h⟩)))
  | pending {reads : Reads} (h : identityIsUnpublished reads s.store = true) :
      GateNext s .reading s (.inr (.error .identityNotKnown))
  | fails {gate : Gate} : GateNext s gate s (.inr (.error .notInitialised))

/-! ### Opening and answering a flow -/

namespace Upstream

/-- Upstream builds a request of its own. -/
def opened (u : Upstream) (r : VerificationRequest) : Upstream :=
  { u.setRequest r .created with
    getVerificationRequest := fun user id =>
      if user = r.otherUser ∧ id = r.flowId then some r else u.getVerificationRequest user id
    getVerificationRequests := fun user =>
      if user = r.otherUser then u.getVerificationRequests user ++ [r]
      else u.getVerificationRequests user }

/-- `Sas::accept`: a comparison the peer started is answered, and no other. -/
def acceptComparison (u : Upstream) : Option Sas → Option (Upstream × String × String)
  | some c =>
    match u.sasState c with
    | .started => some (u.setSas c .accepted, c.otherUserId, c.flowId)
    | _ => none
  | none => none

/-- `accept_with_methods` or else `Sas::accept`: what either leaves, and the user
and the id of the flow that was answered. -/
def accept (u : Upstream) (handles : Handles) (ours theirs : List VerificationMethod) :
    Option (Upstream × String × String) :=
  match handles.request with
  | some r =>
    match u.requestState r with
    | .requested _ => some (u.setRequest r (.ready ours theirs), r.otherUser, r.flowId)
    | _ => u.acceptComparison handles.comparison
  | none => u.acceptComparison handles.comparison

end Upstream

/-- The other party of the flow `accept_flow` is asked about. -/
def Handles.otherUser (handles : Handles) : Option String :=
  (handles.request.map VerificationRequest.otherUser).or
    (handles.comparison.map Sas.otherUserId)

/-! ### The calls -/

/-- The calls that answer or confirm, once they have their flow. -/
inductive FlowCall
  | acceptFlow
  | confirmFlow
  | confirmScan

/-- A call, between two of its sections. -/
inductive OwnCall
  /-- `request_flow`, or `request_self_flow`, at the gate. -/
  | requesting (toSelf : Bool) (user : String) (gate : Gate)
  /-- The gate let it pass; about to take the machine. -/
  | opening (toSelf : Bool) (user : String) (reading : Option Reading)
  /-- Upstream has built the request. -/
  | opened (request : VerificationRequest) (outgoing : UpstreamOutgoingRequest)
  /-- `accept_flow`, `confirm_flow` or `confirm_scan`, finding its flow. -/
  | finding (call : FlowCall) (l : Lookup)
  /-- `accept_flow`, at the gate. -/
  | accepting (handles : Handles) (gate : Gate)
  /-- The gate let it pass; about to answer. -/
  | answering (handles : Handles) (reading : Option Reading)
  /-- `begin_comparison`, up to its queueing. -/
  | beginning (call : BeginCall)
  /-- `confirm_flow`, about to read the stage. -/
  | checking (handles : Handles)
  /-- The strings are on screen; about to take the machine. -/
  | confirming (comparison : Sas)
  /-- `confirm_scan`, about to answer the scan. -/
  | scanning (handles : Handles)
  /-- Any of them, with messages of this flow still to be queued. -/
  | queueing (user flowId : String) (rest : List UpstreamOutgoingRequest)

/-- What a call does with the handles it found. -/
def FlowCall.next (handles : Handles) : FlowCall → OwnCall ⊕ Except MachineError Unit
  | acceptFlow =>
    match handles.otherUser with
    | some user => .inl (.accepting handles (.begins user))
    | none => .inr (.error .wrongStage)
  | confirmFlow => .inl (.checking handles)
  | confirmScan => .inl (.scanning handles)

/-- One section of a call. -/
inductive OwnNext (s : OwnState) :
    OwnCall → OwnState → OwnCall ⊕ Except MachineError Unit → Prop
  | requests {toSelf : Bool} {user : String} {gate gate' : Gate} {t : OwnState}
      (h : GateNext s gate t (.inl gate')) :
      OwnNext s (.requesting toSelf user gate) t (.inl (.requesting toSelf user gate'))
  | requestMalformed {toSelf : Bool} {user : String} :
      OwnNext s (.requesting toSelf user (.begins user)) s (.inr (.error .malformedIdentifier))
  | requestRefused {toSelf : Bool} {user : String} {gate : Gate} {t : OwnState} {e : MachineError}
      (h : GateNext s gate t (.inr (.error e))) :
      OwnNext s (.requesting toSelf user gate) t (.inr (.error e))
  | requestPasses {toSelf : Bool} {user : String} {gate : Gate} {t : OwnState}
      {reading : Option Reading} (h : GateNext s gate t (.inr (.ok reading))) :
      OwnNext s (.requesting toSelf user gate) t (.inl (.opening toSelf user reading))
  -- `request_self_flow` reads the flag again, and that there is an identity to join
  | opens {toSelf : Bool} {user : String} {reading : Option Reading}
      {request : VerificationRequest} {outgoing : UpstreamOutgoingRequest}
      (huser : request.otherUser = user)
      (hfresh : s.flow.upstream.getVerificationRequest user request.flowId = none)
      (hself : toSelf = true →
        s.flow.requests.accountKeysAnswered = true ∧
          (s.store.identity.bind UserIdentity.own?).isSome = true) :
      OwnNext s (.opening toSelf user reading)
        (OwnState.admitFlow
          { s with flow := { s.flow with upstream := s.flow.upstream.opened request } }
          user request.flowId reading)
        (.inl (.opened request outgoing))
  | openUnanswered {user : String} {reading : Option Reading} {id : String}
      {query : KeysQueryRequest} (h : s.flow.requests.accountKeysAnswered = false) :
      OwnNext s (.opening true user reading)
        { s with flow := { s.flow with
          requests := s.flow.requests.queueAccountKeyQuery id query } }
        (.inr (.error .accountKeysNotFetched))
  | openFails {toSelf : Bool} {user : String} {reading : Option Reading} {e : MachineError} :
      OwnNext s (.opening toSelf user reading) s (.inr (.error e))
  | registers {request : VerificationRequest} {outgoing : UpstreamOutgoingRequest} :
      OwnNext s (.opened request outgoing)
        { s with flow := { s.flow with flows := (s.flow.flows.register s.flow.upstream
          s.flow.observed request.flowId (.fromRequest request)).2 } }
        (.inl (.queueing request.otherUser request.flowId [outgoing]))
  | finds {call : FlowCall} {l l' : Lookup} {f : FlowState} (h : LookupNext s.flow l f (.inl l')) :
      OwnNext s (.finding call l) { s with flow := f } (.inl (.finding call l'))
  | findsNone {call : FlowCall} {l : Lookup} {f : FlowState} {e : MachineError}
      (h : LookupNext s.flow l f (.inr (.error e))) :
      OwnNext s (.finding call l) { s with flow := f } (.inr (.error e))
  | found {call : FlowCall} {l : Lookup} {f : FlowState} {handles : Handles}
      (h : LookupNext s.flow l f (.inr (.ok handles))) :
      OwnNext s (.finding call l) { s with flow := f } (call.next handles)
  | accepts {handles : Handles} {gate gate' : Gate} {t : OwnState}
      (h : GateNext s gate t (.inl gate')) :
      OwnNext s (.accepting handles gate) t (.inl (.accepting handles gate'))
  | acceptRefused {handles : Handles} {gate : Gate} {t : OwnState} {e : MachineError}
      (h : GateNext s gate t (.inr (.error e))) :
      OwnNext s (.accepting handles gate) t (.inr (.error e))
  | acceptPasses {handles : Handles} {gate : Gate} {t : OwnState} {reading : Option Reading}
      (h : GateNext s gate t (.inr (.ok reading))) :
      OwnNext s (.accepting handles gate) t (.inl (.answering handles reading))
  | answers {handles : Handles} {reading : Option Reading} {ours theirs : List VerificationMethod}
      {u : Upstream} {user flowId : String} {outgoing : UpstreamOutgoingRequest}
      (h : s.flow.upstream.accept handles ours theirs = some (u, user, flowId)) :
      OwnNext s (.answering handles reading)
        (OwnState.admitFlow { s with flow := { s.flow with upstream := u } } user flowId reading)
        (.inl (.queueing user flowId [outgoing]))
  | answersNone {handles : Handles} {reading : Option Reading}
      {ours theirs : List VerificationMethod}
      (h : s.flow.upstream.accept handles ours theirs = none) :
      OwnNext s (.answering handles reading) s (.inr (.error .wrongStage))
  | begins {call call' : BeginCall} {f : FlowState} (h : BeginNext s.flow call f (.inl call'))
      (hqueue : ∀ outgoing, call' ≠ .queueing outgoing) :
      OwnNext s (.beginning call) { s with flow := f } (.inl (.beginning call'))
  | beginsNone {call : BeginCall} {f : FlowState} {e : MachineError}
      (h : BeginNext s.flow call f (.inr (.error e))) :
      OwnNext s (.beginning call) { s with flow := f } (.inr (.error e))
  | remembers {flowId : String} {comparison : Sas} {outgoing : UpstreamOutgoingRequest}
      {f : FlowState} (h : BeginNext s.flow (.remembering flowId comparison outgoing) f
        (.inl (.queueing outgoing))) :
      OwnNext s (.beginning (.remembering flowId comparison outgoing)) { s with flow := f }
        (.inl (.queueing comparison.otherUserId comparison.flowId [outgoing]))
  | refuses {handles : Handles} {e : MachineError}
      (h : comparisonToConfirm s.flow.upstream handles = .error e) :
      OwnNext s (.checking handles) s (.inr (.error e))
  | checks {handles : Handles} {c : Sas} (h : comparisonToConfirm s.flow.upstream handles = .ok c) :
      OwnNext s (.checking handles) s (.inl (.confirming c))
  | confirms {c : Sas} {state : SasState} {messages : List UpstreamOutgoingRequest}
      (h : stageOfComparison (s.flow.upstream.sasState c) = .keysExchanged)
      (hstate : state = .confirmed ∨ ∃ devices, state = .done devices) :
      OwnNext s (.confirming c)
        { s with flow := { s.flow with upstream := s.flow.upstream.setSas c state } }
        (.inl (.queueing c.otherUserId c.flowId messages))
  | confirmsNothing {c : Sas}
      (h : stageOfComparison (s.flow.upstream.sasState c) ≠ .keysExchanged) :
      OwnNext s (.confirming c) s (.inl (.queueing c.otherUserId c.flowId []))
  | confirmFails {c : Sas} {e : MachineError} (he : e = .notInitialised ∨ e = .store) :
      OwnNext s (.confirming c) s (.inr (.error e))
  | scans {handles : Handles} {q : QrVerification} {outgoing : UpstreamOutgoingRequest}
      (hcode : handles.code = some q) (h : s.flow.upstream.codeState q = .scanned) :
      OwnNext s (.scanning handles)
        { s with flow := { s.flow with upstream := s.flow.upstream.setCode q .confirmed } }
        (.inl (.queueing q.otherUserId q.flowId [outgoing]))
  | scansNone {handles : Handles}
      (h : ∀ q, handles.code = some q → s.flow.upstream.codeState q ≠ .scanned) :
      OwnNext s (.scanning handles) s (.inr (.error .wrongStage))
  | queues {user flowId : String} {r : UpstreamOutgoingRequest}
      {rest : List UpstreamOutgoingRequest} :
      OwnNext s (.queueing user flowId (r :: rest))
        { s with flow := { s.flow with requests := s.flow.requests.queueActionRequest r } }
        (.inl (.queueing user flowId rest))
  | returns {user flowId : String} : OwnNext s (.queueing user flowId []) s (.inr (.ok ()))

/-- The calls that may begin. -/
def OwnCall.Begins (s : OwnState) : OwnCall → Prop
  | requesting toSelf user gate => gate = .begins user ∧ (toSelf = true → user = s.account)
  | finding _ l => ∃ flowId, l = .begins flowId
  | beginning call => ∃ flowId, call = .finding flowId (.begins flowId)
  | _ => False

/-! ### What else may happen -/

/-- The other calls' writes to the request registry: they queue, hand a batch out,
or settle a mark. -/
inductive RegistryWrite (account : String) (s : RequestState) : RequestState → Prop
  | queues {t : RequestState} (h : Queueing s t) : RegistryWrite account s t
  | takes (prepared : List Fresh) : RegistryWrite account s (s.takeSection account prepared).2
  | settles (id : String) (answer : AnswerAboutAccount) :
      RegistryWrite account s (s.settle id answer)

/-- The other calls' writes to the flow registry. -/
inductive FlowState.FlowsWrite (s : FlowState) : Registry → Prop
  | registersRequest (id : String) (r : VerificationRequest) :
      FlowsWrite s (s.flows.registerIfAbsent s.upstream s.observed id (.fromRequest r)).2
  | registersStart (id : String) (c : Sas) :
      FlowsWrite s (s.flows.registerIfAbsent s.upstream s.observed id (.fromComparison c)).2
  | queries : FlowsWrite s (s.flows.peersOwedAKeyQuery s.upstream).2
  | announces : FlowsWrite s (s.flows.takePendingCompletions s.upstream).2
  | forgets (id : String) : FlowsWrite s (s.flows.forgetFlow id)
  | looks (id : String) : FlowsWrite s (s.flows.cached s.upstream id).2
  | remembersCode (id : String) (q : QrVerification) : FlowsWrite s (s.flows.rememberCode id q)

/-- The request is past waiting for this side's answer, and not over. -/
def VerificationRequestState.engaged : VerificationRequestState → Bool
  | created | ready _ _ | transitioned _ => true
  | _ => false

/-- The comparison is past waiting for this side's answer, and not over. -/
def SasState.engaged : SasState → Bool
  | created | accepted | keysExchanged _ _ | confirmed => true
  | _ => false

/-- The code is not over; there is none before the request was answered. -/
def QrVerificationState.engaged : QrVerificationState → Bool
  | done | cancelled => false
  | _ => true

/-- Upstream moves by itself.  What waits for this side's answer goes on waiting, or
is over; `Admits` says of which flows the answer was given. -/
structure Upstream.Follows (Admits : String → String → Prop) (u v : Upstream) : Prop where
  account : v.userId = u.userId
  coherent : v.Coherent
  request : ∀ r, (v.requestState r).engaged = true →
    (u.requestState r).engaged = true ∨ Admits r.otherUser r.flowId
  comparison : ∀ c, (v.sasState c).engaged = true →
    (u.sasState c).engaged = true ∨ Admits c.otherUserId c.flowId
  code : ∀ q, (v.codeState q).engaged = true →
    (u.codeState q).engaged = true ∨ Admits q.otherUserId q.flowId

/-- A move of the outside world. -/
inductive OwnMove
  /-- `create_identity`. -/
  | creates (trip : Option Publishing)
  /-- A call writes to the request registry. -/
  | writes (requests : RequestState)
  /-- A mark forgets the record of the identity. -/
  | forgets (reads : Reads)
  /-- Upstream writes to the store. -/
  | stores (store : Store)
  /-- A call writes to the flow registry. -/
  | flows (flows : Registry)
  /-- Upstream's flows move. -/
  | upstream (u : Upstream)
  | observes (observed : Bool)

/-- The moves. -/
inductive OwnMoves (s : OwnState) : OwnMove → OwnState → Prop
  | creates {trip : Option Publishing} : OwnMoves s (.creates trip)
      (OwnState.write
        { s with flow := { s.flow with requests := (createIdentity s.process trip).2.requests } }
        (createIdentity s.process trip).2.store)
  | writes {requests : RequestState} (h : RegistryWrite s.account s.flow.requests requests) :
      OwnMoves s (.writes requests) { s with flow := { s.flow with requests := requests } }
  | forgets {reads : Reads} : OwnMoves s (.forgets reads)
      { s with store := noteIdentityPublished reads s.store }
  | stores {store : Store} : OwnMoves s (.stores store) (s.write store)
  | flows {flows : Registry} (h : s.flow.FlowsWrite flows) :
      OwnMoves s (.flows flows) { s with flow := { s.flow with flows := flows } }
  | upstream {u : Upstream} (h : s.flow.upstream.Follows s.Admits u) :
      OwnMoves s (.upstream u) { s with flow := { s.flow with upstream := u } }
  | observes {observed : Bool} :
      OwnMoves s (.observes observed) { s with flow := { s.flow with observed := observed } }

/-- The six calls, in any interleaving with the rest of the process. -/
def ownFlows : Calls OwnState OwnCall (Except MachineError Unit) OwnMove where
  start := fun s call => call.Begins s
  next := OwnNext
  world := OwnMoves

/-- A process that has just started: no flow is going or registered. -/
structure OwnState.Starting (s : OwnState) : Prop where
  requests : s.flow.requests = .initial
  flows : s.flow.flows = OrdMap.empty
  admitted : s.admitted = []
  coherent : s.flow.upstream.Coherent
  request : ∀ r, (s.flow.upstream.requestState r).engaged = true → r.otherUser ≠ s.account
  comparison : ∀ c, (s.flow.upstream.sasState c).engaged = true → c.otherUserId ≠ s.account
  code : ∀ q, (s.flow.upstream.codeState q).engaged = true → q.otherUserId ≠ s.account

/-- One step of the calls. -/
abbrev OwnEvent := Event OwnCall (Except MachineError Unit) OwnMove

/-- All interleavings of the calls, from the start of a process. -/
abbrev ownRuns : TransitionSystem (Pool OwnState OwnCall) OwnEvent :=
  ownFlows.system OwnState.Starting

end MatrixCrypto
