import MatrixCrypto.Lib.Sections
import MatrixCrypto.Process
import MatrixCrypto.Verification.Lookup

/-!
# Confirming a comparison

`confirm_flow`, with the syncs and the takes it runs beside.  Upstream hands a
confirmation back to the call that made it, and that call queues it; the
acknowledgement of a comparison the peer confirms later goes to upstream's own
cache, where the next take finds it.

## Main definitions

* `Messages` — the two messages that close a comparison; `Messages.Own`,
  `Messages.Foreign` say whose an id is.
* `comparisonToConfirm` — what `confirm_flow` checks before it takes the machine.
* `ConfirmCall`, `ConfirmNext`, `confirming` — confirmations, syncs and takes,
  section by section.
* `Received` — one thing a sync brings.
* `OtherWrite` — any other call's write to the request registry.
-/

namespace MatrixCrypto

open Lib Relation

/-- The messages that close a comparison, as upstream makes them. -/
structure Messages where
  confirmation : Sas → UpstreamOutgoingRequest
  acknowledgement : Sas → UpstreamOutgoingRequest

namespace Messages

/-- The ids of the two messages of a comparison. -/
def ids (M : Messages) (c : Sas) : List String :=
  [(M.confirmation c).requestId, (M.acknowledgement c).requestId]

theorem confirmation_mem_ids (M : Messages) (c : Sas) :
    (M.confirmation c).requestId ∈ M.ids c := List.mem_cons_self

theorem acknowledgement_mem_ids (M : Messages) (c : Sas) :
    (M.acknowledgement c).requestId ∈ M.ids c :=
  List.mem_cons_of_mem _ (List.mem_singleton_self _)

/-- Upstream gave the two messages ids of their own: they differ, and no other
comparison's message has either. -/
structure Own (M : Messages) (c : Sas) : Prop where
  distinct : (M.confirmation c).requestId ≠ (M.acknowledgement c).requestId
  others : ∀ c', c' ≠ c → ∀ i ∈ M.ids c', i ∉ M.ids c

/-- The id is of no confirmation and of no acknowledgement. -/
def Foreign (M : Messages) (id : String) : Prop := ∀ c, id ∉ M.ids c

end Messages

/-- What confirming, syncing and taking read and write. -/
structure ConfirmState where
  flow : FlowState
  /-- The comparisons this side has confirmed. -/
  confirmed : List Sas
  /-- The comparisons whose confirmation by the peer has arrived. -/
  peerConfirmed : List Sas
  /-- What upstream's own cache offers. -/
  cache : List UpstreamOutgoingRequest

/-- What `confirm_flow` reads off its handles before it takes the machine. -/
def comparisonToConfirm (u : Upstream) (handles : Handles) : Except MachineError Sas :=
  match handles.comparison with
  | none => .error .wrongStage
  | some comparison =>
    match stageOfComparison (u.sasState comparison) with
    | .keysExchanged => .ok comparison
    | .started => .error .materialNotReady
    | _ => .error .wrongStage

/-! ### Upstream's side -/

/-- The messages upstream's `confirm` returns: the confirmation, and the
acknowledgement too when the peer confirmed before. -/
def Messages.confirm (M : Messages) (s : ConfirmState) (c : Sas) : List UpstreamOutgoingRequest :=
  if c ∈ s.peerConfirmed then [M.confirmation c, M.acknowledgement c] else [M.confirmation c]

/-- Upstream's `confirm` moves the comparison to this state. -/
def ConfirmState.confirm (s : ConfirmState) (c : Sas) (state : SasState) : ConfirmState :=
  { s with
    flow := { s.flow with upstream := s.flow.upstream.setSas c state }
    confirmed := c :: s.confirmed }

/-- The peer's confirmation arrives: the acknowledgement goes to the cache if this
side has confirmed. -/
def Messages.peerConfirms (M : Messages) (s : ConfirmState) (c : Sas) : ConfirmState :=
  { s with
    peerConfirmed := c :: s.peerConfirmed
    cache := if c ∈ s.confirmed then s.cache ++ [M.acknowledgement c] else s.cache }

/-- One thing a sync brings. -/
inductive Messages.Received (M : Messages) (s : ConfirmState) : ConfirmState → Prop
  | moves {u : Upstream} (h : s.flow.upstream.Advance u) :
      Received M s { s with flow := { s.flow with upstream := u } }
  | confirmation {c : Sas} (h : c ∉ s.peerConfirmed) : Received M s (M.peerConfirms s c)
  | reaction {r : UpstreamOutgoingRequest} (h : M.Foreign r.requestId) :
      Received M s { s with cache := s.cache ++ [r] }

/-- What one trip of a take may be answered: the cache or a failure, and any
backup batch. -/
structure Messages.Answers (M : Messages) (s : ConfirmState) (o : Offered) : Prop where
  upstream : ∀ rs, o.upstream = .ok rs → rs = s.cache
  backup : ∀ b, o.backupBatch = some b → M.Foreign b.1

/-! ### The calls -/

/-- A call, between two of its sections. -/
inductive ConfirmCall
  /-- `confirm_flow`, finding its flow. -/
  | finding (l : Lookup)
  /-- It has the handles; about to read the stage. -/
  | checking (handles : Handles)
  /-- The strings are on screen; about to take the machine. -/
  | confirming (comparison : Sas)
  /-- Upstream has confirmed; these messages are still to be queued. -/
  | queueing (rest : List UpstreamOutgoingRequest)
  /-- `receive_sync_changes`. -/
  | receiving
  /-- `take_outgoing_requests`. -/
  | take
  /-- Its trip is over; the batch prepared from it is at hand. -/
  | taking (prepared : List Fresh)

/-- What a call returns. -/
inductive ConfirmResult
  | confirmed (out : Except MachineError Unit)
  | synced
  | took (out : Except SessionError (List OutgoingRequest))

/-- One section of a call. -/
inductive ConfirmNext (M : Messages) (account : String) (s : ConfirmState) :
    ConfirmCall → ConfirmState → ConfirmCall ⊕ ConfirmResult → Prop
  | finds {l l' : Lookup} {f : FlowState} (h : LookupNext s.flow l f (.inl l')) :
      ConfirmNext M account s (.finding l) { s with flow := f } (.inl (.finding l'))
  | findsNone {l : Lookup} {f : FlowState} {e : MachineError}
      (h : LookupNext s.flow l f (.inr (.error e))) :
      ConfirmNext M account s (.finding l) { s with flow := f } (.inr (.confirmed (.error e)))
  | found {l : Lookup} {f : FlowState} {handles : Handles}
      (h : LookupNext s.flow l f (.inr (.ok handles))) :
      ConfirmNext M account s (.finding l) { s with flow := f } (.inl (.checking handles))
  | refuses {handles : Handles} {e : MachineError}
      (h : comparisonToConfirm s.flow.upstream handles = .error e) :
      ConfirmNext M account s (.checking handles) s (.inr (.confirmed (.error e)))
  | checks {handles : Handles} {c : Sas}
      (h : comparisonToConfirm s.flow.upstream handles = .ok c) :
      ConfirmNext M account s (.checking handles) s (.inl (.confirming c))
  | confirms {c : Sas} {state : SasState} {upload : Option UpstreamOutgoingRequest}
      (h : stageOfComparison (s.flow.upstream.sasState c) = .keysExchanged)
      (hstate : state = .confirmed ∨ ∃ devices, state = .done devices)
      (hupload : ∀ r ∈ upload, M.Foreign r.requestId) :
      ConfirmNext M account s (.confirming c) (s.confirm c state)
        (.inl (.queueing (M.confirm s c ++ upload.toList)))
  -- upstream's `confirm` does nothing at any other stage, and reports success
  | confirmsNothing {c : Sas}
      (h : stageOfComparison (s.flow.upstream.sasState c) ≠ .keysExchanged) :
      ConfirmNext M account s (.confirming c) s (.inl (.queueing []))
  | confirmFails {c : Sas} {e : MachineError} (he : e = .notInitialised ∨ e = .store) :
      ConfirmNext M account s (.confirming c) s (.inr (.confirmed (.error e)))
  | queues {r : UpstreamOutgoingRequest} {rest : List UpstreamOutgoingRequest} :
      ConfirmNext M account s (.queueing (r :: rest))
        { s with flow := { s.flow with requests := s.flow.requests.queueActionRequest r } }
        (.inl (.queueing rest))
  | returns : ConfirmNext M account s (.queueing []) s (.inr (.confirmed (.ok ())))
  | receives {t : ConfirmState} (h : ReflTransGen M.Received s t) :
      ConfirmNext M account s .receiving t (.inr .synced)
  | takeTrip {o : Offered} {prepared : List Fresh} (ho : M.Answers s o)
      (h : prepare account o = .ok prepared) :
      ConfirmNext M account s .take s (.inl (.taking prepared))
  | takeTripFails {o : Offered} {e : SessionError} (ho : M.Answers s o)
      (h : prepare account o = .error e) :
      ConfirmNext M account s .take s (.inr (.took (.error e)))
  | takeSection {prepared : List Fresh} :
      ConfirmNext M account s (.taking prepared)
        { s with flow := { s.flow with
          requests := (s.flow.requests.takeSection account prepared).2 } }
        (.inr (.took (s.flow.requests.takeSection account prepared).1))

/-- A call begins before its first section. -/
def ConfirmCall.Begins : ConfirmCall → Prop
  | finding (.begins _) | receiving | take => True
  | _ => False

/-! ### What else may happen -/

/-- Another call's write to the request registry; it queues neither message of any
comparison, and drains nothing. -/
inductive Messages.OtherWrite (M : Messages) (s : RequestState) : RequestState → Prop
  | action {r : UpstreamOutgoingRequest} (h : M.Foreign r.requestId) :
      OtherWrite M s (s.queueActionRequest r)
  | toDevice {rs : List ToDeviceRequest} (h : ∀ r ∈ rs, M.Foreign r.txnId) :
      OtherWrite M s (s.queueToDeviceRequests rs)
  | claim {c : Option (String × KeysClaimRequest)} (h : ∀ b ∈ c, M.Foreign b.1) :
      OtherWrite M s (s.withClaim c)
  | signingKeys {id : String} {r : UploadSigningKeysRequest} (h : M.Foreign id) :
      OtherWrite M s (s.queueSigningKeysRequest id r)
  | accountQuery {id : String} {r : KeysQueryRequest} (h : M.Foreign id) :
      OtherWrite M s (s.queueAccountKeyQuery id r)
  | peerQuery {id : String} {r : KeysQueryRequest} (h : M.Foreign id) :
      OtherWrite M s (s.queuePeerKeyQuery id r)
  | settles (id : String) (answer : AnswerAboutAccount) : OtherWrite M s (s.settle id answer)

/-- A move of the outside world. -/
inductive ConfirmMove
  /-- Another call writes to the request registry. -/
  | writes (requests : RequestState)
  /-- Upstream offers other messages, or was told that some are sent. -/
  | offers (cache : List UpstreamOutgoingRequest)
  /-- Flows are registered and swept, and upstream's other objects move. -/
  | flows (flow : FlowState)

/-- Confirmations, syncs and takes, in any interleaving. -/
def confirming (M : Messages) (account : String) :
    Calls ConfirmState ConfirmCall ConfirmResult ConfirmMove where
  start := fun _ call => call.Begins
  next := ConfirmNext M account
  world := fun s e t => match e with
    | .writes requests => M.OtherWrite s.flow.requests requests ∧
        t = { s with flow := { s.flow with requests := requests } }
    | .offers cache => (∀ r ∈ cache, r ∈ s.cache ∨ M.Foreign r.requestId) ∧
        t = { s with cache := cache }
    | .flows flow => flow.requests = s.flow.requests ∧ t = { s with flow := flow }

/-- A process that has just started: nothing is queued and nothing confirmed. -/
structure Messages.Initial (M : Messages) (s : ConfirmState) : Prop where
  requests : s.flow.requests = .initial
  confirmed : s.confirmed = []
  cache : ∀ r ∈ s.cache, M.Foreign r.requestId

/-! ### What the takes returned -/

/-- The ids of a batch. -/
def ConfirmResult.ids : ConfirmResult → List String
  | took (.ok out) => out.map OutgoingRequest.id
  | _ => []

@[simp] theorem ConfirmResult.ids_ok (out : List OutgoingRequest) :
    (took (.ok out)).ids = out.map OutgoingRequest.id := rfl

@[simp] theorem ConfirmResult.ids_error (e : SessionError) : (took (.error e)).ids = [] := rfl

@[simp] theorem ConfirmResult.ids_confirmed (out : Except MachineError Unit) :
    (confirmed out).ids = [] := rfl

@[simp] theorem ConfirmResult.ids_synced : synced.ids = [] := rfl

/-- The ids of every batch returned, in order. -/
def handedIn (es : List (Event ConfirmCall ConfirmResult ConfirmMove)) : List String :=
  (Calls.returned es).flatMap ConfirmResult.ids

@[simp] theorem handedIn_nil : handedIn [] = [] := rfl

theorem handedIn_append (es fs : List (Event ConfirmCall ConfirmResult ConfirmMove)) :
    handedIn (es ++ fs) = handedIn es ++ handedIn fs := by
  rw [handedIn, Calls.returned_append, List.flatMap_append]
  rfl

@[simp] theorem handedIn_start (l : ConfirmCall) : handedIn [.start l] = [] := rfl

@[simp] theorem handedIn_world (e : ConfirmMove) : handedIn [.world e] = [] := rfl

@[simp] theorem handedIn_inl (l l' : ConfirmCall) : handedIn [.section l (.inl l')] = [] := rfl

@[simp] theorem handedIn_inr (l : ConfirmCall) (out : ConfirmResult) :
    handedIn [.section l (.inr out)] = out.ids := by
  rw [handedIn, Calls.returned_inr, List.flatMap_singleton]

/-- Every message upstream's `confirm` returns is one of the comparison's own. -/
theorem Messages.mem_confirm {M : Messages} {s : ConfirmState} {c : Sas}
    {r : UpstreamOutgoingRequest} (h : r ∈ M.confirm s c) :
    r = M.confirmation c ∨ r = M.acknowledgement c := by
  unfold Messages.confirm at h
  split at h
  · simpa using h
  · exact Or.inl (by simpa using h)

end MatrixCrypto
