import MatrixCrypto.Handout.Foreign
import MatrixCrypto.Lib.Sections
import MatrixCrypto.Verification.Lookup

/-!
# The query a scanned code owes

Syncs, takes and marks, section by section.  A sync that finishes a scanned code
makes a signature upload, which upstream keeps in its own cache; in a later
section the same sync finds the flow in the registry and queues a key query about
the person it verified.  A take reads the cache in its trip and the registry in
its section.

## Main definitions

* `Scanning` — the upload a finished code makes, and the ids of the queries.
* `codesDue` — the codes the key query pass finds a query owed for.
* `PeerQueryCall`, `PeerQueryNext`, `peerQuerying` — the calls.
* `Scanning.Received` — one thing a sync brings.
-/

namespace MatrixCrypto

open Lib Relation

/-- What upstream makes of scanned codes. -/
structure Scanning where
  /-- The signature upload that finishing a code makes, where it signs anybody. -/
  upload : QrVerification → Option UpstreamOutgoingRequest
  /-- The id is one that `query_keys_for_users` gave a query about another person. -/
  Query : String → Prop

/-- Upstream gave no upload the id of a query. -/
def Scanning.Own (S : Scanning) : Prop := ∀ q, ∀ r ∈ S.upload q, ¬ S.Query r.requestId

/-- The codes the key query pass finds a query owed for. -/
def Registry.codesDue (flows : Registry) (u : Upstream) : List QrVerification :=
  ((flows.filter fun _ record => record.owesKeyQuery u).entries.map Prod.snd).flatMap fun record =>
    (record.finishedByScanning u).toList

/-- **The pass returns whom the codes verified.** -/
theorem Registry.peersOwedAKeyQuery_fst (flows : Registry) (u : Upstream) :
    (peersOwedAKeyQuery flows u).1 = (codesDue flows u).map QrVerification.otherUserId := by
  simp only [peersOwedAKeyQuery, codesDue, List.map_flatMap]

/-- A code a query is owed for is finished. -/
theorem Registry.codeState_of_mem_codesDue {flows : Registry} {u : Upstream} {q : QrVerification}
    (h : q ∈ codesDue flows u) : u.codeState q = .done := by
  obtain ⟨record, -, hq⟩ := List.mem_flatMap.mp h
  rw [Option.mem_toList, FlowRecord.finishedByScanning,
    Option.filter_eq_some_iff] at hq
  simpa using hq.2

/-- The same codes are finished. -/
def Upstream.SameDone (u v : Upstream) : Prop :=
  ∀ q, v.codeState q = .done ↔ u.codeState q = .done

/-- What syncing, taking and marking read and write. -/
structure PeerQueryState where
  flow : FlowState
  /-- What upstream's own cache offers. -/
  cache : List UpstreamOutgoingRequest
  /-- The queries that were queued, each with the code it was owed for. -/
  asked : List (String × QrVerification)
  /-- The ids of every batch returned, in order. -/
  returned : List String

/-! ### Upstream's side -/

/-- A code is finished: its upload goes to the cache. -/
def Scanning.finish (S : Scanning) (s : PeerQueryState) (q : QrVerification) : PeerQueryState :=
  { s with
    flow := { s.flow with upstream := s.flow.upstream.setCode q .done }
    cache := s.cache ++ (S.upload q).toList }

/-- One thing a sync brings. -/
inductive Scanning.Received (S : Scanning) (s : PeerQueryState) : PeerQueryState → Prop
  | moves {u : Upstream} (h : s.flow.upstream.SameDone u) :
      Received S s { s with flow := { s.flow with upstream := u } }
  | finishes {q : QrVerification} (h : (s.flow.upstream.codeState q).isFinal = false) :
      Received S s (S.finish s q)
  | reaction {r : UpstreamOutgoingRequest} (h : ¬ S.Query r.requestId) :
      Received S s { s with cache := s.cache ++ [r] }

/-- What one trip of a take may be answered: the cache or a failure, and any
backup batch. -/
structure Scanning.Answers (S : Scanning) (s : PeerQueryState) (o : Offered) : Prop where
  upstream : ∀ rs, o.upstream = .ok rs → rs = s.cache
  backup : ∀ b, o.backupBatch = some b → ¬ S.Query b.1

/-! ### The calls -/

/-- A call, between two of its sections. -/
inductive PeerQueryCall
  /-- `receive_sync_changes`. -/
  | receiving
  /-- `queue_peer_key_queries`, about to walk the registry. -/
  | querying
  /-- About to queue what these codes owe. -/
  | asking (owed : List QrVerification)
  /-- `take_outgoing_requests`. -/
  | take
  /-- Its trip is over; the batch prepared from it is at hand.  Upstream was as
  `seen` during the trip. -/
  | taking (seen : Upstream) (prepared : List Fresh)
  /-- `mark_request_sent`. -/
  | mark (id : String)
  /-- The id was looked up. -/
  | marking (id : String)
  /-- Upstream has taken the response. -/
  | settling (id : String) (answer : AnswerAboutAccount)

/-- What a call returns. -/
inductive PeerQueryResult
  | synced (out : Except SessionError Unit)
  | took (out : Except SessionError (List OutgoingRequest))
  | marked (out : Except SessionError Unit)

/-- The ids of a batch. -/
def PeerQueryResult.ids : PeerQueryResult → List String
  | took (.ok out) => out.map OutgoingRequest.id
  | _ => []

/-- One section of a call. -/
inductive PeerQueryNext (S : Scanning) (account : String) (s : PeerQueryState) :
    PeerQueryCall → PeerQueryState → PeerQueryCall ⊕ PeerQueryResult → Prop
  | receives {t : PeerQueryState} (h : ReflTransGen S.Received s t) :
      PeerQueryNext S account s .receiving t (.inl .querying)
  | receiveFails {t : PeerQueryState} (h : ReflTransGen S.Received s t) :
      PeerQueryNext S account s .receiving t (.inr (.synced (.error .failed)))
  | queries : PeerQueryNext S account s .querying
      { s with flow := { s.flow with
        flows := (s.flow.flows.peersOwedAKeyQuery s.flow.upstream).2 } }
      (.inl (.asking (s.flow.flows.codesDue s.flow.upstream)))
  -- the machine's own account is skipped
  | skips {q : QrVerification} {rest : List QrVerification} (h : q.otherUserId = account) :
      PeerQueryNext S account s (.asking (q :: rest)) s (.inl (.asking rest))
  | asks {q : QrVerification} {rest : List QrVerification} {id : String} {r : KeysQueryRequest}
      (h : q.otherUserId ≠ account) (hid : S.Query id) (hnew : id ∉ s.asked.map Prod.fst) :
      PeerQueryNext S account s (.asking (q :: rest))
        { s with
          flow := { s.flow with requests := s.flow.requests.queuePeerKeyQuery id r }
          asked := s.asked ++ [(id, q)] }
        (.inl (.asking rest))
  | syncs : PeerQueryNext S account s (.asking []) s (.inr (.synced (.ok ())))
  -- without a machine nothing is queued, and the sync goes on
  | askFails {owed : List QrVerification} :
      PeerQueryNext S account s (.asking owed) s (.inr (.synced (.ok ())))
  | takeTrip {o : Offered} {prepared : List Fresh} (ho : S.Answers s o)
      (h : prepare account o = .ok prepared) :
      PeerQueryNext S account s .take s (.inl (.taking s.flow.upstream prepared))
  | takeTripFails {o : Offered} {e : SessionError} (ho : S.Answers s o)
      (h : prepare account o = .error e) :
      PeerQueryNext S account s .take s (.inr (.took (.error e)))
  | takeSection {seen : Upstream} {prepared : List Fresh} :
      PeerQueryNext S account s (.taking seen prepared)
        { s with
          flow := { s.flow with requests := (s.flow.requests.takeSection account prepared).2 }
          returned := s.returned ++
            (PeerQueryResult.took (s.flow.requests.takeSection account prepared).1).ids }
        (.inr (.took (s.flow.requests.takeSection account prepared).1))
  | markLookup {id : String} (h : s.flow.requests.pending.get? id ≠ none) :
      PeerQueryNext S account s (.mark id) s (.inl (.marking id))
  | markUnknown {id : String} (h : s.flow.requests.pending.get? id = none) :
      PeerQueryNext S account s (.mark id) s (.inr (.marked (.error .unknownRequest)))
  | markRefused {id : String} {e : SessionError} (h : s.flow.requests.pending.get? id ≠ none) :
      PeerQueryNext S account s (.mark id) s (.inr (.marked (.error e)))
  | markTrip {id : String} {answer : AnswerAboutAccount} :
      PeerQueryNext S account s (.marking id)
        { s with cache := s.cache.filter fun r => r.requestId ≠ id } (.inl (.settling id answer))
  | markTripFails {id : String} {e : SessionError} :
      PeerQueryNext S account s (.marking id) s (.inr (.marked (.error e)))
  | markSettles {id : String} {answer : AnswerAboutAccount} :
      PeerQueryNext S account s (.settling id answer)
        { s with flow := { s.flow with requests := s.flow.requests.settle id answer } }
        (.inr (.marked (.ok ())))

/-- A call begins before its first section. -/
def PeerQueryCall.Begins : PeerQueryCall → Prop
  | receiving | take | mark _ => True
  | _ => False

/-! ### What else may happen -/

/-- A move of the outside world. -/
inductive PeerQueryMove
  /-- Another call writes to the request registry. -/
  | writes (requests : RequestState)
  /-- Upstream offers other requests besides its uploads. -/
  | offers (cache : List UpstreamOutgoingRequest)
  /-- Flows are registered and swept, and upstream's other objects move. -/
  | flows (flow : FlowState)

/-- Syncs, takes and marks, in any interleaving. -/
def peerQuerying (S : Scanning) (account : String) :
    Calls PeerQueryState PeerQueryCall PeerQueryResult PeerQueryMove where
  start := fun _ call => call.Begins
  next := PeerQueryNext S account
  world := fun s e t => match e with
    | .writes requests => ForeignWrite (fun id => ¬ S.Query id) s.flow.requests requests ∧
        t = { s with flow := { s.flow with requests := requests } }
    | .offers cache => (∀ r ∈ cache, ¬ S.Query r.requestId) ∧
        (∀ q, ∀ r ∈ S.upload q, r ∈ s.cache → r ∈ cache) ∧ t = { s with cache := cache }
    | .flows flow => flow.requests = s.flow.requests ∧ s.flow.upstream.SameDone flow.upstream ∧
        t = { s with flow := flow }

/-- A process that has just started: nothing is queued, and no code is finished. -/
structure Scanning.Initial (S : Scanning) (s : PeerQueryState) : Prop where
  requests : s.flow.requests = .initial
  unfinished : ∀ q, s.flow.upstream.codeState q ≠ .done
  cache : ∀ r ∈ s.cache, ¬ S.Query r.requestId
  asked : s.asked = []
  returned : s.returned = []

/-- What happens in one step. -/
abbrev PeerQueryEvent := Event PeerQueryCall PeerQueryResult PeerQueryMove

/-- The calls in flight. -/
abbrev PeerQueryPool := Pool PeerQueryState PeerQueryCall

/-- The system of all interleavings. -/
abbrev peerQueries (S : Scanning) (account : String) :
    TransitionSystem PeerQueryPool PeerQueryEvent := (peerQuerying S account).system S.Initial

end MatrixCrypto
