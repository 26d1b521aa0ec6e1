import MatrixCrypto.Lib.Percent
import MatrixCrypto.Process

/-!
# The product's half of the pump

What a product does with the requests it is handed: it puts each to its homeserver, in order, and
reports what came back, a success with its text and anything else with its status.  Other calls on
the machine are served whenever it waits.

## Main definitions

* `endpointFor`, `callFor` — where a request goes.
* `AppState`, `Surroundings` — the product over the process, and all that is decided outside it.
* `pump`, `syncOnce`, `deliverCallOff` — what the product runs.
* `Stranded` — handed out, reported by nobody, and waiting nowhere.

## Main results

* `callFor_toDevice_read` — **a homeserver reads the event type and the id back off the path.**
* `pump_disposes` — **what becomes of every request a pump was handed.**
* `deliverCallOff_of_quiet`, `deliverCallOff_of_offersSomething` — **whether a call-off is said to
  be delivered is up to what upstream offers, and not to what the homeserver answered of it.**
-/

namespace MatrixCrypto
namespace App

open Lib

/-! ### Where a request goes -/

/-- The account and its homeserver. -/
structure ScannedCodePlan where
  homeserver : String
  userId : String
  deviceId : String
  accessToken : String

/-- What HTTP gives back. -/
structure HttpResult where
  status : ℕ
  text : String
  deriving DecidableEq, Repr

/-- `status >= 200 && status < 300`. -/
def HttpResult.isSuccess (r : HttpResult) : Bool := 200 ≤ r.status && r.status < 300

/-- What is put to the homeserver. -/
structure HttpCall where
  method : String
  url : String
  token : String
  body : Option Json

/-- `endpointFor`: it throws where there is none. -/
def endpointFor : String → Option (String × String)
  | "keys_upload" => some ("POST", "/_matrix/client/v3/keys/upload")
  | "keys_query" => some ("POST", "/_matrix/client/v3/keys/query")
  | "keys_claim" => some ("POST", "/_matrix/client/v3/keys/claim")
  | "signature_upload" => some ("POST", "/_matrix/client/v3/keys/signatures/upload")
  | "signing_keys_upload" => some ("POST", "/_matrix/client/v3/keys/device_signing/upload")
  -- a to-device request has its path built from the request
  | _ => none

/-- `body.event_type ?? 'm.room.encrypted'`, of a body whose `event_type` is a string or absent. -/
def eventTypeOf (body : Json) : String :=
  match body.field? "event_type" with
  | some (.str eventType) => eventType
  | _ => "m.room.encrypted"

/-- The segments of a to-device request's path before the two that vary. -/
def sendToDevicePrefix : String := "/_matrix/client/v3/sendToDevice/"

/-- The path of a to-device request. -/
def sendToDevicePath (eventType id : String) : String :=
  sendToDevicePrefix ++ encodeURIComponent eventType ++ "/" ++ encodeURIComponent id

/-- The method and the path of a request. -/
def methodAndPath (request : OutgoingRequest) : Option (String × String) :=
  if request.kind = "to_device" then
    some ("PUT", sendToDevicePath (eventTypeOf request.body) request.id)
  else endpointFor request.kind

/-- What is put to the homeserver for a request. -/
def callFor (plan : ScannedCodePlan) (request : OutgoingRequest) : Option HttpCall :=
  (methodAndPath request).map fun at' =>
    ⟨at'.1, plan.homeserver ++ at'.2, plan.accessToken, some request.body⟩

/-! ### The product over the process -/

/-- A request that was put to the homeserver, with what came back. -/
structure Exchange where
  request : OutgoingRequest
  call : HttpCall
  response : HttpResult

/-- The process, and what the product did. -/
structure AppState where
  process : Process
  /-- Everything that was handed out. -/
  handed : List OutgoingRequest
  exchanges : List Exchange
  /-- How often the product waited. -/
  awaited : ℕ

/-- What is decided outside the product: what upstream answers, what the homeserver answers, and
which calls others make while it waits. -/
structure Surroundings where
  parsers : Parsers
  account : String
  plan : ScannedCodePlan
  offered : AppState → Option Offered
  consumed : AppState → Option Consumed
  /-- `http`; `none` where it rejects. -/
  http : AppState → HttpCall → Option HttpResult
  /-- `JSON.parse`. -/
  parse : String → Option Json
  /-- What receiving a sync makes of the store; `none` where it is refused. -/
  received : AppState → Json → Option Store
  meanwhile : AppState → List Call

/-- Why a pump or a sync was given up. -/
inductive Failure
  | crypto (e : SessionError)
  | noEndpoint (kind : String)
  | http
  | status (status : ℕ)
  | notJson
  | refused
  deriving DecidableEq, Repr

/-- What a call hands out. -/
def handedBy (account : String) (p : Process) : Call → List OutgoingRequest
  | .take trip =>
    match (p.requests.takeOutgoingRequests account trip).1 with
    | .ok out => out
    | .error _ => []
  | _ => []

namespace Surroundings

variable (E : Surroundings)

/-- A call on the machine. -/
def serve (s : AppState) (c : Call) : AppState :=
  { s with
    process := c.after E.parsers E.account s.process
    handed := s.handed ++ handedBy E.account s.process c }

/-- Waiting: whatever others call is served. -/
def await (s : AppState) : AppState :=
  (E.meanwhile s).foldl E.serve { s with awaited := s.awaited + 1 }

/-- What came back is reported. -/
def report (s : AppState) (request : OutgoingRequest) (response : HttpResult) :
    Except Failure Unit × AppState :=
  if response.isSuccess then
    let trip := E.consumed s
    ((markRequestSent E.parsers E.account s.process request.id response.text trip).1.mapError
      Failure.crypto, E.serve s (.markSent request.id response.text trip))
  else
    ((markRequestFailed s.process request.id response.status).1.mapError Failure.crypto,
      E.serve s (.markFailed request.id response.status))

/-- One turn of the loop: a request is posted and reported. -/
def post (s : AppState) (request : OutgoingRequest) : Except Failure Unit × AppState :=
  match callFor E.plan request with
  | none => (.error (.noEndpoint request.kind), s)
  | some call =>
    let s := E.await s
    match E.http s call with
    | none => (.error .http, s)
    | some response =>
      let s := { s with exchanges := s.exchanges ++ [⟨request, call, response⟩] }
      E.report (E.await s) request response

/-- The loop. -/
def postAll : List OutgoingRequest → AppState → Except Failure Unit × AppState
  | [], s => (.ok (), s)
  | request :: requests, s =>
    match E.post s request with
    | (.error e, s) => (.error e, s)
    | (.ok _, s) => postAll requests s

/-- `pump`. -/
def pump (s : AppState) : Except Failure ℕ × AppState :=
  let s := E.await s
  let trip := E.offered s
  match (s.process.requests.takeOutgoingRequests E.account trip).1 with
  | .error e => (.error (.crypto e), s)
  | .ok requests =>
    match E.postAll requests (E.serve s (.take trip)) with
    | (.error e, s) => (.error e, s)
    | (.ok _, s) => (.ok requests.length, s)

/-- What a sync asks. -/
def syncCall (since : String) : HttpCall :=
  let query := if since = "" then "timeout=5000"
    else "timeout=5000&since=" ++ encodeURIComponent since
  ⟨"GET", E.plan.homeserver ++ "/_matrix/client/v3/sync?" ++ query, E.plan.accessToken, none⟩

/-- `syncOnce`, with the token of the next one. -/
def syncOnce (s : AppState) (since : String) : Except Failure String × AppState :=
  let s := E.await s
  match E.http s (E.syncCall since) with
  | none => (.error .http, s)
  | some response =>
    if response.status ≠ 200 then (.error (.status response.status), s)
    else
      match E.parse response.text with
      | none => (.error .notJson, s)
      | some body =>
        let s := E.await s
        match E.received s body with
        | none => (.error .refused, s)
        | some store =>
          match E.pump (E.serve s (.upstream store)) with
          | (.error e, s) => (.error e, s)
          | (.ok _, s) => (.ok (((body.field? "next_batch").bind Json.asStr?).getD since), s)

/-- The loop that delivers a call-off, with the pumps it has left.  It ends with the first pump
that is handed nothing. -/
def deliver : ℕ → AppState → Bool × AppState
  | 0, s => (false, s)
  | n + 1, s =>
    match E.pump s with
    | (.ok 0, s) => (true, s)
    | (_, s) => if n = 0 then (false, s) else deliver n (E.await s)

/-- `CANCEL_PUMP_ATTEMPTS`. -/
def cancelPumpAttempts : ℕ := 3

/-- The loop as it is run; it is `true` where the call-off counts as delivered. -/
def deliverCallOff (s : AppState) : Bool × AppState := E.deliver cancelPumpAttempts s

end Surroundings

/-! ### What a homeserver reads off a path -/

/-- The two segments that vary, decoded: the event type and the transaction id. -/
def readSendToDevicePath (path : String) : Option (String × String) := do
  let rest ← sendToDevicePrefix.toList.isPrefixOf? path.toList
  let segments := rest.span (· ≠ '/')
  let id ← segments.2.tail?
  if id.contains '/' then none
  else return (← decodeURIComponent (String.ofList segments.1),
    ← decodeURIComponent (String.ofList id))

/-- The path is read at its last two segments, whatever they are. -/
theorem readSendToDevicePath_sendToDevicePath (eventType id : String) :
    readSendToDevicePath (sendToDevicePath eventType id) = some (eventType, id) := by
  have hslash : ∀ s : String, '/' ∉ (encodeURIComponent s).toList := fun s =>
    not_mem_encodeURIComponent (by decide) (by decide)
  have hpath : (sendToDevicePath eventType id).toList = sendToDevicePrefix.toList ++
      ((encodeURIComponent eventType).toList ++ '/' :: (encodeURIComponent id).toList) := by
    rw [sendToDevicePath, String.toList_append, String.toList_append, String.toList_append,
      List.append_assoc, List.append_assoc]
    rfl
  have hspan : ((encodeURIComponent eventType).toList ++
      '/' :: (encodeURIComponent id).toList).span (· ≠ '/') =
      ((encodeURIComponent eventType).toList, '/' :: (encodeURIComponent id).toList) := by
    have hkept : ∀ c ∈ (encodeURIComponent eventType).toList, decide (c ≠ '/') = true := by
      intro c hc
      have hne : c ≠ '/' := fun h => hslash eventType (h ▸ hc)
      simpa using hne
    rw [List.span_eq_takeWhile_dropWhile, List.takeWhile_append_of_pos hkept,
      List.dropWhile_append_of_pos hkept]
    simp
  have hcontains : (encodeURIComponent id).toList.contains '/' = false := by
    simpa using hslash id
  have hrest : sendToDevicePrefix.toList.isPrefixOf? (sendToDevicePath eventType id).toList =
      some ((encodeURIComponent eventType).toList ++ '/' :: (encodeURIComponent id).toList) :=
    List.isPrefixOf?_eq_some_iff_append_eq.mpr hpath.symm
  unfold readSendToDevicePath
  rw [hrest, Option.bind_eq_bind, Option.bind_some, hspan]
  simp only [List.tail?_cons, Option.bind_eq_bind, Option.bind_some, hcontains,
    String.ofList_toList, decodeURIComponent_encodeURIComponent]
  rfl

/-- **A homeserver reads the event type and the id back off the path.** -/
theorem callFor_toDevice_read {r : ToDeviceRequest} {body : Json}
    (h : describeToDevice r = .ok body) (plan : ScannedCodePlan) (id : String) :
    ∃ path, callFor plan ⟨id, PendingKind.toDevice.tag, body⟩ =
        some ⟨"PUT", plan.homeserver ++ path, plan.accessToken, some body⟩ ∧
      readSendToDevicePath path = some (r.eventType, id) := by
  obtain ⟨⟨name, messages⟩, hmessages, hbody⟩ := bind_eq_ok.mp h
  obtain ⟨_, _, hentry⟩ := map_eq_ok.mp hmessages
  have hname : name = "messages" := (congrArg Prod.fst hentry).symm
  have htype : eventTypeOf body = r.eventType := by
    rw [← pure_eq_ok.mp hbody, hname]
    simp [eventTypeOf, Json.field?]
  refine ⟨sendToDevicePath r.eventType id, ?_, readSendToDevicePath_sendToDevicePath _ _⟩
  rw [← htype]
  rfl

/-- The event type and the id of an encrypted message, whatever stands in the id. -/
theorem callFor_toDevice_read_message : ∃ path,
    callFor ⟨"https://example.org", "@alice:example.org", "PHONE", "token"⟩
        ⟨"m/1", PendingKind.toDevice.tag, .obj [("event_type", .str "m.room.encrypted"),
          ("txn_id", .str "m/1"), ("messages", .obj [])]⟩ =
        some ⟨"PUT", "https://example.org" ++ path, "token",
          some (.obj [("event_type", .str "m.room.encrypted"), ("txn_id", .str "m/1"),
            ("messages", .obj [])])⟩ ∧
      readSendToDevicePath path = some ("m.room.encrypted", "m/1") := by
  have hbody : describeToDevice ⟨"m.room.encrypted", "m/1", some (.obj [])⟩ =
      .ok (.obj [("event_type", .str "m.room.encrypted"), ("txn_id", .str "m/1"),
        ("messages", .obj [])]) := rfl
  exact callFor_toDevice_read hbody ⟨"https://example.org", "@alice:example.org", "PHONE", "token"⟩
    "m/1"

/-! ### Waiting and reporting -/

/-- The call neither queues, nor takes, nor reports a success. -/
def LeavesRegistry : Call → Prop
  | .markFailed _ _ | .upstream _ => True
  | _ => False

namespace Surroundings

variable {E : Surroundings}

/-- Nothing that others call while the product waits touches the registry. -/
def Idle (E : Surroundings) : Prop := ∀ s, ∀ c ∈ E.meanwhile s, LeavesRegistry c

theorem serve_of_leavesRegistry {s : AppState} {c : Call} (hc : LeavesRegistry c) :
    (E.serve s c).process.requests = s.process.requests := by
  cases c with
  | markFailed id status =>
    show (markRequestFailed s.process id status).2.requests = s.process.requests
    rw [markRequestFailed_process]
  | upstream store => rfl
  | _ => exact absurd hc id

theorem foldl_serve_of_leavesRegistry {cs : List Call} (hcs : ∀ c ∈ cs, LeavesRegistry c) :
    ∀ s : AppState, (cs.foldl E.serve s).process.requests = s.process.requests ∧
      (cs.foldl E.serve s).exchanges = s.exchanges := by
  induction cs with
  | nil =>
    intro s
    exact ⟨rfl, rfl⟩
  | cons c cs ih =>
    intro s
    obtain ⟨hrequests, hexchanges⟩ := ih (fun c' hc' => hcs c' (List.mem_cons_of_mem _ hc'))
      (E.serve s c)
    rw [serve_of_leavesRegistry (hcs c List.mem_cons_self)] at hrequests
    exact ⟨hrequests, hexchanges⟩

theorem await_requests (hE : E.Idle) (s : AppState) :
    (E.await s).process.requests = s.process.requests :=
  (foldl_serve_of_leavesRegistry (hE s) _).1

theorem await_exchanges (hE : E.Idle) (s : AppState) : (E.await s).exchanges = s.exchanges :=
  (foldl_serve_of_leavesRegistry (hE s) _).2

/-- A report settles the request, where it was of a success and is taken, or changes nothing. -/
theorem report_requests (E : Surroundings) (s : AppState) (request : OutgoingRequest)
    (response : HttpResult) :
    (∃ answer, response.isSuccess = true ∧ (E.report s request response).2.process.requests =
        s.process.requests.settle request.id answer) ∨
      ((E.report s request response).2.process.requests = s.process.requests ∧
        ((E.report s request response).1 = .ok () → response.isSuccess = false)) := by
  unfold report
  cases hsuccess : response.isSuccess with
  | false =>
    refine Or.inr ⟨?_, fun _ => rfl⟩
    show (markRequestFailed s.process request.id response.status).2.requests = _
    rw [markRequestFailed_process]
  | true =>
    simp only [if_true]
    cases hmark : (markRequestSent E.parsers E.account s.process request.id response.text
        (E.consumed s)).1 with
    | error e =>
      refine Or.inr ⟨?_, fun h => ?_⟩
      · show (markRequestSent E.parsers E.account s.process request.id response.text
          (E.consumed s)).2.requests = s.process.requests
        exact markRequestSent_error hmark
      · cases h
    | ok _ =>
      obtain ⟨_, _, answer, -, -, -, -, heq⟩ := markRequestSent_ok hmark
      refine Or.inl ⟨answer, trivial, ?_⟩
      show (markRequestSent E.parsers E.account s.process request.id response.text
        (E.consumed s)).2.requests = s.process.requests.settle request.id answer
      rw [heq]

theorem report_exchanges (E : Surroundings) (s : AppState) (request : OutgoingRequest)
    (response : HttpResult) : (E.report s request response).2.exchanges = s.exchanges := by
  unfold report
  cases response.isSuccess <;> rfl

end Surroundings

/-! ### What the loop does -/

/-- What a stretch of the loop did, with what it posted. -/
structure Posted (s t : AppState) (xs : List Exchange) : Prop where
  exchanges : t.exchanges = s.exchanges ++ xs
  /-- Nothing comes to wait. -/
  carries : ∀ i, t.process.requests.Carries i → s.process.requests.Carries i
  /-- What is pending no more was answered by a success. -/
  pending : ∀ i, t.process.requests.pending.get? i = none →
    s.process.requests.pending.get? i = none ∨
      ∃ x ∈ xs, x.request.id = i ∧ x.response.isSuccess = true
  settled : ∀ i, s.process.requests.pending.get? i = none →
    t.process.requests.pending.get? i = none

namespace Posted

theorem of_requests {s t : AppState} {xs : List Exchange}
    (hexchanges : t.exchanges = s.exchanges ++ xs)
    (hrequests : t.process.requests = s.process.requests) : Posted s t xs where
  exchanges := hexchanges
  carries := fun _ h => hrequests ▸ h
  pending := fun _ h => Or.inl (hrequests ▸ h)
  settled := fun _ h => hrequests ▸ h

theorem trans {s t u : AppState} {xs ys : List Exchange} (h : Posted s t xs) (h' : Posted t u ys) :
    Posted s u (xs ++ ys) where
  exchanges := by rw [h'.exchanges, h.exchanges, List.append_assoc]
  carries := fun i hi => h.carries i (h'.carries i hi)
  pending := by
    intro i hi
    rcases h'.pending i hi with ht | ⟨x, hx, hid⟩
    · rcases h.pending i ht with hs | ⟨x, hx, hid⟩
      · exact Or.inl hs
      · exact Or.inr ⟨x, List.mem_append_left _ hx, hid⟩
    · exact Or.inr ⟨x, List.mem_append_right _ hx, hid⟩
  settled := fun i hi => h'.settled i (h.settled i hi)

end Posted

namespace Surroundings

variable {E : Surroundings}

/-- The requests of some exchanges. -/
def requestsOf (xs : List Exchange) : List OutgoingRequest := xs.map Exchange.request

/-- One turn posts its request or fails; where it succeeds, a success was taken. -/
theorem post_spec (hE : E.Idle) (s : AppState) (request : OutgoingRequest) :
    ∃ xs, Posted s (E.post s request).2 xs ∧ requestsOf xs <+: [request] ∧
      ((E.post s request).1 = .ok () → requestsOf xs = [request] ∧ ∀ x ∈ xs,
        x.response.isSuccess = true →
          (E.post s request).2.process.requests.pending.get? x.request.id = none) := by
  unfold post
  cases hcall : callFor E.plan request with
  | none => exact ⟨[], .of_requests (by simp) rfl, List.nil_prefix, fun h => by cases h⟩
  | some call =>
    cases hhttp : E.http (E.await s) call with
    | none =>
      refine ⟨[], .of_requests ?_ ?_, List.nil_prefix, fun h => ?_⟩
      · simp only [hhttp, List.append_nil]
        exact await_exchanges hE s
      · simp only [hhttp]
        exact await_requests hE s
      · simp only [hhttp] at h
        cases h
    | some response =>
      let x : Exchange := ⟨request, call, response⟩
      let t : AppState := { E.await s with exchanges := (E.await s).exchanges ++ [x] }
      simp only [hhttp]
      show ∃ xs, Posted s (E.report (E.await t) request response).2 xs ∧ _ ∧ _
      have ht : (E.await t).process.requests = s.process.requests :=
        (await_requests hE t).trans (await_requests hE s)
      have hexchanges : (E.report (E.await t) request response).2.exchanges =
          s.exchanges ++ [x] := by
        rw [report_exchanges, await_exchanges hE t]
        show (E.await s).exchanges ++ [x] = s.exchanges ++ [x]
        rw [await_exchanges hE s]
      refine ⟨[x], ?_, List.prefix_rfl, ?_⟩
      · rcases E.report_requests (E.await t) request response with ⟨answer, hok, hreq⟩ | ⟨hreq, -⟩
        · rw [ht] at hreq
          refine ⟨hexchanges, fun i hi => ?_, fun i hi => ?_, fun i hi => ?_⟩
          · rw [hreq, RequestState.settle_eq] at hi
            exact RequestState.carries_of_queues hi (fun _ h => Or.inl h) (fun _ h => .claim h)
              rfl rfl rfl rfl
          · rw [hreq, RequestState.settle_pending, OrdMap.get?_erase] at hi
            by_cases heq : i = request.id
            · exact Or.inr ⟨x, List.mem_singleton_self x, heq.symm, hok⟩
            · rw [if_neg heq] at hi
              exact Or.inl hi
          · rw [hreq, RequestState.settle_pending, OrdMap.get?_erase, hi, ite_self]
        · exact .of_requests hexchanges (hreq.trans ht)
      · intro hresult
        refine ⟨rfl, fun y hy hok => ?_⟩
        rw [List.mem_singleton.mp hy] at hok ⊢
        rcases E.report_requests (E.await t) request response with ⟨answer, -, hreq⟩ | ⟨-, hfail⟩
        · rw [hreq, RequestState.settle_pending, OrdMap.get?_erase, if_pos rfl]
        · have hcontra : response.isSuccess = false := hfail hresult
          rw [hcontra] at hok
          cases hok

/-- **The loop posts a prefix of its batch, in order**, and all of it where it succeeds. -/
theorem postAll_spec (hE : E.Idle) (requests : List OutgoingRequest) : ∀ s : AppState,
    ∃ xs, Posted s (E.postAll requests s).2 xs ∧ requestsOf xs <+: requests ∧
      ((E.postAll requests s).1 = .ok () → requestsOf xs = requests ∧ ∀ x ∈ xs,
        x.response.isSuccess = true →
          (E.postAll requests s).2.process.requests.pending.get? x.request.id = none) := by
  induction requests with
  | nil =>
    intro s
    exact ⟨[], .of_requests (by simp [postAll]) rfl, List.prefix_rfl, fun _ => ⟨rfl, by simp⟩⟩
  | cons request requests ih =>
    intro s
    obtain ⟨xs, hposted, hrest, hok⟩ := post_spec hE s request
    unfold postAll
    rcases hresult : E.post s request with ⟨_ | _, t⟩
    · rw [hresult] at hposted
      refine ⟨xs, hposted, hrest.trans ⟨requests, rfl⟩, fun h => by cases h⟩
    · rw [hresult] at hposted hok
      obtain ⟨hxs, hsettled⟩ := hok rfl
      obtain ⟨ys, hposted', hrest', hok'⟩ := ih t
      refine ⟨xs ++ ys, hposted.trans hposted', ?_, fun h => ?_⟩
      · rw [requestsOf, List.map_append, ← requestsOf, ← requestsOf, hxs, List.singleton_append]
        exact (List.prefix_cons_inj request).mpr hrest'
      · obtain ⟨hys, hsettled'⟩ := hok' h
        refine ⟨?_, fun x hx hsuccess => ?_⟩
        · rw [requestsOf, List.map_append, ← requestsOf, ← requestsOf, hxs, hys,
            List.singleton_append]
        · rcases List.mem_append.mp hx with hx | hx
          · exact hposted'.settled _ (hsettled x hx hsuccess)
          · exact hsettled' x hx hsuccess

/-! ### A pump -/

/-- A pump that is handed a batch runs the loop over it. -/
theorem pump_of_take {s : AppState} {out : List OutgoingRequest}
    (htake : ((E.await s).process.requests.takeOutgoingRequests E.account
      (E.offered (E.await s))).1 = .ok out) :
    E.pump s = ((E.postAll out (E.serve (E.await s) (.take (E.offered (E.await s))))).1.map
        fun _ => out.length,
      (E.postAll out (E.serve (E.await s) (.take (E.offered (E.await s))))).2) := by
  unfold pump
  simp only [htake]
  rcases E.postAll out (E.serve (E.await s) (.take (E.offered (E.await s)))) with ⟨_ | _, _⟩ <;> rfl

end Surroundings

/-- The request is pending, and waits nowhere: no take hands it out unless upstream offers it. -/
structure AppState.Stranded (s : AppState) (id : String) : Prop where
  pending : s.process.requests.pending.get? id ≠ none
  queues : ¬ s.process.requests.Carries id

namespace Surroundings

variable {E : Surroundings}

/-- **What becomes of every request a pump was handed.**  It posts them in order, up to where it
fails; those that no success was reported of are pending and wait nowhere.  A pump that succeeds
has posted them all, and settled exactly those that were answered by a success. -/
theorem pump_disposes (hE : E.Idle) {s : AppState} {out : List OutgoingRequest}
    (htake : (s.process.requests.takeOutgoingRequests E.account (E.offered (E.await s))).1 =
      .ok out) :
    ∃ xs, (E.pump s).2.exchanges = s.exchanges ++ xs ∧ requestsOf xs <+: out ∧
      (∀ i, ¬ (E.pump s).2.process.requests.Carries i) ∧
      (∀ request ∈ out, (E.pump s).2.Stranded request.id ∨
        ∃ x ∈ xs, x.request.id = request.id ∧ x.response.isSuccess = true) ∧
      ∀ n, (E.pump s).1 = .ok n → n = out.length ∧ requestsOf xs = out ∧
        ∀ x ∈ xs, x.response.isSuccess = true →
          (E.pump s).2.process.requests.pending.get? x.request.id = none := by
  rw [← await_requests hE s] at htake
  rw [pump_of_take htake]
  -- the take empties the queues and makes every request of the batch pending
  obtain ⟨_, prepared, -, -, hsection, heq⟩ := RequestState.takeOutgoingRequests_ok htake
  obtain ⟨fresh, -, hout, hleft⟩ := RequestState.takeSection_ok hsection
  let t : AppState := E.serve (E.await s) (.take (E.offered (E.await s)))
  have ht : t.process.requests = (E.await s).process.requests.handedOut fresh := heq.trans hleft
  obtain ⟨xs, hposted, hrest, hok⟩ := postAll_spec hE out t
  have hcarries : ∀ i, ¬ (E.postAll out t).2.process.requests.Carries i := by
    intro i hi
    have hwaits := hposted.carries i hi
    rw [ht] at hwaits
    exact RequestState.not_carries_handedOut hwaits
  refine ⟨xs, ?_, hrest, hcarries, fun request hrequest => ?_, fun n hn => ?_⟩
  · show (E.postAll out t).2.exchanges = s.exchanges ++ xs
    rw [hposted.exchanges]
    show (E.await s).exchanges ++ xs = s.exchanges ++ xs
    rw [await_exchanges hE s]
  · by_cases hpending : (E.postAll out t).2.process.requests.pending.get? request.id = none
    · rcases hposted.pending _ hpending with hnone | hanswered
      · rw [hout] at hrequest
        obtain ⟨e, he, rfl⟩ := List.mem_map.mp hrequest
        rw [ht] at hnone
        exact absurd hnone (RequestState.pending_of_mem_handOut he)
      · exact Or.inr hanswered
    · exact Or.inl ⟨hpending, hcarries _⟩
  · obtain ⟨_, hresult, hlength⟩ := map_eq_ok.mp hn
    exact ⟨hlength.symm, hok hresult⟩

/-! A homeserver that refuses a call-off. -/

/-- The request that calls a flow off. -/
def callOff : UpstreamOutgoingRequest :=
  ⟨"t1", .toDeviceRequest ⟨"m.key.verification.cancel", "t1", some (.obj [])⟩⟩

/-- It waits, and nothing else does. -/
def callingOff : AppState where
  process := ⟨RequestState.initial.queueActionRequest callOff, ⟨none, none, false⟩⟩
  handed := []
  exchanges := []
  awaited := 0

/-- The homeserver answers everything with a failure of its own. -/
def refusing : Surroundings where
  parsers := ⟨fun _ => none, fun _ _ => false, fun _ => none⟩
  account := "@alice:example.org"
  plan := ⟨"https://example.org", "@alice:example.org", "PHONE", "token"⟩
  offered := fun _ => some ⟨.ok [], none⟩
  consumed := fun _ => none
  http := fun _ _ => some ⟨502, "{}"⟩
  parse := fun _ => none
  received := fun _ _ => none
  meanwhile := fun _ => []

/-- What is handed out for it. -/
def callOffRequest : OutgoingRequest :=
  ⟨"t1", "to_device", .obj [("event_type", .str "m.key.verification.cancel"),
    ("txn_id", .str "t1"), ("messages", .obj [])]⟩

theorem refusing_idle : refusing.Idle := fun _ _ h => absurd h (by simp [refusing])

theorem take_callingOff :
    (callingOff.process.requests.takeSection refusing.account []).1 = .ok [callOffRequest] := rfl

/-- It is refused, and stays pending where nothing hands it out. -/
theorem pump_disposes_refused :
    ∃ xs, (refusing.pump callingOff).2.exchanges = callingOff.exchanges ++ xs ∧
      requestsOf xs <+: [callOffRequest] ∧
      (∀ i, ¬ (refusing.pump callingOff).2.process.requests.Carries i) ∧
      (∀ request ∈ [callOffRequest], (refusing.pump callingOff).2.Stranded request.id ∨
        ∃ x ∈ xs, x.request.id = request.id ∧ x.response.isSuccess = true) ∧
      ∀ n, (refusing.pump callingOff).1 = .ok n → n = [callOffRequest].length ∧
        requestsOf xs = [callOffRequest] ∧ ∀ x ∈ xs, x.response.isSuccess = true →
          (refusing.pump callingOff).2.process.requests.pending.get? x.request.id = none :=
  pump_disposes refusing_idle (take_callingOff : _)

end Surroundings

/-! ### A call-off -/

/-- Where nothing waits, a batch is what was prepared. -/
theorem collect_of_not_carries {s : RequestState} (h : ∀ i, ¬ s.Carries i) (account : String)
    (prepared : List Fresh) : s.collect account prepared = .ok prepared := by
  have htoDevice : s.queuedToDevice.entries = [] := by
    refine List.eq_nil_iff_forall_not_mem.mpr fun e he => h e.1 (.toDevice (r := e.2) ?_)
    exact OrdMap.get?_eq_some.mpr he
  have hclaim : s.pendingClaim = none :=
    Option.eq_none_iff_forall_not_mem.mpr fun e he => h e.1 (.claim he)
  have hquery : s.queuedAccountQuery = none :=
    Option.eq_none_iff_forall_not_mem.mpr fun e he => h e.2.1 (.stamped (.accountQuery he))
  have hkeys : s.queuedSigningKeys = none :=
    Option.eq_none_iff_forall_not_mem.mpr fun e he => h e.2.1 (.stamped (.signingKeys he))
  have hpeer : s.queuedPeerQueries = [] :=
    List.eq_nil_iff_forall_not_mem.mpr fun e he => h e.1 (.peerQuery he)
  have haction : s.queuedAction = [] :=
    List.eq_nil_iff_forall_not_mem.mpr fun e he => h e.2.requestId (.stamped (.action he))
  unfold RequestState.collect
  rw [htoDevice, hclaim, hquery, hkeys, hpeer, haction]
  simp [pure, Except.pure, bind, Except.bind]

namespace Surroundings

variable {E : Surroundings}

/-- Upstream offers nothing. -/
def OffersNothing (E : Surroundings) (s : AppState) : Prop :=
  ∃ o, E.offered s = some o ∧ prepare E.account o = .ok []

/-- Upstream offers something. -/
def OffersSomething (E : Surroundings) (s : AppState) : Prop :=
  ∃ o f fresh, E.offered s = some o ∧ prepare E.account o = .ok (f :: fresh)

/-- Nothing that others call touches the registry, and upstream offers nothing any more once the
first pump is over. -/
structure QuietAfter (E : Surroundings) (s : AppState) : Prop where
  idle : E.Idle
  offered : ∀ t, (E.pump s).2.awaited < t.awaited → E.OffersNothing t

theorem foldl_serve_awaited (cs : List Call) :
    ∀ s : AppState, (cs.foldl E.serve s).awaited = s.awaited := by
  induction cs with
  | nil => exact fun _ => rfl
  | cons c cs ih => exact fun s => ih (E.serve s c)

theorem await_awaited (s : AppState) : (E.await s).awaited = s.awaited + 1 :=
  foldl_serve_awaited _ _

/-- A pump where nothing waits and nothing is offered is handed nothing, and leaves what is
pending. -/
theorem pump_of_not_carries (hE : E.Idle) {s : AppState}
    (hs : ∀ i, ¬ s.process.requests.Carries i) (hnothing : E.OffersNothing (E.await s)) :
    (E.pump s).1 = .ok 0 ∧ (E.pump s).2.exchanges = s.exchanges ∧
      (E.pump s).2.process.requests.pending = s.process.requests.pending ∧
      ∀ i, ¬ (E.pump s).2.process.requests.Carries i := by
  have hawait : (E.await s).process.requests = s.process.requests := await_requests hE s
  have hcollect : (E.await s).process.requests.collect E.account [] = .ok [] := by
    rw [hawait]
    exact collect_of_not_carries hs E.account []
  obtain ⟨o, hoffered, hprepare⟩ := hnothing
  have htake : ((E.await s).process.requests.takeOutgoingRequests E.account
      (E.offered (E.await s))).1 = .ok [] := by
    rw [hoffered]
    simp only [RequestState.takeOutgoingRequests, hprepare]
    rw [RequestState.takeSection, hcollect]
    rfl
  have hleft : (E.serve (E.await s) (.take (E.offered (E.await s)))).process.requests =
      s.process.requests.handedOut [] := by
    show ((E.await s).process.requests.takeOutgoingRequests E.account
      (E.offered (E.await s))).2 = _
    rw [hoffered]
    simp only [RequestState.takeOutgoingRequests, hprepare, RequestState.takeSection, hcollect]
    rw [hawait]
  rw [pump_of_take htake]
  refine ⟨rfl, await_exchanges hE s, ?_, fun i => ?_⟩
  · show (E.serve (E.await s) (.take (E.offered (E.await s)))).process.requests.pending = _
    rw [hleft]
    rfl
  · show ¬ (E.serve (E.await s) (.take (E.offered (E.await s)))).process.requests.Carries i
    rw [hleft]
    exact RequestState.not_carries_handedOut

/-- The loop ends with a pump that is handed nothing. -/
theorem deliver_of_ok_zero {s : AppState} (h : (E.pump s).1 = .ok 0) (n : ℕ) :
    E.deliver (n + 1) s = (true, (E.pump s).2) := by
  unfold deliver
  rcases hresult : E.pump s with ⟨result, t⟩
  rw [hresult] at h
  simp only [show result = .ok 0 from h]

/-- With any other it goes on, while it has pumps left. -/
theorem deliver_of_ne {s : AppState} (h : (E.pump s).1 ≠ .ok 0) (n : ℕ) :
    E.deliver (n + 1) s =
      if n = 0 then (false, (E.pump s).2) else E.deliver n (E.await (E.pump s).2) := by
  rw [deliver]
  rcases hresult : E.pump s with ⟨result, t⟩
  rw [hresult] at h
  split
  · next heq => exact absurd (Prod.mk.inj heq).1 h
  · next heq => rw [(Prod.mk.inj heq).2]

/-- **Where upstream offers nothing any more, a call-off is said to be delivered whatever the
homeserver answers**, and it is posted at most once: what the first pump did not deliver waits
nowhere when the second one asks. -/
theorem deliverCallOff_of_quiet {s : AppState} (hE : E.QuietAfter s) {out : List OutgoingRequest}
    (hs : (s.process.requests.takeOutgoingRequests E.account (E.offered (E.await s))).1 =
      .ok out) :
    (E.deliverCallOff s).1 = true ∧ ∃ xs,
      (E.deliverCallOff s).2.exchanges = s.exchanges ++ xs ∧ requestsOf xs <+: out ∧
      ∀ request ∈ out, (E.deliverCallOff s).2.Stranded request.id ∨
        ∃ x ∈ xs, x.request.id = request.id ∧ x.response.isSuccess = true := by
  obtain ⟨xs, hexchanges, hrest, hcarries, hout, -⟩ := pump_disposes hE.idle hs
  -- the loop ends with the first pump, or with the second, which finds nothing waiting
  by_cases hzero : (E.pump s).1 = .ok 0
  · have hloop : E.deliverCallOff s = (true, (E.pump s).2) := deliver_of_ok_zero hzero _
    rw [hloop]
    exact ⟨rfl, xs, hexchanges, hrest, hout⟩
  · let t : AppState := E.await (E.pump s).2
    have hawait : t.process.requests = (E.pump s).2.process.requests := await_requests hE.idle _
    have hempty : ∀ i, ¬ t.process.requests.Carries i := hawait ▸ hcarries
    have hnothing : E.OffersNothing (E.await t) := by
      apply hE.offered
      rw [await_awaited, await_awaited]
      omega
    obtain ⟨hend, hexchanges', hpending', hcarries'⟩ :=
      pump_of_not_carries hE.idle hempty hnothing
    have hloop : E.deliverCallOff s = (true, (E.pump t).2) := by
      rw [← deliver_of_ok_zero hend 1]
      exact deliver_of_ne hzero 2
    rw [hloop]
    refine ⟨rfl, xs, ?_, hrest, fun request hrequest => ?_⟩
    · rw [hexchanges', await_exchanges hE.idle, hexchanges]
    · rcases hout request hrequest with hstranded | hanswered
      · refine Or.inl ⟨?_, hcarries' _⟩
        rw [hpending', hawait]
        exact hstranded.pending
      · exact Or.inr hanswered

theorem refusing_quiet : refusing.QuietAfter callingOff where
  idle := refusing_idle
  offered := fun _ _ => ⟨_, rfl, rfl⟩

/-- The refused call-off is said to be delivered. -/
theorem deliverCallOff_of_quiet_refused :
    (refusing.deliverCallOff callingOff).1 = true ∧ ∃ xs,
      (refusing.deliverCallOff callingOff).2.exchanges = callingOff.exchanges ++ xs ∧
      requestsOf xs <+: [callOffRequest] ∧
      ∀ request ∈ [callOffRequest],
        (refusing.deliverCallOff callingOff).2.Stranded request.id ∨
          ∃ x ∈ xs, x.request.id = request.id ∧ x.response.isSuccess = true :=
  deliverCallOff_of_quiet refusing_quiet take_callingOff

/-- A pump that upstream offers something to is handed something, or fails. -/
theorem pump_of_offersSomething {s : AppState} (h : E.OffersSomething (E.await s)) :
    (E.pump s).1 ≠ .ok 0 := by
  obtain ⟨o, f, fresh, hoffered, hprepare⟩ := h
  intro hzero
  cases htake : ((E.await s).process.requests.takeOutgoingRequests E.account
      (E.offered (E.await s))).1 with
  | error e =>
    unfold pump at hzero
    simp only [htake] at hzero
    cases hzero
  | ok out =>
    rw [pump_of_take htake] at hzero
    obtain ⟨_, -, hlength⟩ := map_eq_ok.mp hzero
    obtain ⟨_, prepared, htrip, hprep, hsection, -⟩ := RequestState.takeOutgoingRequests_ok htake
    rw [hoffered] at htrip
    obtain rfl := Option.some.inj htrip
    rw [hprepare] at hprep
    obtain rfl := Except.ok.inj hprep
    obtain ⟨all, hcollect, rfl, -⟩ := RequestState.takeSection_ok hsection
    have hf : f ∈ all := (RequestState.mem_collect hcollect f).mpr (Or.inl List.mem_cons_self)
    obtain ⟨k, hk, -⟩ := exists_mem_stamp (n := (E.await s).process.requests.nextSequence) hf
    have hentry := RequestState.mem_handOut.mpr hk
    rw [List.length_map] at hlength
    rw [List.length_eq_zero_iff.mp hlength] at hentry
    cases hentry

/-- **Where upstream goes on offering, no call-off is said to be delivered**, whatever the
homeserver answered of it. -/
theorem deliverCallOff_of_offersSomething (hE : ∀ s, E.OffersSomething s) (s : AppState) :
    (E.deliverCallOff s).1 = false := by
  have hloop : ∀ n s, (E.deliver n s).1 = false := by
    intro n
    induction n with
    | zero => exact fun _ => rfl
    | succ n ih =>
      intro s
      rw [deliver_of_ne (pump_of_offersSomething (hE _))]
      split
      · rfl
      · exact ih _
  exact hloop _ s

end Surroundings

end App
end MatrixCrypto
