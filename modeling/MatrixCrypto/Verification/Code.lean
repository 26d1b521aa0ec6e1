import MatrixCrypto.Verification.Lookup

/-!
# Verifying by a code

`read_code` and `submit_scanned_code`, section by section.  The two ask upstream to
build a code for a request, which upstream does for one that is ready and for one that
has moved on: the code takes the place of whatever the request had become.  A code that is
built while another verification with the user is kept is cancelled, and so is the other.

## Main definitions

* `CodeError` — what the two calls fail with.
* `CodeFormat`, `draw` — how a code is written down, and read back.
* `whyNoCode` — the reason given where upstream builds none.
* `Upstream.insertCode`, `Upstream.carryCode` — a code in the place of what was there.
* `Upstream.showsCode`, `Upstream.scansCode` — what upstream asks before it builds one.
* `Upstream.generateQrCode`, `Upstream.scanQrCode` — upstream's two calls.
* `ReadCall`, `ReadNext` — the sections of `read_code`.
* `SubmitCall`, `SubmitNext` — the sections of `submit_scanned_code`.
-/

namespace MatrixCrypto

/-- `MachineError`, with the kinds only a call for a code returns. -/
inductive CodeError
  | machine (e : MachineError)
  | codeNotOffered
  | peerCannotScan
  | peerIdentityNotKnown
  | scannedCodeUnrecognised
  | scannedCodeMalformed
  | scannedCodeForAnotherFlow
  | scannedCodeRefused
  deriving DecidableEq, Repr

/-! ### A code, written down -/

/-- Upstream's `DecodingError`, less what its variants carry. -/
inductive DecodingError
  | header
  | version
  | mode
  | utf8
  | read
  | sharedSecret
  | keys
  deriving DecidableEq, Repr

/-- What `submit_scanned_code` makes of a payload that is no code. -/
def classifyDecodingError : DecodingError → CodeError
  | .header | .version | .mode => .scannedCodeUnrecognised
  | .utf8 | .read | .sharedSecret | .keys => .scannedCodeMalformed

/-- What `submit_scanned_code` makes of a code upstream refuses, for this account. -/
def classifyScanError (own : String) : ScanError → CodeError
  | .store => .machine .store
  | .missingCrossSigningIdentity user =>
    if user = own then .machine .identityNotKnown else .peerIdentityNotKnown
  | .flowIdMismatch => .scannedCodeForAnotherFlow
  | .keyMismatch => .scannedCodeRefused
  | .missingDeviceKeys => .machine .unknownDevice

/-- A square of a symbol. -/
inductive Color
  | light
  | dark
  deriving DecidableEq, Repr

/-- The symbol upstream draws for a code. -/
structure Symbol where
  width : ℕ
  colors : List Color
  deriving DecidableEq, Repr

/-- The two forms of one code. -/
structure ScannableCode where
  payload : List UInt8
  width : ℕ
  /-- The squares, dark ones `true`. -/
  modules : List Bool
  deriving DecidableEq, Repr

/-- How upstream writes a code down, and reads one back. -/
structure CodeFormat where
  /-- `QrVerificationData`. -/
  Data : Type
  /-- `from_bytes`. -/
  fromBytes : List UInt8 → Except DecodingError Data
  /-- `to_bytes`; it fails for a flow id that does not fit. -/
  toBytes : QrVerification → Option (List UInt8)
  /-- `to_qr_code`; it fails where the bytes do not fit. -/
  toQrCode : QrVerification → Option Symbol

/-- `draw`: the two forms of a code. -/
def draw (F : CodeFormat) (code : QrVerification) : Except CodeError ScannableCode :=
  match F.toBytes code, F.toQrCode code with
  | some payload, some symbol =>
    .ok ⟨payload, symbol.width % 2 ^ 32, symbol.colors.map fun square => square == .dark⟩
  | _, _ => .error (.machine .malformedIdentifier)

/-- A code of the flow `f1` as it is written down: its header, its flow, two keys and a
secret. -/
def exampleFormat : CodeFormat where
  Data := Unit
  fromBytes := fun _ => .error .header
  toBytes := fun _ => some ([77, 65, 84, 82, 73, 88, 2, 0, 0, 2, 102, 49] ++ List.replicate 72 7)
  toQrCode := fun _ => some ⟨45, List.replicate (45 * 45) .dark⟩

/-! ### Why there is no code -/

/-- What the machine answers about identities. -/
structure Identities where
  /-- `get_identity`: whether one is stored for the user, if the store answers. -/
  stored : String → Except Unit Bool
  /-- `cross_signing_status`: whether it is complete. -/
  complete : Bool

/-- The second half of `why_no_code`: the negotiation, as far as it is known, and then the
identities. -/
def whyAgreed (u : Upstream) (ids : Identities) (request : VerificationRequest)
    (negotiated : Option CodeNegotiation) : CodeError :=
  if negotiated.any fun n => !n.weAnnouncedShowing then .codeNotOffered
  else if negotiated.any fun n => !n.theyAnnouncedScanning then .peerCannotScan
  else
    let ours := request.otherUser == u.userId
    match ids.stored request.otherUser with
    | .error _ => .machine .store
    | .ok false => if ours then .machine .identityNotKnown else .peerIdentityNotKnown
    | .ok true =>
      if ours then .machine .wrongStage
      else if !ids.complete then .machine .privateKeysNotHeld
      else .machine .wrongStage

/-- `why_no_code`: the methods are read off a request that is ready, and only remembered
for one that has moved on. -/
def whyNoCode (u : Upstream) (ids : Identities) (request : VerificationRequest)
    (remembered : Option CodeNegotiation) : CodeError :=
  match u.requestState request with
  | .created | .requested _ | .done | .cancelled => .machine .wrongStage
  | .ready ourMethods theirMethods => whyAgreed u ids request
    (some ⟨ourMethods.contains .qrCodeShowV1, theirMethods.contains .qrCodeScanV1⟩)
  | .transitioned _ => whyAgreed u ids request remembered

/-! ### What upstream does -/

namespace Upstream

/-- A code is put in the cache.  It replaces a code of its flow there; beside any other
verification with its user it is cancelled, as that one is. -/
def insertCode (u : Upstream) (q : QrVerification) (state : QrVerificationState) : Upstream :=
  match u.getVerification q.otherUserId q.flowId with
  | some (.qr _) => (u.setCode q state).route q.otherUserId q.flowId (.qr q)
  | _ => ((u.clear q.otherUserId).setCode q
      (if (u.rivals q.otherUserId).isEmpty then state else .cancelled)).route
        q.otherUserId q.flowId (.qr q)

/-- A code takes the place of whatever the request had become, in the request and in
upstream's cache. -/
def carryCode (u : Upstream) (r : VerificationRequest) (q : QrVerification)
    (state : QrVerificationState) : Upstream := (u.insertCode q state).becomes r (.qr q)

/-- Upstream builds codes for requests that are ready, and for those that have moved on. -/
def buildsCodes (u : Upstream) (r : VerificationRequest) : Bool :=
  match u.requestState r with
  | .ready _ _ | .transitioned _ => true
  | .created | .requested _ | .done | .cancelled => false

/-- What `generate_qr_code` asks of the methods, in one condition: this side announced that it
shows a code, and the far side that it scans one. -/
def agreedOnCode (u : Upstream) (r : VerificationRequest) : Bool :=
  (u.methodsOf r).1.contains .qrCodeShowV1 && (u.methodsOf r).2.contains .qrCodeScanV1

/-- All that `generate_qr_code` asks: the state, the methods, the identities and the keys. -/
def showsCode (u : Upstream) (r : VerificationRequest) : Bool :=
  u.buildsCodes r && u.agreedOnCode r && u.hasCodeKeys r

/-- All that `scan_qr_code` asks of a payload that is a code. -/
def scansCode (u : Upstream) (r : VerificationRequest) (payload : List UInt8) : Bool :=
  u.buildsCodes r && (u.scanError r payload).isNone

/-- `generate_qr_code`, where it answers with this code. -/
def generateQrCode (u : Upstream) (r : VerificationRequest) (q : QrVerification) :
    Option Upstream := if u.showsCode r then some (u.carryCode r q .started) else none

/-- `scan_qr_code`, where it answers with this code. -/
def scanQrCode (u : Upstream) (r : VerificationRequest) (payload : List UInt8)
    (q : QrVerification) : Option Upstream :=
  if u.scansCode r payload then some (u.carryCode r q .reciprocated) else none

theorem buildsCodes_of_showsCode {u : Upstream} {r : VerificationRequest}
    (h : u.showsCode r = true) : u.buildsCodes r = true :=
  (Bool.and_eq_true_iff.mp (Bool.and_eq_true_iff.mp h).1).1

section carry

variable (u : Upstream) (r : VerificationRequest) (q : QrVerification)
  (state : QrVerificationState)

/-- But for the code, inserting one leaves of a verification what it was, or cancels it. -/
theorem retires_insertCode : ∃ w state', Retires u w ∧
    (state' = state ∨ state' = .cancelled) ∧
      u.insertCode q state = (w.setCode q state').route q.otherUserId q.flowId (.qr q) := by
  unfold insertCode
  split
  · exact ⟨u, state, .refl u, Or.inl rfl, rfl⟩
  · refine ⟨_, _, retires_clear u _, ?_, rfl⟩
    split
    · exact Or.inl rfl
    · exact Or.inr rfl

@[simp] theorem carryCode_requestState :
    (u.carryCode r q state).requestState r = .transitioned (.qr q) := becomes_requestState ..

/-- A code lands in the cache, and its flow's messages go to it. -/
theorem getVerification_carryCode (user id : String) :
    (u.carryCode r q state).getVerification user id =
      if user = q.otherUserId ∧ id = q.flowId then some (.qr q) else u.getVerification user id := by
  obtain ⟨w, state', hretires, -, heq⟩ := retires_insertCode u q state
  show (u.insertCode q state).getVerification user id = _
  rw [heq, getVerification_route]
  show (if _ then _ else (w.verifications user).get? id) = _
  rw [hretires.verifications]
  rfl

/-- Where the flow's messages go to no code, no comparison with the user outlives a code built
beside it. -/
theorem isFinal_carryCode {c : Sas} {id : String}
    (h : u.getVerification q.otherUserId id = some (.sas c))
    (hno : ∀ q', u.getVerification q.otherUserId q.flowId ≠ some (.qr q')) :
    ((u.carryCode r q state).sasState c).isFinal = true := by
  show ((u.insertCode q state).sasState c).isFinal = true
  unfold insertCode
  split
  · next q' hq' => exact absurd hq' (hno q')
  · exact isFinal_clear h

/-- The code does not live either. -/
theorem codeState_carryCode {c : Sas}
    (h : u.getVerification q.otherUserId q.flowId = some (.sas c))
    (hlive : (u.sasState c).isFinal = false) :
    (u.carryCode r q state).codeState q = .cancelled := by
  have hrival := mem_rivals h hlive
  show (u.insertCode q state).codeState q = _
  unfold insertCode
  split
  · next q' hq' =>
    rw [h] at hq'
    cases hq'
  · rw [route_codeState, setCode_codeState, if_neg]
    intro hempty
    rw [List.isEmpty_iff.mp hempty] at hrival
    cases hrival

end carry

end Upstream

/-- The code is one of the request's flow. -/
def QrVerification.IsOf (q : QrVerification) (r : VerificationRequest) : Prop :=
  q.flowId = r.flowId ∧ q.otherUserId = r.otherUser

/-! ### `read_code` -/

/-- `read_code`, between two of its sections. -/
inductive ReadCall
  /-- Finding its flow. -/
  | finding (flowId : String) (l : Lookup)
  /-- It has the handles; about to take the machine. -/
  | building (flowId : String) (request : VerificationRequest)
      (negotiation : Option CodeNegotiation)
  /-- Upstream built none. -/
  | explaining (request : VerificationRequest) (negotiation : Option CodeNegotiation)
  | drawing (flowId : String) (code : QrVerification)
  | remembering (flowId : String) (code : QrVerification) (scannable : ScannableCode)

/-- One section of `read_code`. -/
inductive ReadNext (F : CodeFormat) (ids : Identities) (s : FlowState) :
    ReadCall → FlowState → ReadCall ⊕ Except CodeError ScannableCode → Prop
  | finds {flowId : String} {l l' : Lookup} {t : FlowState} (h : LookupNext s l t (.inl l')) :
      ReadNext F ids s (.finding flowId l) t (.inl (.finding flowId l'))
  | findsNone {flowId : String} {l : Lookup} {t : FlowState} {e : MachineError}
      (h : LookupNext s l t (.inr (.error e))) :
      ReadNext F ids s (.finding flowId l) t (.inr (.error (.machine e)))
  | found {flowId : String} {l : Lookup} {t : FlowState} {handles : Handles}
      {request : VerificationRequest} (h : LookupNext s l t (.inr (.ok handles)))
      (hr : handles.request = some request) :
      ReadNext F ids s (.finding flowId l) t
        (.inl (.building flowId request handles.negotiation))
  | requestless {flowId : String} {l : Lookup} {t : FlowState} {handles : Handles}
      (h : LookupNext s l t (.inr (.ok handles))) (hr : handles.request = none) :
      ReadNext F ids s (.finding flowId l) t (.inr (.error (.machine .wrongStage)))
  | builds {flowId : String} {request : VerificationRequest}
      {negotiation : Option CodeNegotiation} {code : QrVerification} {u : Upstream}
      (hflow : code.IsOf request) (h : s.upstream.generateQrCode request code = some u) :
      ReadNext F ids s (.building flowId request negotiation) { s with upstream := u }
        (.inl (.drawing flowId code))
  | buildsNone {flowId : String} {request : VerificationRequest}
      {negotiation : Option CodeNegotiation} :
      ReadNext F ids s (.building flowId request negotiation) s
        (.inl (.explaining request negotiation))
  | buildFails {flowId : String} {request : VerificationRequest}
      {negotiation : Option CodeNegotiation} :
      ReadNext F ids s (.building flowId request negotiation) s (.inr (.error (.machine .store)))
  | explains {request : VerificationRequest} {negotiation : Option CodeNegotiation} :
      ReadNext F ids s (.explaining request negotiation) s
        (.inr (.error (whyNoCode s.upstream ids request negotiation)))
  | draws {flowId : String} {code : QrVerification} {scannable : ScannableCode}
      (h : draw F code = .ok scannable) :
      ReadNext F ids s (.drawing flowId code) s (.inl (.remembering flowId code scannable))
  -- upstream has built the code all the same
  | undrawable {flowId : String} {code : QrVerification} {e : CodeError}
      (h : draw F code = .error e) :
      ReadNext F ids s (.drawing flowId code) s (.inr (.error e))
  | remembers {flowId : String} {code : QrVerification} {scannable : ScannableCode} :
      ReadNext F ids s (.remembering flowId code scannable)
        { s with flows := s.flows.rememberCode flowId code } (.inr (.ok scannable))

/-! ### `submit_scanned_code` -/

/-- `submit_scanned_code`, between two of its sections. -/
inductive SubmitCall
  | finding (flowId : String) (payload : List UInt8) (l : Lookup)
  /-- It has the handles; about to take the machine. -/
  | scanning (flowId : String) (payload : List UInt8) (request : VerificationRequest)
  | remembering (flowId : String) (code : QrVerification) (outgoing : UpstreamOutgoingRequest)
  | queueing (outgoing : UpstreamOutgoingRequest)

/-- One section of `submit_scanned_code`. -/
inductive SubmitNext (F : CodeFormat) (s : FlowState) :
    SubmitCall → FlowState → SubmitCall ⊕ Except CodeError Unit → Prop
  | finds {flowId : String} {payload : List UInt8} {l l' : Lookup} {t : FlowState}
      (h : LookupNext s l t (.inl l')) :
      SubmitNext F s (.finding flowId payload l) t (.inl (.finding flowId payload l'))
  | findsNone {flowId : String} {payload : List UInt8} {l : Lookup} {t : FlowState}
      {e : MachineError} (h : LookupNext s l t (.inr (.error e))) :
      SubmitNext F s (.finding flowId payload l) t (.inr (.error (.machine e)))
  | found {flowId : String} {payload : List UInt8} {l : Lookup} {t : FlowState}
      {handles : Handles} {request : VerificationRequest}
      (h : LookupNext s l t (.inr (.ok handles))) (hr : handles.request = some request) :
      SubmitNext F s (.finding flowId payload l) t (.inl (.scanning flowId payload request))
  | requestless {flowId : String} {payload : List UInt8} {l : Lookup} {t : FlowState}
      {handles : Handles} (h : LookupNext s l t (.inr (.ok handles)))
      (hr : handles.request = none) :
      SubmitNext F s (.finding flowId payload l) t (.inr (.error (.machine .wrongStage)))
  | undecoded {flowId : String} {payload : List UInt8} {request : VerificationRequest}
      {e : DecodingError} (h : F.fromBytes payload = .error e) :
      SubmitNext F s (.scanning flowId payload request) s
        (.inr (.error (classifyDecodingError e)))
  | refused {flowId : String} {payload : List UInt8} {request : VerificationRequest}
      {data : F.Data} {e : ScanError} (h : F.fromBytes payload = .ok data)
      (he : s.upstream.scanError request payload = some e) :
      SubmitNext F s (.scanning flowId payload request) s
        (.inr (.error (classifyScanError s.upstream.userId e)))
  | scansNone {flowId : String} {payload : List UInt8} {request : VerificationRequest}
      {data : F.Data} (h : F.fromBytes payload = .ok data) :
      SubmitNext F s (.scanning flowId payload request) s (.inr (.error (.machine .wrongStage)))
  | scans {flowId : String} {payload : List UInt8} {request : VerificationRequest}
      {data : F.Data} {code : QrVerification} {outgoing : UpstreamOutgoingRequest} {u : Upstream}
      (h : F.fromBytes payload = .ok data) (hflow : code.IsOf request)
      (hscan : s.upstream.scanQrCode request payload code = some u)
      (hreciprocated : u.codeState code = .reciprocated) :
      SubmitNext F s (.scanning flowId payload request) { s with upstream := u }
        (.inl (.remembering flowId code outgoing))
  -- `reciprocate` answers nothing for a code that was cancelled as it was built
  | unreciprocated {flowId : String} {payload : List UInt8} {request : VerificationRequest}
      {data : F.Data} {code : QrVerification} {u : Upstream} (h : F.fromBytes payload = .ok data)
      (hflow : code.IsOf request) (hscan : s.upstream.scanQrCode request payload code = some u)
      (hcancelled : u.codeState code ≠ .reciprocated) :
      SubmitNext F s (.scanning flowId payload request) { s with upstream := u }
        (.inr (.error (.machine .wrongStage)))
  | remembers {flowId : String} {code : QrVerification} {outgoing : UpstreamOutgoingRequest} :
      SubmitNext F s (.remembering flowId code outgoing)
        { s with flows := s.flows.rememberCode flowId code } (.inl (.queueing outgoing))
  | queues {outgoing : UpstreamOutgoingRequest} :
      SubmitNext F s (.queueing outgoing)
        { s with requests := s.requests.queueActionRequest outgoing } (.inr (.ok ()))

end MatrixCrypto
