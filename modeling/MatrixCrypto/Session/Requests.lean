import MatrixCrypto.Lib.Json
import MatrixCrypto.Lib.OrdMap
import Mathlib.Data.String.Basic

/-!
# Requests: the kinds, and what crosses the boundary

The upstream requests the pump carries, the kind each is remembered under, and
the wire body each becomes.  A field that is only ever serialised is kept as
what serialising it gives (`Value`); a field the code also reads keeps both
(`Encoded`).

## Main definitions

* `PendingKind`, with `tag`, `declaredResponseFields` and `evictionGroup`.
* `AnyOutgoingRequest`, `UpstreamOutgoingRequest` — upstream's requests.
* `describeOutgoing` and its four siblings — the wire bodies.
* `accountScoped` — which key queries ask about this account.
* `OutgoingRequest` — what the product is handed.

## Main results

* `evictionGroup_eq_tag_or` — a group is the endpoint's tag, with one exception.
* `accountScoped_eq_or` — scoping only ever narrows an ordinary key query.
-/

namespace MatrixCrypto

open Lib

/-! ### Errors -/

/-- Errors from operating on the crypto machine, less the decryption kinds no
function here returns. -/
inductive SessionError
  | malformedPayload
  | malformedIdentifier
  | notInitialised
  | failed
  | unknownRequest
  | notAFailureStatus
  deriving DecidableEq, Repr

/-! ### Serialising -/

/-- What serialising a field gives; `none` when its `Serialize` refuses. -/
abbrev Value := Option Json

/-- A field the code reads, with what serialising it gives. -/
structure Encoded (α : Type) where
  value : α
  json : Value

/-- `to_json`: a refusal is an error, never an empty value. -/
def toJson : Value → Except SessionError Json
  | some v => .ok v
  | none => .error .failed

/-- A field of a body under construction. -/
def entry (name : String) (v : Value) : Except SessionError (String × Json) :=
  (toJson v).map fun j => (name, j)

/-- The `timeout` entry, omitted when upstream set none: whole milliseconds,
cast to 64 bits. -/
def timeoutEntry : Option ℕ → List (String × Json)
  | some ms => [("timeout", .num (ms % 2 ^ 64 : ℕ) 0)]
  | none => []

/-! ### Kinds -/

/-- Which response shape an id coming back must be parsed as. -/
inductive PendingKind
  | keysUpload
  | keysQuery
  /-- A key query whose user list names this machine's own account. -/
  | accountKeysQuery
  /-- The same question, asked out of band. -/
  | accountKeysQueryOutOfBand
  /-- A key query about another person, owed by a scanned verification. -/
  | peerKeysQueryOutOfBand
  | keysClaim
  | toDevice
  | signatureUpload
  | roomMessage
  | signingKeysUpload
  | roomKeyBackup
  deriving DecidableEq, Repr

namespace PendingKind

/-- The public `kind` string.  Four kinds of key query share one tag. -/
def tag : PendingKind → String
  | keysUpload => "keys_upload"
  | keysQuery | accountKeysQuery | accountKeysQueryOutOfBand | peerKeysQueryOutOfBand =>
    "keys_query"
  | keysClaim => "keys_claim"
  | toDevice => "to_device"
  | signatureUpload => "signature_upload"
  | roomMessage => "room_message"
  | signingKeysUpload => "signing_keys_upload"
  | roomKeyBackup => "room_key_backup"

/-- The top-level fields this kind's response type declares. -/
def declaredResponseFields : PendingKind → List String
  | keysUpload => ["one_time_key_counts"]
  | keysQuery | accountKeysQuery | accountKeysQueryOutOfBand | peerKeysQueryOutOfBand =>
    ["failures", "device_keys", "master_keys", "self_signing_keys", "user_signing_keys"]
  | keysClaim => ["failures", "one_time_keys"]
  | signatureUpload => ["failures"]
  | roomMessage => ["event_id"]
  | roomKeyBackup => ["etag", "count"]
  | toDevice | signingKeysUpload => []

/-- Which handed-out ids a fresh request of this kind makes obsolete. -/
def evictionGroup : PendingKind → Option String
  | keysUpload => some (tag keysUpload)
  | keysQuery => some (tag keysQuery)
  | accountKeysQuery => some (tag accountKeysQuery)
  | keysClaim => some (tag keysClaim)
  | signingKeysUpload => some (tag signingKeysUpload)
  -- not its tag: an ordinary key query must not evict it
  | accountKeysQueryOutOfBand => some "account_keys_query_out_of_band"
  | toDevice | signatureUpload | roomMessage | peerKeysQueryOutOfBand | roomKeyBackup => none

/-- The kinds whose accepted answer is asked what it says about the account. -/
def asksAboutAccount : PendingKind → Bool
  | accountKeysQuery | accountKeysQueryOutOfBand => true
  | _ => false

/-- A group is its kind's tag, the out-of-band query about the account apart. -/
theorem evictionGroup_eq_tag_or {k : PendingKind} {g : String} (h : k.evictionGroup = some g) :
    g = k.tag ∨ k = accountKeysQueryOutOfBand := by
  cases k <;> simp_all [evictionGroup]

/-- No kind declares a field that marks an error. -/
theorem declaredResponseFields_no_marker (k : PendingKind) :
    "errcode" ∉ k.declaredResponseFields ∧ "error" ∉ k.declaredResponseFields ∧
      "flows" ∉ k.declaredResponseFields := by
  cases k <;> decide

end PendingKind

/-! ### Upstream's requests -/

/-- `/keys/query`: the users asked about. -/
structure KeysQueryRequest where
  deviceKeys : Encoded (OrdMap String (List String))
  timeout : Option ℕ

/-- `/keys/claim`. -/
structure KeysClaimRequest where
  oneTimeKeys : Value
  timeout : Option ℕ

/-- `sendToDevice`; its transaction id doubles as the request id. -/
structure ToDeviceRequest where
  eventType : String
  txnId : String
  messages : Value

/-- `/keys/device_signing/upload`, in upstream's own three-field struct. -/
structure UploadSigningKeysRequest where
  masterKey : Option Value
  selfSigningKey : Option Value
  userSigningKey : Option Value

/-- `/room_keys/keys`. -/
structure KeysBackupRequest where
  version : String
  rooms : Value

/-- Upstream's six kinds of outgoing request. -/
inductive AnyOutgoingRequest
  | keysUpload (deviceKeys : Option Value) (oneTimeKeys fallbackKeys : Encoded (List String))
  | keysQuery (r : KeysQueryRequest)
  | keysClaim (r : KeysClaimRequest)
  | toDeviceRequest (r : ToDeviceRequest)
  | signatureUpload (signedKeys : Value)
  | roomMessage (roomId eventType txnId content : Value)

/-- An outgoing request with the id upstream gave it. -/
structure UpstreamOutgoingRequest where
  requestId : String
  request : AnyOutgoingRequest

/-! ### Wire bodies -/

/-- The body of a `/keys/claim`. -/
def describeKeysClaim (r : KeysClaimRequest) : Except SessionError Json := do
  let keys ← entry "one_time_keys" r.oneTimeKeys
  return .obj (keys :: timeoutEntry r.timeout)

/-- The body of a `/keys/query`. -/
def describeKeysQuery (r : KeysQueryRequest) : Except SessionError Json := do
  let keys ← entry "device_keys" r.deviceKeys.json
  return .obj (keys :: timeoutEntry r.timeout)

/-- The body of a `/keys/device_signing/upload`: the keys that are there, and
no `auth`. -/
def describeSigningKeys (r : UploadSigningKeysRequest) : Except SessionError Json := do
  let present := [("master_key", r.masterKey), ("self_signing_key", r.selfSigningKey),
    ("user_signing_key", r.userSigningKey)].filterMap fun f => f.2.map fun v => (f.1, v)
  return .obj (← present.mapM fun f => entry f.1 f.2)

/-- The body of a `/room_keys/keys`, with the `version` its URL needs. -/
def describeBackup (r : KeysBackupRequest) : Except SessionError Json := do
  let rooms ← entry "rooms" r.rooms
  return .obj [("version", .str r.version), rooms]

/-- The body of a `sendToDevice`: the whole struct, as it serialises. -/
def describeToDevice (r : ToDeviceRequest) : Except SessionError Json := do
  let messages ← entry "messages" r.messages
  return .obj [("event_type", .str r.eventType), ("txn_id", .str r.txnId), messages]

/-- A key map of a `/keys/upload`, left out when it is empty. -/
def uploadedKeys (name : String) (keys : Encoded (List String)) :
    Except SessionError (List (String × Json)) :=
  if keys.value.isEmpty then .ok [] else (entry name keys.json).map fun f => [f]

/-- Flattens one upstream request into a kind and a body. -/
def describeOutgoing : AnyOutgoingRequest → Except SessionError (PendingKind × Json)
  | .keysUpload deviceKeys oneTimeKeys fallbackKeys => do
    let device ← deviceKeys.toList.mapM (entry "device_keys")
    let oneTime ← uploadedKeys "one_time_keys" oneTimeKeys
    let fallback ← uploadedKeys "fallback_keys" fallbackKeys
    return (.keysUpload, .obj (device ++ oneTime ++ fallback))
  | .keysQuery r => do return (.keysQuery, ← describeKeysQuery r)
  | .keysClaim r => do return (.keysClaim, ← describeKeysClaim r)
  | .toDeviceRequest r => do return (.toDevice, ← describeToDevice r)
  | .signatureUpload signedKeys => do return (.signatureUpload, ← toJson signedKeys)
  | .roomMessage roomId eventType txnId content => do
    let fields ← [("room_id", roomId), ("event_type", eventType), ("txn_id", txnId),
      ("content", content)].mapM fun f => entry f.1 f.2
    return (.roomMessage, .obj fields)

/-- The kind `describe_outgoing` gives a request. -/
def AnyOutgoingRequest.kind : AnyOutgoingRequest → PendingKind
  | keysUpload .. => .keysUpload
  | keysQuery _ => .keysQuery
  | keysClaim _ => .keysClaim
  | toDeviceRequest _ => .toDevice
  | signatureUpload _ => .signatureUpload
  | roomMessage .. => .roomMessage

/-- Narrows a key query to the account-scoped kind when it names `account`. -/
def accountScoped (kind : PendingKind) (request : AnyOutgoingRequest) (account : String) :
    PendingKind :=
  match kind, request with
  | .keysQuery, .keysQuery r =>
    if r.deviceKeys.value.contains account then .accountKeysQuery else .keysQuery
  | kind, _ => kind

/-- The kind a request is handed out under. -/
def UpstreamOutgoingRequest.kindFor (r : UpstreamOutgoingRequest) (account : String) :
    PendingKind := accountScoped r.request.kind r.request account

/-- Scoping changes nothing but an ordinary key query. -/
theorem accountScoped_eq_or (kind : PendingKind) (request : AnyOutgoingRequest)
    (account : String) :
    accountScoped kind request account = kind ∨
      (kind = .keysQuery ∧ accountScoped kind request account = .accountKeysQuery) := by
  unfold accountScoped
  split
  · split
    · exact Or.inr ⟨rfl, rfl⟩
    · exact Or.inl rfl
  · exact Or.inl rfl

/-- What the product must send. -/
structure OutgoingRequest where
  id : String
  kind : String
  body : Json

end MatrixCrypto
