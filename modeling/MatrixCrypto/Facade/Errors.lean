import MatrixCrypto.Oprf.Client
import MatrixCrypto.Verification.Material

/-!
# What a product catches

An error of the core crosses the boundary as an object the generated layer throws: its
name says nothing, its message names its type and its variant, and what it carries is
nested in it.  `toCryptoError` makes the one error a product sees out of it.

## Main definitions

* `CryptoErrorKind`, `CryptoError` — what a product sees.
* `stringField`, `toCryptoError` — how it is made out of what was thrown.
* `MachineFfiError`, `SessionFfiError` and the others, `FfiError` — what the core throws.
* `FfiError.thrown` — the object it throws.

## Main results

* `variantNameFromMessage_named` — a variant is read back out of its message.
* `FfiError.toCryptoError_thrown` — what a product sees of an error of the core.
* `FfiError.told_apart` — **errors of one call that differ have kinds that differ.**
-/

namespace MatrixCrypto
namespace Facade

/-! ### The error -/

/-- `CryptoErrorKind`, less the kinds a later release may add. -/
inductive CryptoErrorKind
  | missingKey | unsharedSession | sessionRefused | unknownDevice | senderNotTrusted
  | revokedDevice | undecryptable | malformedPayload | unknownRequest | notAFailureStatus
  | failed | storeCorrupt | storeUnavailable | mismatchedAccount | rejected
  | malformedIdentifier | wrongKey | unknownFlow | wrongStage | materialNotReady
  | comparisonAlreadyStarted | verificationEnded | materialMismatch | accountKeysNotFetched
  | identityAlreadyExists | identityNotKnown | privateKeysNotHeld | recoveryNotSetUp
  | recoveryKeyIncorrect | recoveryDataMalformed | recoveryAlreadyExists
  | peerIdentityNotKnown | codeNotOffered | peerCannotScan | scannedCodeRefused
  | scannedCodeUnrecognised | scannedCodeMalformed | scannedCodeForAnotherFlow | noOffer
  | bundleUnreadable | notWhatWasAnnounced | wrongPassphrase | proofRejected | notImplemented
  | notInitialised | alreadyInitialised | unknown
  deriving DecidableEq, Repr

/-- A kind, as it is written. -/
def CryptoErrorKind.text : CryptoErrorKind → String
  | missingKey => "missing_key"
  | unsharedSession => "unshared_session"
  | sessionRefused => "session_refused"
  | unknownDevice => "unknown_device"
  | senderNotTrusted => "sender_not_trusted"
  | revokedDevice => "revoked_device"
  | undecryptable => "undecryptable"
  | malformedPayload => "malformed_payload"
  | unknownRequest => "unknown_request"
  | notAFailureStatus => "not_a_failure_status"
  | failed => "failed"
  | storeCorrupt => "store_corrupt"
  | storeUnavailable => "store_unavailable"
  | mismatchedAccount => "mismatched_account"
  | rejected => "rejected"
  | malformedIdentifier => "malformed_identifier"
  | wrongKey => "wrong_key"
  | unknownFlow => "unknown_flow"
  | wrongStage => "wrong_stage"
  | materialNotReady => "material_not_ready"
  | comparisonAlreadyStarted => "comparison_already_started"
  | verificationEnded => "verification_ended"
  | materialMismatch => "material_mismatch"
  | accountKeysNotFetched => "account_keys_not_fetched"
  | identityAlreadyExists => "identity_already_exists"
  | identityNotKnown => "identity_not_known"
  | privateKeysNotHeld => "private_keys_not_held"
  | recoveryNotSetUp => "recovery_not_set_up"
  | recoveryKeyIncorrect => "recovery_key_incorrect"
  | recoveryDataMalformed => "recovery_data_malformed"
  | recoveryAlreadyExists => "recovery_already_exists"
  | peerIdentityNotKnown => "peer_identity_not_known"
  | codeNotOffered => "code_not_offered"
  | peerCannotScan => "peer_cannot_scan"
  | scannedCodeRefused => "scanned_code_refused"
  | scannedCodeUnrecognised => "scanned_code_unrecognised"
  | scannedCodeMalformed => "scanned_code_malformed"
  | scannedCodeForAnotherFlow => "scanned_code_for_another_flow"
  | noOffer => "no_offer"
  | bundleUnreadable => "bundle_unreadable"
  | notWhatWasAnnounced => "not_what_was_announced"
  | wrongPassphrase => "wrong_passphrase"
  | proofRejected => "proof_rejected"
  | notImplemented => "not_implemented"
  | notInitialised => "not_initialised"
  | alreadyInitialised => "already_initialised"
  | unknown => "unknown"

/-- `CryptoError`, less its stack. -/
structure CryptoError where
  message : String
  kind : CryptoErrorKind
  retriable : Bool
  sender : Option String
  scope : Option String
  deriving DecidableEq, Repr

/-- `KIND_BY_NAME`. -/
def kindByName : List (String × CryptoErrorKind) :=
  [("Rejected", .rejected), ("NotImplemented", .notImplemented), ("MissingKey", .missingKey),
    ("UnsharedSession", .unsharedSession), ("SessionRefused", .sessionRefused),
    ("UnknownDevice", .unknownDevice), ("SenderNotTrusted", .senderNotTrusted),
    ("NoOffer", .noOffer), ("WrongKey", .wrongKey), ("WrongPassphrase", .wrongPassphrase),
    ("ProofRejected", .proofRejected), ("BundleUnreadable", .bundleUnreadable),
    ("MalformedSecret", .malformedPayload), ("NotWhatWasAnnounced", .notWhatWasAnnounced),
    ("Undecryptable", .undecryptable), ("MalformedPayload", .malformedPayload),
    ("Failed", .failed), ("UnknownRequest", .unknownRequest),
    ("NotAFailureStatus", .notAFailureStatus), ("Store", .storeUnavailable),
    ("MismatchedAccount", .mismatchedAccount), ("MalformedIdentifier", .malformedIdentifier),
    ("NotInitialised", .notInitialised), ("AlreadyInitialised", .alreadyInitialised),
    ("UnknownFlow", .unknownFlow), ("WrongStage", .wrongStage),
    ("MaterialNotReady", .materialNotReady),
    ("ComparisonAlreadyStarted", .comparisonAlreadyStarted),
    ("VerificationEnded", .verificationEnded), ("MaterialMismatch", .materialMismatch),
    ("AccountKeysNotFetched", .accountKeysNotFetched),
    ("IdentityAlreadyExists", .identityAlreadyExists), ("IdentityNotKnown", .identityNotKnown),
    ("PrivateKeysNotHeld", .privateKeysNotHeld), ("RecoveryNotSetUp", .recoveryNotSetUp),
    ("RecoveryKeyIncorrect", .recoveryKeyIncorrect),
    ("RecoveryDataMalformed", .recoveryDataMalformed),
    ("RecoveryAlreadyExists", .recoveryAlreadyExists),
    ("PeerIdentityNotKnown", .peerIdentityNotKnown), ("CodeNotOffered", .codeNotOffered),
    ("PeerCannotScan", .peerCannotScan), ("ScannedCodeRefused", .scannedCodeRefused),
    ("ScannedCodeUnrecognised", .scannedCodeUnrecognised),
    ("ScannedCodeMalformed", .scannedCodeMalformed),
    ("ScannedCodeForAnotherFlow", .scannedCodeForAnotherFlow)]

/-- `RETRIABLE`. -/
def retriable : List CryptoErrorKind := [.missingKey, .unsharedSession]

/-- `MESSAGE_BY_KIND`: what a refusal that carries nothing says. -/
def messageByKind : CryptoErrorKind → Option String
  | .noOffer => some (
      "no history bundle has been offered by that sender for that scope. The announcement is a " ++
      "to-device event, so it exists for this device only once a sync carrying it has been fed " ++
      "through receiveSyncChanges: sync, then ask offeredHistoryBundle again, and only call " ++
      "receiveHistoryBundle once it answers. Nothing was refused here -- there was nothing to " ++
      "refuse.")
  | .accountKeysNotFetched => some (
      "this library cannot yet say what identity this account has, so it will not publish or " ++
      "create one. The key query that lifts this has already been queued: drain " ++
      "takeOutgoingRequests, send it, report it with markRequestSent, and call again. If " ++
      "getIdentityStatus().accountKeysAnswerUnsettled is true, calling again will do exactly " ++
      "this again: stop looping and check the userId you passed to createCryptoMachine against " ++
      "the canonical user_id your login returned.")
  | .identityNotKnown => some (
      "this library cannot show the homeserver an identity for this account: either it has " ++
      "none, or this device holds one no homeserver has ever accepted, which " ++
      "getIdentityStatus().identityPublicationPending tells apart. Either way the call is " ++
      "createCrossSigningIdentity, and it is destructive if the account turns out to have " ++
      "an identity after all: do not call it from this handler. It belongs where your " ++
      "product has decided this account should be getting its first identity, having " ++
      "checked something it knows and this library cannot, such as that no other session " ++
      "is listed on the account.")
  | .identityAlreadyExists => some (
      "this account already has a cross-signing identity and this device does not hold its " ++
      "private keys. Join it with requestSelfVerification, or restore it with " ++
      "recoverIdentity. Replacing it would reset the trust of everyone who has verified this " ++
      "account, and no call on this surface will do it.")
  | .privateKeysNotHeld => some (
      "this device does not hold this account’s private signing keys, so there is nothing " ++
      "for it to write into server-side storage. getIdentityStatus says whether the remedy is " ++
      "to join the account’s identity or to create one.")
  | _ => none

/-! ### How it is made -/

/-- A property that is a string. -/
def textProperty (source : JsValue) (name : String) : Option String :=
  match source.get name with
  | .string s => some s
  | _ => none

/-- `stringField`: a field of what was thrown, at its top or nested in it. -/
def stringField (source : JsValue) (name : String) : Option String :=
  (textProperty source name).or
    (if (source.get "inner").isObject then textProperty (source.get "inner") name else none)

/-- The text up to the first `": "`. -/
def beforeColon : List Char → List Char
  | ':' :: ' ' :: _ => []
  | c :: text => c :: beforeColon text
  | [] => []

/-- `variantNameFromMessage`. -/
def variantNameFromMessage (message : String) : Option String :=
  match message.toList.dropWhile (· ≠ '.') with
  | [] => none
  | _ :: afterDot => some (String.ofList (beforeColon afterDot))

/-- The kind of what was thrown: by its name, or else by the variant its message names. -/
def kindOf (source : JsValue) : CryptoErrorKind :=
  ((kindByName.lookup ((textProperty source "name").getD "")).or
    (kindByName.lookup
      (((textProperty source "message").bind variantNameFromMessage).getD ""))).getD .unknown

/-- `toCryptoError`. -/
def toCryptoError (raw : JsValue) : CryptoError :=
  let source := if raw.isObject then raw else .object .plain [] []
  let kind := kindOf source
  let reason := (stringField source "reason").or (stringField source "detail")
  { message := (reason.or (messageByKind kind)).getD ("crypto error: " ++ kind.text)
    kind
    retriable := retriable.contains kind
    sender := stringField source "sender"
    scope := stringField source "scope" }

/-! ### What the core throws -/

/-- `MachineFfiError`, which the core's `MachineError` becomes variant by variant. -/
inductive MachineFfiError
  | notInitialised | alreadyInitialised
  | malformedIdentifier (detail : String)
  | store (detail : String)
  | mismatchedAccount | unknownFlow | wrongStage | materialNotReady | unknownDevice
  | accountKeysNotFetched | identityAlreadyExists | identityNotKnown | privateKeysNotHeld
  | recoveryNotSetUp | recoveryKeyIncorrect | recoveryDataMalformed | recoveryAlreadyExists
  | peerIdentityNotKnown | codeNotOffered | scannedCodeRefused | scannedCodeUnrecognised
  | scannedCodeMalformed | scannedCodeForAnotherFlow | peerCannotScan
  deriving DecidableEq, Repr

/-- `SessionFfiError`, which the core's `SessionError` becomes. -/
inductive SessionFfiError
  | malformedPayload | notInitialised | failed | unknownRequest | missingKey | unsharedSession
  | unknownDevice | undecryptable | sessionRefused | malformedIdentifier | notAFailureStatus
  | senderNotTrusted
  deriving DecidableEq, Repr

/-- `HistoryFfiError`, which the core's `HistoryError` becomes. -/
inductive HistoryFfiError
  | malformedIdentifier | malformedPayload | notInitialised | failed | noOffer | senderNotTrusted
  | bundleUnreadable
  deriving DecidableEq, Repr

/-- `AttachmentFfiError`, which the core's `AttachmentError` becomes. -/
inductive AttachmentFfiError
  | malformedSecret | notWhatWasAnnounced | failed
  deriving DecidableEq, Repr

/-- `BackupFfiError`, which the core's `BackupError` becomes. -/
inductive BackupFfiError
  | malformedIdentifier | malformedPayload | notInitialised | failed | wrongKey
  deriving DecidableEq, Repr

/-- `VaultFfiError`, which the core's `VaultError` becomes. -/
inductive VaultFfiError
  | notInitialised | failed | malformedPayload | wrongPassphrase
  deriving DecidableEq, Repr

/-- An error of the core, of any call. -/
inductive FfiError
  /-- `ProbeFfiError.Rejected`. -/
  | probe (reason : String)
  | machine (e : MachineFfiError)
  | session (e : SessionFfiError)
  | history (e : HistoryFfiError)
  | attachment (e : AttachmentFfiError)
  | backup (e : BackupFfiError)
  | vault (e : VaultFfiError)
  | oprf (e : OprfError)
  deriving DecidableEq

namespace FfiError

/-- The name of its type. -/
def typeName : FfiError → String
  | probe _ => "ProbeFfiError"
  | machine _ => "MachineFfiError"
  | session _ => "SessionFfiError"
  | history _ => "HistoryFfiError"
  | attachment _ => "AttachmentFfiError"
  | backup _ => "BackupFfiError"
  | vault _ => "VaultFfiError"
  | oprf _ => "OprfFfiError"

/-- The name of its variant. -/
def variant : FfiError → String
  | probe _ => "Rejected"
  | machine .notInitialised | session .notInitialised | history .notInitialised
  | backup .notInitialised | vault .notInitialised => "NotInitialised"
  | machine .alreadyInitialised => "AlreadyInitialised"
  | machine (.malformedIdentifier _) | session .malformedIdentifier
  | history .malformedIdentifier | backup .malformedIdentifier => "MalformedIdentifier"
  | machine (.store _) => "Store"
  | machine .mismatchedAccount => "MismatchedAccount"
  | machine .unknownFlow => "UnknownFlow"
  | machine .wrongStage => "WrongStage"
  | machine .materialNotReady => "MaterialNotReady"
  | machine .unknownDevice | session .unknownDevice => "UnknownDevice"
  | machine .accountKeysNotFetched => "AccountKeysNotFetched"
  | machine .identityAlreadyExists => "IdentityAlreadyExists"
  | machine .identityNotKnown => "IdentityNotKnown"
  | machine .privateKeysNotHeld => "PrivateKeysNotHeld"
  | machine .recoveryNotSetUp => "RecoveryNotSetUp"
  | machine .recoveryKeyIncorrect => "RecoveryKeyIncorrect"
  | machine .recoveryDataMalformed => "RecoveryDataMalformed"
  | machine .recoveryAlreadyExists => "RecoveryAlreadyExists"
  | machine .peerIdentityNotKnown => "PeerIdentityNotKnown"
  | machine .codeNotOffered => "CodeNotOffered"
  | machine .scannedCodeRefused => "ScannedCodeRefused"
  | machine .scannedCodeUnrecognised => "ScannedCodeUnrecognised"
  | machine .scannedCodeMalformed => "ScannedCodeMalformed"
  | machine .scannedCodeForAnotherFlow => "ScannedCodeForAnotherFlow"
  | machine .peerCannotScan => "PeerCannotScan"
  | session .malformedPayload | history .malformedPayload | backup .malformedPayload
  | vault .malformedPayload | oprf .malformedPayload => "MalformedPayload"
  | session .failed | history .failed | attachment .failed | backup .failed
  | vault .failed => "Failed"
  | session .unknownRequest => "UnknownRequest"
  | session .missingKey => "MissingKey"
  | session .unsharedSession => "UnsharedSession"
  | session .undecryptable => "Undecryptable"
  | session .sessionRefused => "SessionRefused"
  | session .notAFailureStatus => "NotAFailureStatus"
  | session .senderNotTrusted | history .senderNotTrusted => "SenderNotTrusted"
  | history .noOffer => "NoOffer"
  | history .bundleUnreadable => "BundleUnreadable"
  | attachment .malformedSecret => "MalformedSecret"
  | attachment .notWhatWasAnnounced => "NotWhatWasAnnounced"
  | backup .wrongKey => "WrongKey"
  | vault .wrongPassphrase => "WrongPassphrase"
  | oprf .rejected => "Rejected"
  | oprf .proofRejected => "ProofRejected"

/-- The field it carries, if it carries one. -/
def field? : FfiError → Option (String × String)
  | probe reason => some ("reason", reason)
  | machine (.malformedIdentifier detail) | machine (.store detail) => some ("detail", detail)
  | _ => none

/-- The object the generated layer throws.  Its name is an error's own; its message may go on
after a colon; a variant without a field has nothing nested. -/
def thrown (e : FfiError) (more : Option String) : JsValue :=
  .object .plain [] ([("name", .string "Error"), ("message", .string (e.typeName ++ "." ++
    e.variant ++ more.elim "" fun m => ": " ++ m))] ++
    (e.field?.map fun f => ("inner", .object .plain [] [(f.1, .string f.2)])).toList)

end FfiError

/-! ### The variant, read back -/

/-- A text without a colon stands before the first one. -/
theorem beforeColon_append {text : List Char} (h : ':' ∉ text) (rest : List Char) :
    beforeColon (text ++ rest) = text ++ beforeColon rest := by
  induction text with
  | nil => rfl
  | cons c text ih =>
    have hc : c ≠ ':' := fun hc => h (hc ▸ List.mem_cons_self)
    have htext : ':' ∉ text := fun hmem => h (List.mem_cons_of_mem c hmem)
    have hcons : beforeColon (c :: (text ++ rest)) = c :: beforeColon (text ++ rest) := by
      rw [beforeColon.eq_2]
      intro text' hcolon
      exact absurd hcolon hc
    rw [List.cons_append, hcons, ih htext, List.cons_append]

/-- **A variant is read back out of its message**, whatever the message goes on with. -/
theorem variantNameFromMessage_named {type variant : String} (htype : '.' ∉ type.toList)
    (hvariant : ':' ∉ variant.toList) (more : Option String) :
    variantNameFromMessage (type ++ "." ++ variant ++ more.elim "" fun m => ": " ++ m) =
      some variant := by
  have hdrop : ∀ rest : List Char, (type.toList ++ '.' :: rest).dropWhile (· ≠ '.') =
      '.' :: rest := by
    intro rest
    rw [List.dropWhile_append_of_pos]
    · simp
    · intro c hc
      have hne : c ≠ '.' := fun h => htype (h ▸ hc)
      simpa using hne
  have hmore : beforeColon (more.elim "" fun m => ": " ++ m).toList = [] := by
    cases more with
    | none => rfl
    | some m => simp [beforeColon]
  have htext : (type ++ "." ++ variant ++ more.elim "" fun m => ": " ++ m).toList =
      type.toList ++ '.' :: (variant.toList ++ (more.elim "" fun m => ": " ++ m).toList) := by
    simp
  unfold variantNameFromMessage
  rw [htext, hdrop]
  simp only [beforeColon_append hvariant, hmore, List.append_nil, String.ofList_toList]

namespace FfiError

variable (e : FfiError)

theorem not_mem_typeName : '.' ∉ e.typeName.toList := by
  cases e <;> simp only [typeName] <;> decide

theorem not_mem_variant : ':' ∉ e.variant.toList := by
  cases e with
  | probe _ => simp only [variant]; decide
  | machine e => cases e <;> simp only [variant] <;> decide
  | session e => cases e <;> simp only [variant] <;> decide
  | history e => cases e <;> simp only [variant] <;> decide
  | attachment e => cases e <;> simp only [variant] <;> decide
  | backup e => cases e <;> simp only [variant] <;> decide
  | vault e => cases e <;> simp only [variant] <;> decide
  | oprf e => cases e <;> simp only [variant] <;> decide

/-- Every variant has a kind of its own, and the two that may be retried are a missing key
and a session that was not shared. -/
theorem lookup_variant : ∃ kind, kindByName.lookup e.variant = some kind ∧ kind ≠ .unknown ∧
    (retriable.contains kind = true ↔
      e = .session .missingKey ∨ e = .session .unsharedSession) := by
  cases e with
  | probe _ => exact ⟨_, rfl, by decide, by simp [retriable]⟩
  | machine e => cases e <;> exact ⟨_, rfl, by decide, by simp [retriable]⟩
  | session e => cases e <;> exact ⟨_, rfl, by decide, by simp [retriable]⟩
  | history e => cases e <;> exact ⟨_, rfl, by decide, by simp [retriable]⟩
  | attachment e => cases e <;> exact ⟨_, rfl, by decide, by simp [retriable]⟩
  | backup e => cases e <;> exact ⟨_, rfl, by decide, by simp [retriable]⟩
  | vault e => cases e <;> exact ⟨_, rfl, by decide, by simp [retriable]⟩
  | oprf e => cases e <;> exact ⟨_, rfl, by decide, by simp [retriable]⟩

/-- The kind a thrown error is given is its variant's. -/
theorem kindOf_thrown (more : Option String) :
    kindOf (e.thrown more) = (kindByName.lookup e.variant).getD .unknown := by
  have hname : textProperty (e.thrown more) "name" = some "Error" := by
    simp [thrown, textProperty, JsValue.get]
  have hmessage : textProperty (e.thrown more) "message" = some (e.typeName ++ "." ++
      e.variant ++ more.elim "" fun m => ": " ++ m) := by
    simp [thrown, textProperty, JsValue.get]
  have herror : kindByName.lookup "Error" = none := by decide
  unfold kindOf
  rw [hname, hmessage, Option.getD_some, herror, Option.bind_some,
    variantNameFromMessage_named e.not_mem_typeName e.not_mem_variant]
  rfl

/-- A field of a thrown error is the one nested in it. -/
theorem stringField_thrown (more : Option String) {name : String}
    (h : name ∉ ["name", "message", "inner"]) :
    stringField (e.thrown more) name =
      (e.field?.filter fun f => f.1 == name).map Prod.snd := by
  simp only [List.mem_cons, List.not_mem_nil, or_false, not_or] at h
  obtain ⟨hname, hmessage, hinner⟩ := h
  have htop : textProperty (e.thrown more) name = none := by
    cases hf : e.field? <;>
      simp [thrown, textProperty, JsValue.get, hf, Ne.symm hname, Ne.symm hmessage, Ne.symm hinner]
  unfold stringField
  rw [htop, Option.none_or]
  cases hf : e.field? with
  | none => simp [thrown, JsValue.get, JsValue.isObject, hf]
  | some f =>
    obtain ⟨key, s⟩ := f
    by_cases hkey : key = name
    · simp [thrown, JsValue.get, JsValue.isObject, textProperty, hf, hkey]
    · simp [thrown, JsValue.get, JsValue.isObject, textProperty, hf, hkey]

/-- What an error carries is a reason or a detail. -/
theorem field?_eq (f : String × String) (h : e.field? = some f) :
    f.1 = "reason" ∨ f.1 = "detail" := by
  cases e with
  | probe _ => cases h; exact Or.inl rfl
  | machine e => cases e <;> cases h <;> exact Or.inr rfl
  | session e => cases e <;> cases h
  | history e => cases e <;> cases h
  | attachment e => cases e <;> cases h
  | backup e => cases e <;> cases h
  | vault e => cases e <;> cases h
  | oprf e => cases e <;> cases h

/-- What a product sees of an error of the core: the kind of its variant, which is never
the unknown one; what it carries for its message, or else the kind's own text; that it may be
retried exactly when a key is missing or was not shared; and no sender and no scope. -/
theorem toCryptoError_thrown (more : Option String) :
    ∃ kind, kindByName.lookup e.variant = some kind ∧ kind ≠ .unknown ∧
      toCryptoError (e.thrown more) =
        { message := ((e.field?.map Prod.snd).or (messageByKind kind)).getD
            ("crypto error: " ++ kind.text)
          kind
          retriable := decide (e = .session .missingKey ∨ e = .session .unsharedSession)
          sender := none
          scope := none } := by
  obtain ⟨kind, hkind, hne, hretriable⟩ := e.lookup_variant
  refine ⟨kind, hkind, hne, ?_⟩
  have hobject : (e.thrown more).isObject = true := rfl
  have hof : kindOf (e.thrown more) = kind := by
    rw [kindOf_thrown, hkind, Option.getD_some]
  have hreason : (stringField (e.thrown more) "reason").or (stringField (e.thrown more) "detail") =
      e.field?.map Prod.snd := by
    rw [stringField_thrown e more (by decide), stringField_thrown e more (by decide)]
    cases hf : e.field? with
    | none => rfl
    | some f =>
      obtain ⟨key, s⟩ := f
      rcases e.field?_eq _ hf with rfl | rfl
      · simp
      · simp
  have hnone : ∀ name, name ∉ ["name", "message", "inner", "reason", "detail"] →
      stringField (e.thrown more) name = none := by
    intro name hname
    rw [stringField_thrown e more fun hmem => hname (by
      simp only [List.mem_cons, List.not_mem_nil, or_false] at hmem ⊢
      tauto)]
    cases hf : e.field? with
    | none => rfl
    | some f =>
      have hf' := e.field?_eq f hf
      simp only [List.mem_cons, List.not_mem_nil, or_false, not_or] at hname
      have hkey : f.1 ≠ name := by
        intro h
        rw [h] at hf'
        tauto
      simp [hkey]
  simp only [toCryptoError, if_pos hobject, hof, hreason, hnone "sender" (by decide),
    hnone "scope" (by decide), CryptoError.mk.injEq, true_and, and_true]
  rw [Bool.eq_iff_iff, hretriable, decide_eq_true_eq]

/-- Two names of one kind are one name, the two of a payload that does not parse apart. -/
theorem name_of_kind : ∀ p ∈ kindByName, ∀ q ∈ kindByName, p.2 = q.2 →
    p.1 = q.1 ∨ p.1 = "MalformedSecret" ∨ q.1 = "MalformedSecret" := by
  decide

theorem mem_of_lookup {name : String} {kind : CryptoErrorKind}
    (h : kindByName.lookup name = some kind) : (name, kind) ∈ kindByName := by
  obtain ⟨front, back, heq, -⟩ := List.lookup_eq_some_iff.mp h
  rw [heq]
  exact List.mem_append_right _ List.mem_cons_self

/-- The secret of an attachment is the only one that is malformed, and of its errors the only
one with its kind. -/
theorem variant_of_malformedSecret {e e' : FfiError} (h : e.variant = "MalformedSecret")
    (htype : e.typeName = e'.typeName)
    (hkind : kindByName.lookup e.variant = kindByName.lookup e'.variant) :
    e.variant = e'.variant := by
  have he : e = .attachment .malformedSecret := by
    cases e with
    | probe _ => simp [variant] at h
    | attachment e => cases e <;> simp [variant] at h ⊢
    | machine e => cases e <;> simp [variant] at h
    | session e => cases e <;> simp [variant] at h
    | history e => cases e <;> simp [variant] at h
    | backup e => cases e <;> simp [variant] at h
    | vault e => cases e <;> simp [variant] at h
    | oprf e => cases e <;> simp [variant] at h
  subst he
  cases e' with
  | attachment e' =>
    cases e' with
    | malformedSecret => rfl
    | notWhatWasAnnounced => exact absurd hkind (by decide)
    | failed => exact absurd hkind (by decide)
  | _ => simp [typeName] at htype

/-- Of two errors of one type with one kind, the variants are one. -/
theorem variant_eq_of_kind {e e' : FfiError} {more more' : Option String}
    (htype : e.typeName = e'.typeName)
    (hkind : (toCryptoError (e.thrown more)).kind = (toCryptoError (e'.thrown more')).kind) :
    e.variant = e'.variant := by
  obtain ⟨kind, hlookup, -, heq⟩ := e.toCryptoError_thrown more
  obtain ⟨kind', hlookup', -, heq'⟩ := e'.toCryptoError_thrown more'
  rw [heq, heq'] at hkind
  simp only at hkind
  subst hkind
  rcases name_of_kind _ (mem_of_lookup hlookup) _ (mem_of_lookup hlookup') rfl with h | h | h
  · exact h
  · exact variant_of_malformedSecret h htype (hlookup.trans hlookup'.symm)
  · exact (variant_of_malformedSecret h htype.symm (hlookup'.trans hlookup.symm)).symm

/-- **A product tells the errors of a call apart.**  None comes as the unknown kind; two of
one type have one kind exactly when they are of one variant; the one that carries a text has
it for its message; and the ones that may be retried are a missing key and a session that was
not shared. -/
theorem told_apart (e : FfiError) (more : Option String) :
    (toCryptoError (e.thrown more)).kind ≠ .unknown ∧
      (∀ (e' : FfiError) (more' : Option String), e'.typeName = e.typeName →
        ((toCryptoError (e'.thrown more')).kind = (toCryptoError (e.thrown more)).kind ↔
          e'.variant = e.variant)) ∧
      (∀ f, e.field? = some f → (toCryptoError (e.thrown more)).message = f.2) ∧
      ((toCryptoError (e.thrown more)).retriable = true ↔
        e = .session .missingKey ∨ e = .session .unsharedSession) := by
  obtain ⟨kind, hlookup, hne, heq⟩ := e.toCryptoError_thrown more
  refine ⟨?_, ?_, ?_, ?_⟩
  · rw [heq]
    exact hne
  · intro e' more' htype
    constructor
    · intro hkind
      exact variant_eq_of_kind htype hkind
    · intro hvariant
      obtain ⟨kind', hlookup', -, heq'⟩ := e'.toCryptoError_thrown more'
      rw [hvariant, hlookup] at hlookup'
      rw [heq, heq']
      exact (Option.some.inj hlookup').symm
  · intro f hf
    rw [heq, hf]
    rfl
  · rw [heq]
    simp

end FfiError

end Facade
end MatrixCrypto
