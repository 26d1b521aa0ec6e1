import MatrixCrypto.Facade.Errors
import MatrixCrypto.Lib.JsonPrint
import MatrixCrypto.Session.Share

/-!
# Encrypting and decrypting events

`encrypt_event` and `decrypt_event`: what of an event crosses the boundary, what is asked of
upstream, and which of its failures a caller may wait out.

## Main definitions

* `SenderTrustRequirement`, `VerificationState`, `SenderVerification` — what is asked of a
  sender, and what is known of one.
* `MegolmError`, `classifyMegolmError` — why an event did not decrypt.
* `Envelope`, `encryptEvent`, `decryptEvent` — the calls.

## Main results

* `classifyMegolmError_retriable` — which failures come as which error.
* `decryptEvent_eq_ok`, `decryptEvent_error` — what a call comes to, case by case.
-/

namespace MatrixCrypto

open Lib Facade

/-! ### Senders -/

/-- `SenderTrustRequirement`. -/
inductive SenderTrustRequirement
  | any
  | identitySignedOrLegacy
  | identitySigned
  deriving DecidableEq, Repr

/-- Upstream's `TrustRequirement`. -/
inductive TrustRequirement
  | untrusted
  | crossSignedOrLegacy
  | crossSigned
  deriving DecidableEq, Repr

/-- What upstream is asked to require. -/
def SenderTrustRequirement.toUpstream : SenderTrustRequirement → TrustRequirement
  | any => .untrusted
  | identitySignedOrLegacy => .crossSignedOrLegacy
  | identitySigned => .crossSigned

/-- Upstream's `VerificationState`, with its `VerificationLevel` and `DeviceLinkProblem`. -/
inductive VerificationState
  | verified
  | unverifiedIdentity
  | verificationViolation
  | unsignedDevice
  | noneMissingDevice
  | noneInsecureSource
  | mismatchedSender
  deriving DecidableEq, Repr

/-- `SenderVerification`. -/
inductive SenderVerification
  | verified
  | unverifiedIdentity
  | verificationViolation
  | unsignedDevice
  | noDeviceMissing
  | noDeviceInsecureSource
  | mismatchedSender
  deriving DecidableEq, Repr

/-- `sender_verification`. -/
def senderVerification : VerificationState → SenderVerification
  | .verified => .verified
  | .unverifiedIdentity => .unverifiedIdentity
  | .verificationViolation => .verificationViolation
  | .unsignedDevice => .unsignedDevice
  | .noneMissingDevice => .noDeviceMissing
  | .noneInsecureSource => .noDeviceInsecureSource
  | .mismatchedSender => .mismatchedSender

/-! ### Why an event does not decrypt -/

/-- Upstream's `WithheldCode`. -/
inductive WithheldCode
  | blacklisted
  | unverified
  | unauthorised
  | unavailable
  | noOlm
  /-- A code it has no name for. -/
  | custom (code : String)
  deriving DecidableEq, Repr

/-- Upstream's `DecryptionError`, less what its variants carry. -/
inductive DecryptionError
  | signature
  | invalidMac
  | invalidMacLength
  | invalidPadding
  | unknownMessageIndex
  deriving DecidableEq, Repr

/-- Upstream's `MegolmError`, less what else its variants carry. -/
inductive MegolmError
  | eventError
  | jsonError
  | missingRoomKey (code : Option WithheldCode)
  | decryption (e : DecryptionError)
  | decode
  | mismatchedIdentityKeys
  | store
  | senderIdentityNotTrusted
  deriving DecidableEq, Repr

/-- `classify_megolm_error`. -/
def classifyMegolmError : MegolmError → SessionFfiError
  | .missingRoomKey none => .missingKey
  | .missingRoomKey (some .blacklisted) | .missingRoomKey (some .unauthorised) => .sessionRefused
  | .missingRoomKey (some _) => .unsharedSession
  | .decryption .unknownMessageIndex => .missingKey
  | .mismatchedIdentityKeys => .unknownDevice
  | .senderIdentityNotTrusted => .senderNotTrusted
  | .eventError | .jsonError | .decode | .decryption _ => .undecryptable
  | .store => .failed

/-- The sender refused this device its key, by its own policy. -/
def WithheldCode.IsPolicy : WithheldCode → Prop
  | blacklisted | unauthorised => True
  | _ => False

/-- The key may yet arrive: it is missing, or was not shared for want of anything but the
sender's will, or is held from a later point of its ratchet on. -/
inductive MegolmError.MayPass : MegolmError → Prop
  | missing : MayPass (.missingRoomKey none)
  | withheld {code : WithheldCode} (h : ¬ code.IsPolicy) : MayPass (.missingRoomKey (some code))
  | ratcheted : MayPass (.decryption .unknownMessageIndex)

/-- **A failure comes as a key that is missing or was not shared exactly when it may pass.** -/
theorem classifyMegolmError_retriable (e : MegolmError) :
    (classifyMegolmError e = .missingKey ∨ classifyMegolmError e = .unsharedSession) ↔
      e.MayPass := by
  constructor
  · intro h
    cases e with
    | missingRoomKey code =>
      cases code with
      | none => exact .missing
      | some code => cases code <;> simp [classifyMegolmError] at h <;> exact .withheld id
    | decryption e => cases e <;> simp [classifyMegolmError] at h; exact .ratcheted
    | _ => simp [classifyMegolmError] at h
  · intro h
    cases h with
    | missing => exact Or.inl rfl
    | @withheld code h =>
      cases code with
      | blacklisted => exact absurd trivial h
      | unauthorised => exact absurd trivial h
      | _ => exact Or.inr rfl
    | ratcheted => exact Or.inl rfl

/-! ### The calls -/

/-- `Envelope`. -/
structure Envelope where
  scope : String
  algorithm : String
  eventType : String
  /-- The content of the event as a JSON text, encrypted or not. -/
  ciphertext : ByteArray
  sender : String
  senderVerification : Option SenderVerification

/-- The fields `decrypt_event` reads of a decrypted event: its content stays a text. -/
structure DecryptedEventFields where
  eventType : String
  sender : String
  content : String

/-- The readers of ruma and `serde_json` the two calls use. -/
structure EventReaders extends ScopeParsers where
  /-- `Raw::get_field`, into a `Value`. -/
  getField : String → String → Option Json
  /-- `deserialize_as_unchecked`, of a decrypted event. -/
  eventFields : String → Option DecryptedEventFields

/-- What upstream decrypted. -/
structure DecryptedRoomEvent where
  event : String
  verificationState : VerificationState

/-- A machine, as far as the two calls go. -/
structure RoomMachine where
  userId : String
  /-- `encrypt_room_event_raw`: the encrypted content of an event of a room, of a type, with a
  content. -/
  encryptRoomEventRaw : String → String → String → Except Unit String
  /-- `decrypt_room_event`, of an event of a room, under a requirement. -/
  decryptRoomEvent : String → String → TrustRequirement → Except MegolmError DecryptedRoomEvent

/-- `Raw::from_json_string` takes a text that is one value, however deep. -/
def isJson (text : String) : Bool := (Json.readDeepText (fun _ _ => true) text).isSome

section

variable (P : EventReaders)

/-- `encrypt_event`; the machine is `none` before one is created. -/
def encryptEvent (scope eventType payloadJson : String) (machine : Option RoomMachine) :
    Except SessionFfiError Envelope :=
  if !P.isRoomId scope then .error .malformedIdentifier
  else if !isJson payloadJson then .error .malformedPayload
  else match machine with
    | none => .error .notInitialised
    | some m =>
      match m.encryptRoomEventRaw scope eventType payloadJson with
      | .error _ => .error .failed
      | .ok encrypted => .ok
          { scope
            algorithm := ((P.getField encrypted "algorithm").bind Json.asStr?).getD ""
            eventType
            ciphertext := encrypted.toUTF8
            sender := m.userId
            senderVerification := none }

/-- The envelope of a decrypted event. -/
def decryptedEnvelope (scope algorithm : String) (decrypted : DecryptedRoomEvent) :
    Except SessionFfiError Envelope :=
  match P.eventFields decrypted.event with
  | none => .error .undecryptable
  | some fields => .ok
      { scope
        algorithm
        eventType := fields.eventType
        ciphertext := fields.content.toUTF8
        sender := fields.sender
        senderVerification := some (MatrixCrypto.senderVerification decrypted.verificationState) }

/-- `decrypt_event`. -/
def decryptEvent (scope rawJson : String) (requirement : SenderTrustRequirement)
    (machine : Option RoomMachine) : Except SessionFfiError Envelope :=
  if !P.isRoomId scope then .error .malformedIdentifier
  else if !isJson rawJson then .error .malformedPayload
  else
    let algorithm := (((P.getField rawJson "content").bind fun content =>
      content.field? "algorithm").bind Json.asStr?).getD ""
    match machine with
    | none => .error .notInitialised
    | some m =>
      match m.decryptRoomEvent scope rawJson requirement.toUpstream with
      | .error e => .error (classifyMegolmError e)
      | .ok decrypted => decryptedEnvelope P scope algorithm decrypted

variable {P} {scope rawJson : String} {requirement : SenderTrustRequirement}
  {machine : Option RoomMachine}

/-- **A call fails as one of upstream's failures, or else before or after upstream is asked**:
never as one that may be waited out. -/
theorem decryptEvent_error {e : SessionFfiError}
    (h : decryptEvent P scope rawJson requirement machine = .error e) :
    (∃ m, machine = some m ∧ P.isRoomId scope = true ∧ isJson rawJson = true ∧
      ∃ e', m.decryptRoomEvent scope rawJson requirement.toUpstream = .error e' ∧
        classifyMegolmError e' = e) ∨
      e = .malformedIdentifier ∨ e = .malformedPayload ∨ e = .notInitialised ∨
      e = .undecryptable := by
  unfold decryptEvent at h
  split at h
  · cases h
    exact Or.inr (Or.inl rfl)
  · next hscope =>
    split at h
    · cases h
      exact Or.inr (Or.inr (Or.inl rfl))
    · next hjson =>
      cases machine with
      | none =>
        cases h
        exact Or.inr (Or.inr (Or.inr (Or.inl rfl)))
      | some m =>
        simp only at h
        cases hm : m.decryptRoomEvent scope rawJson requirement.toUpstream with
        | error e' =>
          rw [hm] at h
          cases h
          exact Or.inl ⟨m, rfl, by simpa using hscope, by simpa using hjson, e', hm, rfl⟩
        | ok decrypted =>
          rw [hm] at h
          simp only [decryptedEnvelope] at h
          split at h
          · cases h
            exact Or.inr (Or.inr (Or.inr (Or.inr rfl)))
          · cases h

/-- What upstream was asked and refused, the call tells. -/
theorem decryptEvent_of_refused {m : RoomMachine} {e : MegolmError}
    (hscope : P.isRoomId scope = true) (hjson : isJson rawJson = true)
    (h : m.decryptRoomEvent scope rawJson requirement.toUpstream = .error e) :
    decryptEvent P scope rawJson requirement (some m) = .error (classifyMegolmError e) := by
  unfold decryptEvent
  simp [hscope, hjson, h]

/-- What a served decryption found, and what of it goes on. -/
theorem decryptEvent_eq_ok {out : Envelope} :
    decryptEvent P scope rawJson requirement machine = .ok out ↔
      ∃ m decrypted fields, machine = some m ∧ P.isRoomId scope = true ∧ isJson rawJson = true ∧
        m.decryptRoomEvent scope rawJson requirement.toUpstream = .ok decrypted ∧
        P.eventFields decrypted.event = some fields ∧
        out =
          { scope
            algorithm := (((P.getField rawJson "content").bind fun content =>
              content.field? "algorithm").bind Json.asStr?).getD ""
            eventType := fields.eventType
            ciphertext := fields.content.toUTF8
            sender := fields.sender
            senderVerification :=
              some (MatrixCrypto.senderVerification decrypted.verificationState) } := by
  constructor
  · intro h
    unfold decryptEvent at h
    split at h
    · cases h
    split at h
    · cases h
    · next hscope hjson =>
      cases machine with
      | none => cases h
      | some m =>
        simp only at h
        cases hm : m.decryptRoomEvent scope rawJson requirement.toUpstream with
        | error e => rw [hm] at h; cases h
        | ok decrypted =>
          rw [hm] at h
          simp only [decryptedEnvelope] at h
          cases hfields : P.eventFields decrypted.event with
          | none => rw [hfields] at h; cases h
          | some fields =>
            rw [hfields] at h
            cases h
            exact ⟨m, decrypted, fields, rfl, by simpa using hscope, by simpa using hjson, hm,
              hfields, rfl⟩
  · intro h
    obtain ⟨m, decrypted, fields, rfl, hscope, hjson, hm, hfields, rfl⟩ := h
    unfold decryptEvent
    simp [hscope, hjson, hm, decryptedEnvelope, hfields]

end

end MatrixCrypto
