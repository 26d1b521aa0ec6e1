import MatrixCrypto.Facade.Stringify
import MatrixCrypto.Session.Events

/-!
# Events, as a product encrypts and decrypts them

`encryptEvent` and `decryptEvent` check what the type system cannot, write the payload as a
text, and make of a failure of the core the error a product acts on.

## Main definitions

* `Facade.SenderVerification`, `senderVerificationOf` — what a product is told of a sender.
* `senderTrustRequirementOf` — the requirement, checked.
* `encryptEvent`, `decryptEvent` — the calls.
* `Opens` — what upstream promises of what it sealed.

## Main results

* `decryptEvent_eq_error_iff` — when a call fails as one of upstream's failures.
* `decryptEvent_fails` — **what the kind of a failure says of why the event did not decrypt.**
* `decryptEvent_encryptEvent` — **what one product encrypts is what another decrypts.**
-/

namespace MatrixCrypto
namespace Facade

open Lib

/-! ### What a product is told of a sender -/

/-- Why no device is linked to an event. -/
inductive NoDeviceProblem
  | missing
  | insecureSource
  deriving DecidableEq, Repr

/-- The reason of a sender that is not verified. -/
inductive UnverifiedReason
  | unsignedDevice
  | unverifiedIdentity
  | verificationViolation
  | mismatchedSender
  | noDevice (problem : NoDeviceProblem)
  deriving DecidableEq, Repr

/-- The facade's `SenderVerification`. -/
inductive SenderVerification
  | verified
  | unverified (reason : UnverifiedReason)
  deriving DecidableEq, Repr

/-- `senderVerificationOf`. -/
def senderVerificationOf : MatrixCrypto.SenderVerification → SenderVerification
  | .verified => .verified
  | .unverifiedIdentity => .unverified .unverifiedIdentity
  | .verificationViolation => .unverified .verificationViolation
  | .unsignedDevice => .unverified .unsignedDevice
  | .noDeviceMissing => .unverified (.noDevice .missing)
  | .noDeviceInsecureSource => .unverified (.noDevice .insecureSource)
  | .mismatchedSender => .unverified .mismatchedSender

/-- `EventEnvelope`. -/
structure EventEnvelope where
  scope : String
  algorithm : String
  eventType : String
  ciphertext : ByteArray
  sender : String
  senderVerification : Option SenderVerification

/-! ### The calls -/

/-- The requirement of a caller that may be of no type: the default, or one of three. -/
def senderTrustRequirementOf : JsValue → Option SenderTrustRequirement
  | .undefined | .string "any" => some .any
  | .string "identity_signed_or_legacy" => some .identitySignedOrLegacy
  | .string "identity_signed" => some .identitySigned
  | _ => none

/-- The error of a scope that is no string. -/
def malformedIdentifier : CryptoError :=
  toCryptoError (.object .plain [] [("name", .string "MalformedIdentifier")])

/-- The error of a requirement that is none. -/
def rejectedRequirement : CryptoError :=
  toCryptoError (.object .plain [] [("name", .string "Rejected"),
    ("reason", .string ("senderTrustRequirement must be one of 'any', " ++
      "'identity_signed_or_legacy' or 'identity_signed'"))])

section

variable (N : Json.Numerals fun _ _ => true) (P : EventReaders)

/-- `encryptEvent`. -/
def encryptEvent (scope eventType : String) (payload : Payload) (machine : Option RoomMachine) :
    Except CryptoError EventEnvelope :=
  match stringifyOrMalformed N payload with
  | .error e => .error e
  | .ok payloadJson =>
    match MatrixCrypto.encryptEvent P scope eventType payloadJson machine with
    | .error e => .error (toCryptoError ((FfiError.session e).thrown none))
    | .ok encrypted => .ok
        { scope := encrypted.scope
          algorithm := encrypted.algorithm
          eventType := encrypted.eventType
          ciphertext := encrypted.ciphertext
          sender := encrypted.sender
          senderVerification := none }

/-- `decryptEvent`. -/
def decryptEvent (scope : JsValue) (rawEvent : Payload) (senderTrustRequirement : JsValue)
    (machine : Option RoomMachine) : Except CryptoError EventEnvelope :=
  match scope with
  | .string scope =>
    match senderTrustRequirementOf senderTrustRequirement with
    | none => .error rejectedRequirement
    | some requirement =>
      match stringifyOrMalformed N rawEvent with
      | .error e => .error e
      | .ok rawEventJson =>
        match MatrixCrypto.decryptEvent P scope rawEventJson requirement machine with
        | .error e => .error (toCryptoError ((FfiError.session e).thrown none))
        | .ok decrypted => .ok
            { scope := decrypted.scope
              algorithm := decrypted.algorithm
              eventType := decrypted.eventType
              ciphertext := decrypted.ciphertext
              sender := decrypted.sender
              senderVerification := decrypted.senderVerification.map senderVerificationOf }
  | _ => .error malformedIdentifier

/-- The kinds a call has of its own: of arguments and machines, and of an event that is none. -/
def ownKinds : List CryptoErrorKind :=
  [.malformedIdentifier, .rejected, .malformedPayload, .notInitialised, .undecryptable]

/-- Upstream was asked to decrypt the event, and failed. -/
def Refused (scope : JsValue) (rawEvent : Handed N) (senderTrustRequirement : JsValue)
    (machine : Option RoomMachine) (e : MegolmError) : Prop :=
  ∃ s text requirement m, scope = .string s ∧ P.isRoomId s = true ∧
    senderTrustRequirementOf senderTrustRequirement = some requirement ∧
    stringifyOrMalformed N rawEvent.value = .ok text ∧ machine = some m ∧
    m.decryptRoomEvent s text requirement.toUpstream = .error e

/-- The call fails, with an error that is so. -/
def Fails (scope : JsValue) (rawEvent : Handed N) (senderTrustRequirement : JsValue)
    (machine : Option RoomMachine) (so : CryptoError → Prop) : Prop :=
  ∃ c, decryptEvent N P scope rawEvent.value senderTrustRequirement machine = .error c ∧ so c

variable {N P} {scope : JsValue} {rawEvent : Handed N} {senderTrustRequirement : JsValue}
  {machine : Option RoomMachine}

/-- The text of a payload is one value. -/
theorem isJson_of_stringify {text : String}
    (h : stringifyOrMalformed N rawEvent.value = .ok text) : isJson text = true := by
  obtain ⟨j, hj, rfl⟩ := stringifyOrMalformed_eq_ok.mp h
  rw [isJson, Json.readDeepText_printText (rawEvent.sound.written hj)]
  rfl

theorem kind_session (e : SessionFfiError) :
    some (toCryptoError ((FfiError.session e).thrown none)).kind =
      kindByName.lookup (FfiError.session e).variant := by
  obtain ⟨kind, hkind, -, heq⟩ := (FfiError.session e).toCryptoError_thrown none
  rw [heq, hkind]

/-- **When a call fails as one of upstream's failures**: exactly when upstream was asked and
failed so. -/
theorem decryptEvent_eq_error_iff {e : CryptoError} (he : e.kind ∉ ownKinds) :
    decryptEvent N P scope rawEvent.value senderTrustRequirement machine = .error e ↔
      ∃ e', Refused N P scope rawEvent senderTrustRequirement machine e' ∧
        e = toCryptoError ((FfiError.session (classifyMegolmError e')).thrown none) := by
  constructor
  · intro h
    unfold decryptEvent at h
    split at h
    · next s =>
      split at h
      · cases h
        exact absurd (by decide) he
      · next requirement hrequirement =>
        split at h
        · next e' htext =>
          cases h
          unfold stringifyOrMalformed at htext
          split at htext <;> cases htext <;> exact absurd (by decide) he
        · next text htext =>
          split at h
          · next e' hfails =>
            cases h
            rcases decryptEvent_error hfails with ⟨m, rfl, hscope, -, e'', hm, rfl⟩ | hown
            · exact ⟨e'', ⟨s, text, requirement, m, rfl, hscope, hrequirement, htext, rfl, hm⟩, rfl⟩
            · refine absurd ?_ he
              rcases hown with rfl | rfl | rfl | rfl <;> decide
          · cases h
    · cases h
      exact absurd (by decide) he
  · intro h
    obtain ⟨e', ⟨s, text, requirement, m, rfl, hscope, hrequirement, htext, rfl, hm⟩, rfl⟩ := h
    simp only [decryptEvent, hrequirement, htext,
      decryptEvent_of_refused hscope (isJson_of_stringify htext) hm]

/-- Every error of a call is made of what was thrown. -/
theorem decryptEvent_made {e : CryptoError}
    (h : decryptEvent N P scope rawEvent.value senderTrustRequirement machine = .error e) :
    ∃ raw, e = toCryptoError raw := by
  unfold decryptEvent at h
  split at h
  · split at h
    · cases h
      exact ⟨_, rfl⟩
    · split at h
      · next htext =>
        cases h
        unfold stringifyOrMalformed at htext
        split at htext <;> cases htext <;> exact ⟨_, rfl⟩
      · split at h
        · cases h
          exact ⟨_, rfl⟩
        · cases h
  · cases h
    exact ⟨_, rfl⟩

/-- A call fails with a kind that only one error of the core has exactly when upstream was
asked and failed as that error. -/
theorem fails_iff {kind : CryptoErrorKind} {f : SessionFfiError} (hown : kind ∉ ownKinds)
    (hkind : ∀ s, (toCryptoError ((FfiError.session s).thrown none)).kind = kind ↔ s = f) :
    Fails N P scope rawEvent senderTrustRequirement machine (fun c => c.kind = kind) ↔
      ∃ e, Refused N P scope rawEvent senderTrustRequirement machine e ∧
        classifyMegolmError e = f := by
  constructor
  · intro h
    obtain ⟨c, hc, rfl⟩ := h
    obtain ⟨e, he, rfl⟩ := (decryptEvent_eq_error_iff hown).mp hc
    exact ⟨e, he, (hkind _).mp rfl⟩
  · intro h
    obtain ⟨e, he, rfl⟩ := h
    have heq := (hkind (classifyMegolmError e)).mpr rfl
    exact ⟨_, (decryptEvent_eq_error_iff (heq ▸ hown)).mpr ⟨e, he, rfl⟩, heq⟩

theorem classifyMegolmError_eq_sessionRefused {e : MegolmError} :
    classifyMegolmError e = .sessionRefused ↔
      ∃ code : WithheldCode, code.IsPolicy ∧ e = .missingRoomKey (some code) := by
  constructor
  · intro h
    cases e with
    | missingRoomKey code =>
      cases code with
      | none => cases h
      | some code =>
        cases code with
        | blacklisted => exact ⟨.blacklisted, trivial, rfl⟩
        | unauthorised => exact ⟨.unauthorised, trivial, rfl⟩
        | _ => cases h
    | decryption e => cases e <;> cases h
    | _ => cases h
  · intro h
    obtain ⟨code, hcode, rfl⟩ := h
    cases code with
    | blacklisted => rfl
    | unauthorised => rfl
    | _ => cases hcode

theorem classifyMegolmError_eq_senderNotTrusted {e : MegolmError} :
    classifyMegolmError e = .senderNotTrusted ↔ e = .senderIdentityNotTrusted := by
  constructor
  · intro h
    cases e with
    | senderIdentityNotTrusted => rfl
    | missingRoomKey code =>
      cases code with
      | none => cases h
      | some code => cases code <;> cases h
    | decryption e => cases e <;> cases h
    | _ => cases h
  · intro h
    rw [h]
    rfl

theorem classifyMegolmError_eq_unknownDevice {e : MegolmError} :
    classifyMegolmError e = .unknownDevice ↔ e = .mismatchedIdentityKeys := by
  constructor
  · intro h
    cases e with
    | mismatchedIdentityKeys => rfl
    | missingRoomKey code =>
      cases code with
      | none => cases h
      | some code => cases code <;> cases h
    | decryption e => cases e <;> cases h
    | _ => cases h
  · intro h
    rw [h]
    rfl

/-- Which error of the core has a kind. -/
theorem kind_session_iff {kind : CryptoErrorKind} {f : SessionFfiError}
    (hf : kindByName.lookup (FfiError.session f).variant = some kind) (s : SessionFfiError) :
    (toCryptoError ((FfiError.session s).thrown none)).kind = kind ↔ s = f := by
  constructor
  · intro h
    have hvariant : (FfiError.session s).variant = (FfiError.session f).variant := by
      refine @FfiError.variant_eq_of_kind _ _ none none rfl ?_
      rw [h, ← Option.some_inj, kind_session, hf]
    cases s <;> cases f <;> first | rfl | simp [FfiError.variant] at hvariant
  · intro h
    rw [h, ← Option.some_inj, kind_session, hf]

/-- The call fails with an error that may be retried when it fails with a missing key, or a
session that was not shared. -/
theorem fails_retriable :
    Fails N P scope rawEvent senderTrustRequirement machine (fun c => c.retriable = true) ↔
      Fails N P scope rawEvent senderTrustRequirement machine (fun c => c.kind = .missingKey) ∨
      Fails N P scope rawEvent senderTrustRequirement machine
        (fun c => c.kind = .unsharedSession) := by
  have hkinds : ∀ raw, (toCryptoError raw).retriable = true ↔
      (toCryptoError raw).kind = .missingKey ∨ (toCryptoError raw).kind = .unsharedSession := by
    intro raw
    simp [toCryptoError, retriable]
  constructor
  · intro h
    obtain ⟨c, hc, hretriable⟩ := h
    obtain ⟨raw, rfl⟩ := decryptEvent_made hc
    rcases (hkinds raw).mp hretriable with hkind | hkind
    · exact Or.inl ⟨_, hc, hkind⟩
    · exact Or.inr ⟨_, hc, hkind⟩
  · intro h
    rcases h with ⟨c, hc, hkind⟩ | ⟨c, hc, hkind⟩
    · obtain ⟨raw, rfl⟩ := decryptEvent_made hc
      exact ⟨_, hc, (hkinds raw).mpr (Or.inl hkind)⟩
    · obtain ⟨raw, rfl⟩ := decryptEvent_made hc
      exact ⟨_, hc, (hkinds raw).mpr (Or.inr hkind)⟩

/-- **What the kind of a failure says of why the event did not decrypt.**  The call may be
tried again exactly when upstream was asked and had not the key, or not from that point of its
ratchet on, or was told that it was withheld for want of anything but the sender's will; the
sender refused by policy, is not trusted as the call requires, or does not match its own keys
exactly when upstream was asked and said so. -/
theorem decryptEvent_fails :
    (Fails N P scope rawEvent senderTrustRequirement machine (fun c => c.retriable = true) ↔
      ∃ e, Refused N P scope rawEvent senderTrustRequirement machine e ∧ e.MayPass) ∧
    (Fails N P scope rawEvent senderTrustRequirement machine (fun c => c.kind = .sessionRefused) ↔
      ∃ code : WithheldCode, code.IsPolicy ∧
        Refused N P scope rawEvent senderTrustRequirement machine (.missingRoomKey (some code))) ∧
    (Fails N P scope rawEvent senderTrustRequirement machine
        (fun c => c.kind = .senderNotTrusted) ↔
      Refused N P scope rawEvent senderTrustRequirement machine .senderIdentityNotTrusted) ∧
    (Fails N P scope rawEvent senderTrustRequirement machine (fun c => c.kind = .unknownDevice) ↔
      Refused N P scope rawEvent senderTrustRequirement machine .mismatchedIdentityKeys) := by
  refine ⟨?_, ?_, ?_, ?_⟩
  · rw [fails_retriable, fails_iff (by decide) (kind_session_iff (f := .missingKey) rfl),
      fails_iff (by decide) (kind_session_iff (f := .unsharedSession) rfl)]
    simp only [← classifyMegolmError_retriable, and_or_left, exists_or]
  · rw [fails_iff (by decide) (kind_session_iff (f := .sessionRefused) rfl)]
    simp only [classifyMegolmError_eq_sessionRefused]
    constructor
    · intro h
      obtain ⟨e, he, code, hcode, rfl⟩ := h
      exact ⟨code, hcode, he⟩
    · intro h
      obtain ⟨code, hcode, he⟩ := h
      exact ⟨_, he, code, hcode, rfl⟩
  · rw [fails_iff (by decide) (kind_session_iff (f := .senderNotTrusted) rfl)]
    simp only [classifyMegolmError_eq_senderNotTrusted, exists_eq_right]
  · rw [fails_iff (by decide) (kind_session_iff (f := .unknownDevice) rfl)]
    simp only [classifyMegolmError_eq_unknownDevice, exists_eq_right]

/-! ### From one device to another -/

/-- The value a product reads of an envelope. -/
def EventEnvelope.contentOf (envelope : EventEnvelope) : Option Json :=
  (String.fromUTF8? envelope.ciphertext).bind (Json.readDeepText fun _ _ => true)

/-- Upstream opens for one machine what it sealed for another of a product's payload: an event
that carries the sealed content, and that it decrypts, has the type that was sealed and the content
that was, each read as a value.  Neither the event nor what is decrypted of it need list its members
in the order they were sealed in. -/
def Opens (N : Json.Numerals fun _ _ => true) (P : EventReaders) (sender receiver : RoomMachine)
    (scope : String) : Prop :=
  ∀ eventType (payload : Handed N) content sealed,
    stringifyOrMalformed N payload.value = .ok content →
    sender.encryptRoomEventRaw scope eventType content = .ok sealed →
    ∀ raw event carried c requirement decrypted,
      Json.readDeepText (fun _ _ => true) sealed = some c →
      Json.readDeepText (fun _ _ => true) raw = some event →
      event.field? "content" = some carried → carried.Same c →
      receiver.decryptRoomEvent scope raw requirement = .ok decrypted →
        ∃ fields, P.eventFields decrypted.event = some fields ∧ fields.eventType = eventType ∧
          ∀ v, Json.readDeepText (fun _ _ => true) content = some v →
            ∃ w, Json.readDeepText (fun _ _ => true) fields.content = some w ∧ w.Same v

/-- What a served encryption sealed. -/
theorem encryptEvent_eq_ok {scope eventType : String} {payload : Handed N} {m : RoomMachine}
    {sent : EventEnvelope}
    (h : encryptEvent N P scope eventType payload.value (some m) = .ok sent) :
    ∃ text sealed, stringifyOrMalformed N payload.value = .ok text ∧
      m.encryptRoomEventRaw scope eventType text = .ok sealed ∧
      sent.ciphertext = sealed.toUTF8 := by
  unfold encryptEvent at h
  split at h
  · cases h
  · next text htext =>
    refine ⟨text, ?_⟩
    unfold MatrixCrypto.encryptEvent at h
    by_cases hscope : P.isRoomId scope = true
    · cases hm : m.encryptRoomEventRaw scope eventType text with
      | error e => simp [hscope, isJson_of_stringify htext, hm] at h
      | ok sealed =>
        simp only [hscope, isJson_of_stringify htext, hm, Bool.not_true, Bool.false_eq_true,
          if_false] at h
        cases h
        exact ⟨sealed, htext, rfl, rfl⟩
    · simp [hscope] at h

/-- What of a served decryption goes on. -/
theorem decryptEvent_eq_ok {scope : String} {received : EventEnvelope}
    (h : decryptEvent N P (.string scope) rawEvent.value senderTrustRequirement machine =
      .ok received) :
    ∃ text requirement m decrypted fields,
      stringifyOrMalformed N rawEvent.value = .ok text ∧ machine = some m ∧
      m.decryptRoomEvent scope text (SenderTrustRequirement.toUpstream requirement) =
        .ok decrypted ∧
      P.eventFields decrypted.event = some fields ∧ received.eventType = fields.eventType ∧
      received.ciphertext = fields.content.toUTF8 := by
  unfold decryptEvent at h
  simp only at h
  split at h
  · cases h
  · next requirement hrequirement =>
    split at h
    · cases h
    · next text htext =>
      split at h
      · cases h
      · next envelope henvelope =>
        obtain ⟨m, decrypted, fields, hm, -, -, hdecrypted, hfields, rfl⟩ :=
          MatrixCrypto.decryptEvent_eq_ok.mp henvelope
        cases h
        exact ⟨text, requirement, m, decrypted, fields, htext, hm, hdecrypted, hfields, rfl, rfl⟩

/-- What the core serves, the call serves. -/
theorem decryptEvent_of_served {scope text : String} {requirement : SenderTrustRequirement}
    {decrypted : Envelope}
    (hrequirement : senderTrustRequirementOf senderTrustRequirement = some requirement)
    (htext : stringifyOrMalformed N rawEvent.value = .ok text)
    (h : MatrixCrypto.decryptEvent P scope text requirement machine = .ok decrypted) :
    ∃ received, decryptEvent N P (.string scope) rawEvent.value senderTrustRequirement machine =
      .ok received := by
  simp only [decryptEvent, hrequirement, htext, h, Except.ok.injEq, exists_eq']

/-- A property of a payload is a field of what its text reads as. -/
theorem field?_readDeepText {text name : String} {c : Json}
    (htext : stringifyOrMalformed N rawEvent.value = .ok text)
    (hget : (rawEvent.value.get name).json? = some c) :
    ∃ j, Json.readDeepText (fun _ _ => true) text = some j ∧ j.field? name = some c := by
  obtain ⟨value, hsound⟩ := rawEvent
  obtain ⟨j, hj, rfl⟩ := stringifyOrMalformed_eq_ok.mp htext
  refine ⟨j, Json.readDeepText_printText (hsound.written hj), ?_⟩
  cases hsound with
  | obj hnodup hvalues =>
    rw [Payload.toJson, bind_eq_ok] at hj
    obtain ⟨fs, hfs, heq⟩ := hj
    cases heq
    rw [Payload.field?_toJson hnodup hfs]
    exact hget
  | _ => cases hget

/-- **What one product encrypts is what another decrypts**: of an event that carries what was
sealed, under whatever requirement it is decrypted, the type is the one it was encrypted
under, and the content is the value that was handed over, up to the order of members. -/
theorem decryptEvent_encryptEvent {scope eventType : String} {payload : Handed N}
    {sender receiver : RoomMachine} {sent received : EventEnvelope} {carried c : Json}
    (hopens : Opens N P sender receiver scope)
    (hsent : encryptEvent N P scope eventType payload.value (some sender) = .ok sent)
    (hread : sent.contentOf = some c)
    (hcarries : (rawEvent.value.get "content").json? = some carried) (hsame : carried.Same c)
    (hreceived : decryptEvent N P (.string scope) rawEvent.value senderTrustRequirement
      (some receiver) = .ok received) :
    received.eventType = eventType ∧ ∃ v w, payload.value.json? = some v ∧
      received.contentOf = some w ∧ w.Same v := by
  obtain ⟨text, sealed, htext, hseals, hciphertext⟩ := encryptEvent_eq_ok hsent
  obtain ⟨raw, requirement, m, decrypted, fields, hraw, hm, hdecrypts, hfields, htype, hcontent⟩ :=
    decryptEvent_eq_ok hreceived
  cases hm
  obtain ⟨event, hevent, hfield⟩ := field?_readDeepText hraw hcarries
  rw [EventEnvelope.contentOf, hciphertext, fromUTF8?_toUTF8, Option.bind_some] at hread
  obtain ⟨fields', hfields', htype', hvalue⟩ := hopens eventType payload text sealed htext hseals
    raw event carried c _ decrypted hread hevent hfield hsame hdecrypts
  rw [hfields] at hfields'
  cases hfields'
  obtain ⟨v, hv, -⟩ := stringifyOrMalformed_eq_ok.mp htext
  have hpayload : payload.value.json? = some v := by rw [Payload.json?, hv]
  obtain ⟨w, hw, hsame'⟩ := hvalue v ((payload.readDeepText_stringify htext).trans hpayload)
  refine ⟨htype.trans htype', v, w, hpayload, ?_, hsame'⟩
  rw [EventEnvelope.contentOf, hcontent, fromUTF8?_toUTF8, Option.bind_some, hw]

/-! ### An exchange -/

/-- A field of an object in a text, if it is a string. -/
def textIn (text name : String) : Option String :=
  ((Json.readDeepText (fun _ _ => true) text).bind (Json.field? · name)).bind Json.asStr?

/-- The ciphertext an event carries. -/
def ciphertextIn (raw : String) : Option String :=
  (((Json.readDeepText (fun _ _ => true) raw).bind (Json.field? · "content")).bind
    (Json.field? · "ciphertext")).bind Json.asStr?

/-- What is sealed of an event. -/
def plaintext (eventType content : String) : Json :=
  .obj [("type", .str eventType), ("content", .str content)]

/-- What carries it. -/
def ciphertext (text : String) : Json :=
  .obj [("algorithm", .str "m.megolm.v1.aes-sha2"), ("ciphertext", .str text)]

/-- Readers of one room, and of any event. -/
def messageReaders : EventReaders where
  isRoomId := fun s => s == "!room:example.org"
  isUserId := fun s => s == "@alice:example.org"
  getField := fun text name => (Json.readDeepText (fun _ _ => true) text).bind (Json.field? · name)
  eventFields := fun text => do
    let eventType ← textIn text "type"
    let content ← textIn text "content"
    return ⟨eventType, "@alice:example.org", content⟩

/-- A machine that seals any content, by wrapping it up, and opens what it sealed. -/
def messageMachine : RoomMachine where
  userId := "@alice:example.org"
  encryptRoomEventRaw := fun _ eventType content =>
    .ok (Json.printText (Json.integers fun _ _ => true) (ciphertext
      (Json.printText (Json.integers fun _ _ => true) (plaintext eventType content))))
  decryptRoomEvent := fun _ raw _ =>
    match ciphertextIn raw with
    | some text => .ok ⟨text, .verified⟩
    | none => .error .eventError

/-- Objects of two strings read back. -/
theorem readDeepText_strings (k k' s s' : String) :
    Json.readDeepText (fun _ _ => true) (Json.printText (Json.integers fun _ _ => true)
      (.obj [(k, .str s), (k', .str s')])) = some (.obj [(k, .str s), (k', .str s')]) := by
  refine Json.readDeepText_printText (.obj fun f hf => ?_)
  simp only [List.mem_cons, List.not_mem_nil, or_false] at hf
  rcases hf with rfl | rfl
  · exact .str s
  · exact .str s'

/-- The machine opens what it sealed. -/
theorem opens_messageMachine : Opens (Json.integers fun _ _ => true) messageReaders messageMachine
    messageMachine "!room:example.org" := by
  intro eventType payload content sealed _ hseals raw event carried c requirement decrypted hread
    hevent hcarried hsame hdecrypts
  obtain rfl := Except.ok.inj hseals
  generalize htext : Json.printText (Json.integers fun _ _ => true)
    (plaintext eventType content) = text at hread
  rw [ciphertext, readDeepText_strings] at hread
  obtain rfl := Option.some.inj hread
  -- the ciphertext is read back out of the event, wherever it stands there
  have hfield : (ciphertext text).field? "ciphertext" = some (.str text) := rfl
  obtain ⟨w, hw, hstr⟩ := hsame.field? (by simp) hfield
  have hciphertext : ciphertextIn raw = some text := by
    rw [ciphertextIn, hevent, Option.bind_some, hcarried, Option.bind_some, hw, Option.bind_some,
      hstr.eq_str]
    rfl
  simp only [messageMachine, hciphertext] at hdecrypts
  obtain rfl := Except.ok.inj hdecrypts
  have htextIn : ∀ name, textIn text name =
      ((plaintext eventType content).field? name).bind Json.asStr? := by
    intro name
    rw [textIn, ← htext, plaintext, readDeepText_strings, Option.bind_some]
  refine ⟨⟨eventType, "@alice:example.org", content⟩, ?_, rfl, fun v hv => ⟨v, hv, .refl v⟩⟩
  simp [messageReaders, htextIn, plaintext, Json.field?, Json.asStr?]

/-- A message, as a product hands it over. -/
def helloMessage : Handed (Json.integers fun _ _ => true) :=
  ⟨.obj [("msgtype", .str "m.text"), ("body", .str "hello")],
    .obj (by decide) (by simpa using ⟨.str "m.text", .str "hello"⟩)⟩

/-- What is sealed of it. -/
def helloCiphertext : String :=
  Json.printText (Json.integers fun _ _ => true) (plaintext "m.room.message"
    (Json.printText (Json.integers fun _ _ => true)
      (.obj [("msgtype", .str "m.text"), ("body", .str "hello")])))

/-- The event a homeserver hands on, its content listed in another order. -/
def sealedEvent : Handed (Json.integers fun _ _ => true) :=
  ⟨.obj [("content", .obj [("ciphertext", .str helloCiphertext),
      ("algorithm", .str "m.megolm.v1.aes-sha2")])],
    .obj (by simp) (by
      simpa using .obj (by decide) (by
        simpa using ⟨.str helloCiphertext, .str "m.megolm.v1.aes-sha2"⟩))⟩

/-- A message is encrypted, and decrypted out of an event whose content lists its members in
another order. -/
theorem decryptEvent_encryptEvent_message : ∃ sent received,
    encryptEvent (Json.integers fun _ _ => true) messageReaders "!room:example.org"
      "m.room.message" helloMessage.value (some messageMachine) = .ok sent ∧
    decryptEvent (Json.integers fun _ _ => true) messageReaders (.string "!room:example.org")
      sealedEvent.value .undefined (some messageMachine) = .ok received ∧
    received.eventType = "m.room.message" ∧ ∃ w, received.contentOf = some w ∧
      w.Same (.obj [("msgtype", .str "m.text"), ("body", .str "hello")]) := by
  have htext : stringifyOrMalformed (Json.integers fun _ _ => true) helloMessage.value =
      .ok (Json.printText (Json.integers fun _ _ => true)
        (.obj [("msgtype", .str "m.text"), ("body", .str "hello")])) :=
    stringifyOrMalformed_eq_ok.mpr ⟨_, rfl, rfl⟩
  have hsent : ∃ sent, encryptEvent (Json.integers fun _ _ => true) messageReaders
      "!room:example.org" "m.room.message" helloMessage.value (some messageMachine) = .ok sent ∧
      sent.ciphertext = (Json.printText (Json.integers fun _ _ => true)
        (ciphertext helloCiphertext)).toUTF8 := by
    simp [encryptEvent, htext, MatrixCrypto.encryptEvent, isJson_of_stringify htext, messageReaders,
      messageMachine, helloCiphertext]
  obtain ⟨raw, hraw⟩ : ∃ raw, stringifyOrMalformed (Json.integers fun _ _ => true)
    sealedEvent.value = .ok raw := ⟨_, stringifyOrMalformed_eq_ok.mpr ⟨_, rfl, rfl⟩⟩
  have hcarries : (sealedEvent.value.get "content").json? = some (.obj
      [("ciphertext", .str helloCiphertext), ("algorithm", .str "m.megolm.v1.aes-sha2")]) := rfl
  obtain ⟨event, hevent, hfield⟩ := field?_readDeepText hraw hcarries
  have hciphertext : ciphertextIn raw = some helloCiphertext := by
    rw [ciphertextIn, hevent, Option.bind_some, hfield]
    rfl
  have hfields : messageReaders.eventFields helloCiphertext = some ⟨"m.room.message",
      "@alice:example.org", Json.printText (Json.integers fun _ _ => true)
        (.obj [("msgtype", .str "m.text"), ("body", .str "hello")])⟩ := by
    simp [messageReaders, textIn, helloCiphertext, plaintext, readDeepText_strings, Json.field?,
      Json.asStr?]
  have hopened : messageMachine.decryptRoomEvent "!room:example.org" raw .untrusted =
      .ok ⟨helloCiphertext, .verified⟩ := by
    simp only [messageMachine, hciphertext]
  obtain ⟨opened, hcore⟩ : ∃ opened, MatrixCrypto.decryptEvent messageReaders "!room:example.org"
      raw .any (some messageMachine) = .ok opened :=
    ⟨_, MatrixCrypto.decryptEvent_eq_ok.mpr
      ⟨_, _, _, rfl, rfl, isJson_of_stringify hraw, hopened, hfields, rfl⟩⟩
  obtain ⟨received, hreceived⟩ : ∃ received, decryptEvent (Json.integers fun _ _ => true)
      messageReaders (.string "!room:example.org") sealedEvent.value .undefined
        (some messageMachine) = .ok received :=
    decryptEvent_of_served rfl hraw hcore
  obtain ⟨sent, hsent, hsealed⟩ := hsent
  have hread : sent.contentOf = some (ciphertext helloCiphertext) := by
    rw [EventEnvelope.contentOf, hsealed, fromUTF8?_toUTF8, Option.bind_some, ciphertext,
      readDeepText_strings]
  have hsame : (Json.obj [("ciphertext", .str helloCiphertext),
      ("algorithm", .str "m.megolm.v1.aes-sha2")]).Same (ciphertext helloCiphertext) :=
    .obj rfl (List.forall₂_same.mpr fun v _ => .refl v)
      (.swap ("algorithm", Json.str "m.megolm.v1.aes-sha2")
        ("ciphertext", Json.str helloCiphertext) [])
  obtain ⟨htype, v, w, hv, hw, hvalue⟩ :=
    decryptEvent_encryptEvent opens_messageMachine hsent hread hcarries hsame hreceived
  have hpayload : helloMessage.value.json? =
      some (.obj [("msgtype", .str "m.text"), ("body", .str "hello")]) := rfl
  obtain rfl := Option.some.inj (hpayload.symm.trans hv)
  exact ⟨sent, received, hsent, hreceived, htype, w, hw, hvalue⟩

end

end Facade
end MatrixCrypto
