import MatrixCrypto.Lib.Except
import MatrixCrypto.Recovery.AccountData
import MatrixCrypto.Session.Mark

/-!
# Server-side recovery

`create_recovery` and `recover_identity`: the private signing keys, encrypted
into the account's own account data and read back out of it.  The encryption, and
the reading and writing of JSON, are upstream's and `serde_json`'s; what they
provide is the parameter `SecretStorage`.

## Main definitions

* `DecodeError`, `classifyDecodeError` — why a secret opened no key.
* `SecretStorage` — the encryption and the JSON readers.
* `pointedKeyId`, `existingCiphertexts` — what is read of the account data.
* `readSecret`, `openRecovery` — the seeds a secret opens.
* `mayRecover`, `recoverIdentity`, `createRecovery` — the whole calls.

## Main results

* `openRecovery_eq_ok`, `readSecret_eq_ok` — what opening takes, part by part.
* `createRecovery_eq_ok` — what a served create found and writes.
-/

namespace MatrixCrypto

open Lib

/-! ### Why a secret opens no key -/

/-- Upstream's `DecodeError`, less what its variants carry. -/
inductive DecodeError
  | mac
  | base58
  | base64
  | ivLength
  | macLength
  | keyLength
  | prefixBytes
  | parity
  | unsupportedAlgorithm
  | kdfIterationCount
  deriving DecidableEq, Repr

/-- The error describes the stored key description, and not the secret. -/
def DecodeError.OfDescription : DecodeError → Prop
  | base64 | ivLength | macLength | unsupportedAlgorithm | kdfIterationCount => True
  | mac | base58 | keyLength | prefixBytes | parity => False

/-- `classify_decode_error`. -/
def classifyDecodeError : DecodeError → MachineError
  | .mac | .base58 | .keyLength | .prefixBytes | .parity => .recoveryKeyIncorrect
  | .base64 | .ivLength | .macLength | .unsupportedAlgorithm | .kdfIterationCount =>
    .recoveryDataMalformed

/-- **What describes the secret is a wrong secret**, and nothing else is. -/
theorem classifyDecodeError_eq {e : DecodeError} (h : ¬ e.OfDescription) :
    classifyDecodeError e = .recoveryKeyIncorrect := by
  cases e <;> first | rfl | exact absurd trivial h

/-! ### What upstream and the JSON library provide -/

/-- The encryption of secret storage, and the readers and writers of JSON. -/
structure SecretStorage where
  /-- JSON texts. -/
  Text : Type
  Key : Type
  /-- A ciphertext with its check fields. -/
  Encrypted : Type
  /-- A key description. -/
  Description : Type
  /-- What a new key draws. -/
  Randomness : Type
  /-- `serde_json::from_str`, into a `Value`. -/
  fromStr : Text → Option Json
  /-- `serde_json::to_string`, of a `Value`. -/
  toText : Json → Text
  /-- `serde_json::from_str`, into a `SecretEventContent`: its `encrypted` map, whose
  ciphertexts stay texts. -/
  secretEventContent : Text → Option (String → Option Text)
  /-- `deserialize_as_unchecked`, of one of those texts. -/
  deserialize : Text → Option Encrypted
  /-- `serde_json::to_value`, of a ciphertext. -/
  toValue : Encrypted → Json
  /-- `RawValue::from_string` and `SecretStorageKeyEventContent::from_parts`: the
  description of an event type and its content. -/
  fromParts : String → Text → Option Description
  /-- `SecretStorageKey::from_account_data`. -/
  fromAccountData : String → Description → Except DecodeError Key
  /-- `SecretStorageKey::new_from_passphrase`. -/
  newFromPassphrase : Randomness → String → Key
  keyId : Key → String
  /-- `event_content`, as JSON. -/
  eventContent : Key → Text
  toBase58 : Key → String
  encrypt : Key → ByteArray → SecretName → Encrypted
  decrypt : Key → Encrypted → SecretName → Option ByteArray

/-- `CrossSigningKeyExport`. -/
structure CrossSigningKeyExport where
  masterKey : Option String
  selfSigningKey : Option String
  userSigningKey : Option String
  deriving DecidableEq, Repr

/-- The export of three seeds. -/
def CrossSigningKeyExport.ofSeeds (seeds : List String) : CrossSigningKeyExport :=
  ⟨seeds[0]?, seeds[1]?, seeds[2]?⟩

/-- Everything `create_recovery` produced. -/
structure RecoverySetup (Text : Type) where
  recoveryKey : String
  /-- The account data to write, in the order it should be written. -/
  accountData : AccountData Text

namespace SecretStorage

variable (C : SecretStorage)

/-! ### What is read of the account data -/

/-- `pointed_key_id`: the key the account data points at. -/
def pointedKeyId (data : AccountData C.Text) : Option String :=
  (((data.entry defaultKeyEventType).bind C.fromStr).bind fun content =>
    (content.field? "key").bind Json.asStr?).filter fun keyId => !keyId.isEmpty

/-- `existing_ciphertexts`: the fields of the `encrypted` map of a secret; a content
that cannot be read has none. -/
def existingCiphertexts (data : AccountData C.Text) (name : SecretName) :
    List (String × Json) :=
  ((((data.entry name.asStr).bind C.fromStr).bind fun content =>
    content.field? "encrypted").bind Json.asObject?).getD []

/-- The seed stored for one secret, under a key. -/
def readSecret (key : C.Key) (keyId : String) (data : AccountData C.Text)
    (name : SecretName) : Except MachineError String := do
  let stored ← okOr .recoveryNotSetUp (data.entry name.asStr)
  let encrypted ← okOr .recoveryDataMalformed (C.secretEventContent stored)
  let ciphertext ← okOr .recoveryNotSetUp (encrypted keyId)
  let ciphertext ← okOr .recoveryDataMalformed (C.deserialize ciphertext)
  let plaintext ← okOr .recoveryDataMalformed (C.decrypt key ciphertext name)
  okOr .recoveryDataMalformed (String.fromUTF8? plaintext)

/-- The seeds a secret opens: `restore`, between its gate and its import. -/
def openRecovery (secret : String) (data : AccountData C.Text) :
    Except MachineError CrossSigningKeyExport := do
  let keyId ← okOr .recoveryNotSetUp (C.pointedKeyId data)
  let content ← okOr .recoveryNotSetUp (data.entry (keyEventType keyId))
  let description ← okOr .recoveryDataMalformed (C.fromParts (keyEventType keyId) content)
  let key ← (C.fromAccountData secret description).mapError classifyDecodeError
  let seeds ← secrets.mapM (C.readSecret key keyId data)
  return .ofSeeds seeds

/-! ### What is written -/

/-- The entry of one secret: its seed under the new key, beside what is stored. -/
def secretEntry (key : C.Key) (data : AccountData C.Text) (name : SecretName)
    (seed : String) : AccountDataEntry C.Text where
  eventType := name.asStr
  content := C.toText (.obj [("encrypted", .obj (Json.setField (C.existingCiphertexts data name)
    (C.keyId key) (C.toValue (C.encrypt key seed.toUTF8 name))))])

/-- The description of a key. -/
def keyEntry (key : C.Key) : AccountDataEntry C.Text :=
  ⟨keyEventType (C.keyId key), C.eventContent key⟩

/-- The pointer to a key. -/
def pointerEntry (key : C.Key) : AccountDataEntry C.Text :=
  ⟨defaultKeyEventType, C.toText (.obj [("key", .str (C.keyId key))])⟩

/-- What is written for a new key: its description, the three secrets, the pointer. -/
def setup (key : C.Key) (data : AccountData C.Text) (seeds : List String) :
    RecoverySetup C.Text where
  recoveryKey := C.toBase58 key
  accountData := C.keyEntry key :: ((secrets.zip seeds).map fun s => C.secretEntry key data s.1 s.2)
    ++ [C.pointerEntry key]

end SecretStorage

/-! ### The calls -/

/-- The gate of the two calls. -/
def mayRecover (status : IdentityStatus) : Except MachineError Unit :=
  if status.accountKeysFetched && status.identityPublicationPending then .error .identityNotKnown
  else if !status.accountKeysFetched then .error .accountKeysNotFetched
  else .ok ()

/-- What one trip of either call reads, and the query minted for a refusal. -/
structure RecoveryTrip where
  reads : Reads
  queryId : String
  query : KeysQueryRequest

/-- A refusal for want of the account's keys queues the query that ends it. -/
def RecoveryTrip.refuse (up : RecoveryTrip) (p : Process) (refusal : MachineError) : Process :=
  if refusal = .accountKeysNotFetched then
    { p with requests := p.requests.queueAccountKeyQuery up.queryId up.query }
  else p

/-- What one trip of `create_recovery` reads and draws. -/
structure Writing (C : SecretStorage) extends RecoveryTrip where
  /-- `export_cross_signing_keys`. -/
  exported : Except Unit (Option CrossSigningKeyExport)
  randomness : C.Randomness

/-- Upstream's `SecretImportError`. -/
inductive SecretImportError
  | key
  | mismatchedPublicKeys
  | store
  deriving DecidableEq, Repr

/-- What upstream makes of an import in one trip of `recover_identity`. -/
structure Restoring extends RecoveryTrip where
  /-- `import_cross_signing_keys`: whether the identity is complete after it. -/
  imported : CrossSigningKeyExport → Except SecretImportError Bool
  /-- The store right after it. -/
  store : CrossSigningKeyExport → Store

/-- The import that ends `restore`. -/
def Restoring.importSeeds (up : Restoring) (p : Process) (seeds : CrossSigningKeyExport) :
    Except MachineError Unit × Process :=
  match up.imported seeds with
  | .error .store => (.error .store, { p with store := up.store seeds })
  | .error _ => (.error .recoveryDataMalformed, { p with store := up.store seeds })
  | .ok complete =>
    (if complete then .ok () else .error .recoveryDataMalformed,
      { p with store := up.store seeds })

namespace SecretStorage

variable (C : SecretStorage)

/-- The gate of `restore`: that of both calls, and a known identity. -/
def gate (p : Process) (up : Restoring) : Except MachineError Unit := do
  let status ← readStatus p.requests up.reads p.store
  mayRecover status
  if status.identityKnown then pure () else throw .identityNotKnown

/-- `recover_identity`; the trip is `none` when there is no machine. -/
def recoverIdentity (secret : String) (data : AccountData C.Text) (p : Process)
    (trip : Option Restoring) : Except MachineError Unit × Process :=
  match trip with
  | none => (.error .notInitialised, p)
  | some up =>
    match gate p up with
    | .error refusal => (.error refusal, up.refuse p refusal)
    | .ok _ =>
      match C.openRecovery secret data with
      | .error e => (.error e, p)
      | .ok seeds => up.importSeeds p seeds

/-- What `write` makes of an export: all three private keys, or nothing. -/
def writeExport (up : Writing C) (passphrase : String) (data : AccountData C.Text) :
    Except MachineError (RecoverySetup C.Text) :=
  match up.exported with
  | .error _ => .error .store
  | .ok (some ⟨some master, some selfSigning, some userSigning⟩) =>
    .ok (C.setup (C.newFromPassphrase up.randomness passphrase) data
      [master, selfSigning, userSigning])
  | .ok _ => .error .privateKeysNotHeld

/-- `create_recovery`; the trip is `none` when there is no machine. -/
def createRecovery (passphrase : String) (data : AccountData C.Text) (p : Process)
    (trip : Option (Writing C)) : Except MachineError (RecoverySetup C.Text) × Process :=
  match trip with
  | none => (.error .notInitialised, p)
  | some up =>
    -- the argument is checked before the machine
    if (C.pointedKeyId data).isSome then (.error .recoveryAlreadyExists, p)
    else
      match readStatus p.requests up.reads p.store with
      | .error e => (.error e, p)
      | .ok status =>
        match mayRecover status with
        | .error refusal => (.error refusal, up.refuse p refusal)
        | .ok _ => (C.writeExport up passphrase data, p)

/-! ### What opening and writing take -/

section inversion

variable {C : SecretStorage} {data : AccountData C.Text}

/-- What reading one secret takes. -/
theorem readSecret_eq_ok {key : C.Key} {keyId seed : String} {name : SecretName} :
    C.readSecret key keyId data name = .ok seed ↔
      ∃ stored encrypted text ciphertext plaintext, data.entry name.asStr = some stored ∧
        C.secretEventContent stored = some encrypted ∧ encrypted keyId = some text ∧
          C.deserialize text = some ciphertext ∧ C.decrypt key ciphertext name = some plaintext ∧
            String.fromUTF8? plaintext = some seed := by
  simp only [readSecret, bind_eq_ok, okOr_eq_ok]
  constructor
  · rintro ⟨stored, h₁, encrypted, h₂, text, h₃, ciphertext, h₄, plaintext, h₅, h₆⟩
    exact ⟨stored, encrypted, text, ciphertext, plaintext, h₁, h₂, h₃, h₄, h₅, h₆⟩
  · rintro ⟨stored, encrypted, text, ciphertext, plaintext, h₁, h₂, h₃, h₄, h₅, h₆⟩
    exact ⟨stored, h₁, encrypted, h₂, text, h₃, ciphertext, h₄, plaintext, h₅, h₆⟩

/-- What opening a recovery takes. -/
theorem openRecovery_eq_ok {secret : String} {seeds : CrossSigningKeyExport} :
    C.openRecovery secret data = .ok seeds ↔
      ∃ keyId content description key read, C.pointedKeyId data = some keyId ∧
        data.entry (keyEventType keyId) = some content ∧
          C.fromParts (keyEventType keyId) content = some description ∧
            C.fromAccountData secret description = .ok key ∧
              secrets.mapM (C.readSecret key keyId data) = .ok read ∧ .ofSeeds read = seeds := by
  simp only [openRecovery, bind_eq_ok, okOr_eq_ok, mapError_eq_ok, pure_eq_ok]
  constructor
  · rintro ⟨keyId, h₁, content, h₂, description, h₃, key, h₄, read, h₅, h₆⟩
    exact ⟨keyId, content, description, key, read, h₁, h₂, h₃, h₄, h₅, h₆⟩
  · rintro ⟨keyId, content, description, key, read, h₁, h₂, h₃, h₄, h₅, h₆⟩
    exact ⟨keyId, h₁, content, h₂, description, h₃, key, h₄, read, h₅, h₆⟩

/-- **What a served create found, and what it writes.** -/
theorem createRecovery_eq_ok {passphrase : String} {p : Process} {up : Writing C}
    {written : RecoverySetup C.Text}
    (h : (C.createRecovery passphrase data p (some up)).1 = .ok written) :
    C.pointedKeyId data = none ∧ ∃ master selfSigning userSigning,
      up.exported = .ok (some ⟨some master, some selfSigning, some userSigning⟩) ∧
        written = C.setup (C.newFromPassphrase up.randomness passphrase) data
          [master, selfSigning, userSigning] := by
  simp only [createRecovery] at h
  cases hpointed : C.pointedKeyId data with
  | some keyId =>
    simp only [hpointed, Option.isSome_some, if_true] at h
    cases h
  | none =>
    simp only [hpointed, Option.isSome_none, Bool.false_eq_true, if_false] at h
    refine ⟨rfl, ?_⟩
    cases hstatus : readStatus p.requests up.reads p.store with
    | error e =>
      simp only [hstatus] at h
      cases h
    | ok status =>
      simp only [hstatus] at h
      cases hmay : mayRecover status with
      | error refusal =>
        simp only [hmay] at h
        cases h
      | ok _ =>
        simp only [hmay] at h
        unfold writeExport at h
        split at h
        · cases h
        · next master selfSigning userSigning hexported =>
          exact ⟨master, selfSigning, userSigning, hexported, (Except.ok.inj h).symm⟩
        · cases h

end inversion

end SecretStorage

end MatrixCrypto
