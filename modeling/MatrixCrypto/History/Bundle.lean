import MatrixCrypto.History.Attachment
import MatrixCrypto.Session.Share

/-!
# A room's past, handed over

One device seals the room keys it holds into a bundle, the product uploads it, and the
announcement that says where it is and what opens it goes to the devices of one user.  The
product of that user downloads it, and its device opens it with what the announcement said.

## Main definitions

* `RoomKeyBundle`, `EncryptedFile`, `RoomKeyBundleContent` — a bundle, and its announcement.
* `SenderData`, `BundleData` — an announcement that arrived, and what is known of its sender.
* `HistoryCipher` — how a bundle and the description of a file are written and read.
* `buildHistoryBundle`, `shareHistoryBundle`, `offeredHistoryBundle`, `receiveHistoryBundle` —
  the calls.

## Main results

* `shareHistoryBundle_cases` — a share announces and queues, or fails and does neither.
* `openBundle_cases` — what a bundle opens to, whatever was downloaded in its place.
* `receiveHistoryBundle_eq_ok` — what a download that was imported is.
-/

namespace MatrixCrypto

open Lib Facade

/-! ### Bundles and announcements -/

/-- A room key of a bundle. -/
structure HistoricRoomKey where
  roomId : String
  sessionId : String
  sessionKey : String
  deriving DecidableEq, Repr

/-- Upstream's `RoomKeyBundle`. -/
structure RoomKeyBundle where
  roomKeys : List HistoricRoomKey
  /-- The sessions that were left out. -/
  withheld : List String
  deriving DecidableEq, Repr

/-- Where a file is, and what opens it. -/
structure EncryptedFile (Info : Type) where
  url : String
  info : Info

/-- What is announced of a bundle. -/
structure RoomKeyBundleContent (Info : Type) where
  roomId : String
  file : EncryptedFile Info

/-- What is known of the device that sent an announcement. -/
inductive SenderData
  | unknownDevice
  | deviceInfo
  | verificationViolation
  | senderUnverified
  | senderVerified
  deriving DecidableEq, Repr

/-- An announcement that arrived. -/
structure BundleData (Info : Type) where
  bundleData : RoomKeyBundleContent Info
  senderData : SenderData

/-- Whose devices receive a key. -/
inductive CollectStrategy
  | identityBasedStrategy
  | allDevices
  deriving DecidableEq, Repr

/-- `collect_strategy`, from what the account's identity is and whether it is verified. -/
def collectStrategy (identity : Except Unit (Option UserIdentity))
    (isVerified : MasterPubkey → Bool) : CollectStrategy :=
  match identity with
  | .ok (some (.own masterKey)) =>
    if isVerified masterKey then .identityBasedStrategy else .allDevices
  | _ => .allDevices

/-- How the bundle itself and the description of a file that has a place are written and read. -/
structure HistoryCipher (Key Digest Info : Type) extends MediaCipher Key Digest Info where
  /-- `serde_json::to_vec`. -/
  writeBundle : RoomKeyBundle → List UInt8
  /-- `serde_json::from_slice`. -/
  readBundle : List UInt8 → Option RoomKeyBundle
  readFile : Json → Option (EncryptedFile Info)
  /-- `OwnedMxcUri::is_valid`. -/
  isMxcUri : String → Bool

/-- What serde wrote of a bundle it reads, and the description of a file with a place is the
description of the file beside its `url`. -/
structure HistoryCipher.LawfulHistory {Key Digest Info : Type}
    (A : HistoryCipher Key Digest Info) : Prop extends A.toMediaCipher.Lawful where
  readBundle_writeBundle : ∀ bundle, A.readBundle (A.writeBundle bundle) = some bundle
  readFile_writeInfo : ∀ info url,
    A.readFile (.obj (Json.setField (A.writeInfo info) "url" (.str url))) = some ⟨url, info⟩

/-! ### The calls -/

/-- What upstream answers the calls of this module. -/
structure HistoryMachine (Info : Type) where
  buildRoomKeyBundle : String → Except Unit RoomKeyBundle
  /-- `get_identity` for the account, and `is_verified`. -/
  ownIdentity : Except Unit (Option UserIdentity)
  isVerified : MasterPubkey → Bool
  shareRoomKeyBundleData : String → CollectStrategy → RoomKeyBundleContent Info →
    Except Unit (List ToDeviceRequest)
  getReceivedRoomKeyBundleData : String → String → Except Unit (Option (BundleData Info))
  /-- The keys it imported, each told to the progress callback. -/
  receiveRoomKeyBundle : BundleData Info → RoomKeyBundle → Except Unit (List HistoricRoomKey)

/-- A room's history, encrypted and ready to upload. -/
structure HistoryBundle where
  ciphertext : List UInt8
  secret : String
  shared : ℕ
  withheld : ℕ
  deriving DecidableEq, Repr

/-- Where a bundle that was offered is. -/
structure HistoryOffer where
  url : String
  deriving DecidableEq, Repr

/-- What an import did. -/
structure HistoryImport where
  offered : ℕ
  imported : ℕ
  deriving DecidableEq, Repr

namespace HistoryCipher

variable {Key Digest Info : Type} (A : HistoryCipher Key Digest Info)
  (P : ScopeParsers)

/-- The bundle sealed under a key. -/
def sealBundle (key : Key) (bundle : RoomKeyBundle) : HistoryBundle :=
  let (ciphertext, description) := A.sealFile key (A.writeBundle bundle)
  { ciphertext
    secret := A.secretOf (A.finish description)
    shared := bundle.roomKeys.length % 2 ^ 32
    withheld := bundle.withheld.length % 2 ^ 32 }

/-- `build_history_bundle`, with the key that was drawn. -/
def buildHistoryBundle (key : Key) (scope : String) (machine : Option (HistoryMachine Info)) :
    Except HistoryFfiError HistoryBundle :=
  if !P.isRoomId scope then .error .malformedIdentifier
  else
    match machine with
    | none => .error .notInitialised
    | some m =>
      match m.buildRoomKeyBundle scope with
      | .error _ => .error .failed
      | .ok bundle => .ok (A.sealBundle key bundle)

/-- The file of an announcement: the fields of the secret, and the place beside them. -/
def fileOf (url secret : String) : Except HistoryFfiError (EncryptedFile Info) := do
  let described ← okOr .malformedPayload (Json.readText A.fits secret)
  let fields ← okOr .malformedPayload described.asObject?
  okOr .malformedPayload (A.readFile (.obj (Json.setField fields "url" (.str url))))

/-- `share_history_bundle`, with what is announced; nothing is queued where it fails. -/
def shareHistoryBundle (s : RequestState) (scope user url secret : String)
    (machine : Option (HistoryMachine Info)) :
    Except HistoryFfiError (RoomKeyBundleContent Info) × RequestState :=
  if !P.isRoomId scope then (.error .malformedIdentifier, s)
  else if !P.isUserId user then (.error .malformedIdentifier, s)
  else if !A.isMxcUri url then (.error .malformedIdentifier, s)
  else
    match A.fileOf url secret with
    | .error e => (.error e, s)
    | .ok file =>
      match machine with
      | none => (.error .notInitialised, s)
      | some m =>
        let content : RoomKeyBundleContent Info := ⟨scope, file⟩
        match m.shareRoomKeyBundleData user (collectStrategy m.ownIdentity m.isVerified)
            content with
        | .error _ => (.error .failed, s)
        | .ok requests => (.ok content, s.queueToDeviceRequests requests)

/-- `offered_history_bundle`. -/
def offeredHistoryBundle (scope sender : String) (machine : Option (HistoryMachine Info)) :
    Except HistoryFfiError (Option HistoryOffer) :=
  if !P.isRoomId scope then .error .malformedIdentifier
  else if !P.isUserId sender then .error .malformedIdentifier
  else
    match machine with
    | none => .error .notInitialised
    | some m =>
      match m.getReceivedRoomKeyBundleData scope sender with
      | .error _ => .error .failed
      | .ok stored => .ok (stored.map fun data => ⟨data.bundleData.file.url⟩)

/-- The bundle in a download, opened with what the announcement said. -/
def openBundle (info : Info) (ciphertext : List UInt8) : Except HistoryFfiError RoomKeyBundle := do
  let description ← okOr .bundleUnreadable (A.decryptor info)
  let plaintext ← okOr .bundleUnreadable (A.openFile description ciphertext)
  okOr .bundleUnreadable (A.readBundle plaintext)

/-- `receive_history_bundle`, with the keys that were imported. -/
def receiveHistoryBundle (scope sender : String) (ciphertext : List UInt8)
    (machine : Option (HistoryMachine Info)) :
    Except HistoryFfiError (HistoryImport × List HistoricRoomKey) :=
  if !P.isRoomId scope then .error .malformedIdentifier
  else if !P.isUserId sender then .error .malformedIdentifier
  else
    match machine with
    | none => .error .notInitialised
    | some m =>
      match m.getReceivedRoomKeyBundleData scope sender with
      | .error _ => .error .failed
      | .ok none => .error .noOffer
      | .ok (some data) =>
        -- checked here: upstream drops what it does not trust and says it succeeded
        if data.senderData ≠ .senderUnverified ∧ data.senderData ≠ .senderVerified then
          .error .senderNotTrusted
        else
          match A.openBundle data.bundleData.file.info ciphertext with
          | .error e => .error e
          | .ok bundle =>
            match m.receiveRoomKeyBundle data bundle with
            | .error _ => .error .failed
            | .ok keys => .ok (⟨bundle.roomKeys.length % 2 ^ 32, keys.length % 2 ^ 32⟩, keys)

variable {A P} {s : RequestState} {scope sender user url secret : String} {key : Key}
  {machine : Option (HistoryMachine Info)}

/-! ### What the calls come to -/

theorem buildHistoryBundle_eq_ok {out : HistoryBundle} :
    A.buildHistoryBundle P key scope machine = .ok out ↔
      ∃ m bundle, machine = some m ∧ P.isRoomId scope = true ∧
        m.buildRoomKeyBundle scope = .ok bundle ∧ out = A.sealBundle key bundle := by
  unfold buildHistoryBundle
  cases hscope : P.isRoomId scope with
  | false => simp
  | true =>
    cases machine with
    | none => simp
    | some m => cases hbuild : m.buildRoomKeyBundle scope <;> simp [hbuild, eq_comm]

/-- The secret that was handed out is announced as the description it is, beside the place. -/
theorem LawfulHistory.fileOf_secretOf (hA : A.LawfulHistory) (url : String) (info : Info) :
    A.fileOf url (A.secretOf info) = .ok ⟨url, info⟩ := by
  unfold fileOf
  rw [hA.readText_secretOf]
  simp [Json.asObject?, hA.readFile_writeInfo]

/-- A share fails and queues nothing, or announces the file and queues what upstream returned. -/
theorem shareHistoryBundle_cases (A : HistoryCipher Key Digest Info) (P : ScopeParsers)
    (s : RequestState) (scope user url secret : String)
    (machine : Option (HistoryMachine Info)) :
    (∃ e, A.shareHistoryBundle P s scope user url secret machine = (.error e, s)) ∨
      ∃ m file requests, machine = some m ∧ P.isRoomId scope = true ∧ P.isUserId user = true ∧
        A.isMxcUri url = true ∧ A.fileOf url secret = .ok file ∧
        m.shareRoomKeyBundleData user (collectStrategy m.ownIdentity m.isVerified)
          ⟨scope, file⟩ = .ok requests ∧
        A.shareHistoryBundle P s scope user url secret machine =
          (.ok ⟨scope, file⟩, s.queueToDeviceRequests requests) := by
  unfold shareHistoryBundle
  split
  · exact Or.inl ⟨_, rfl⟩
  · next hscope =>
    split
    · exact Or.inl ⟨_, rfl⟩
    · next huser =>
      split
      · exact Or.inl ⟨_, rfl⟩
      · next hurl =>
        cases hfile : A.fileOf url secret with
        | error e => exact Or.inl ⟨e, rfl⟩
        | ok file =>
          cases machine with
          | none => exact Or.inl ⟨_, rfl⟩
          | some m =>
            simp only
            cases hshare : m.shareRoomKeyBundleData user
              (collectStrategy m.ownIdentity m.isVerified) ⟨scope, file⟩ with
            | error _ => exact Or.inl ⟨_, rfl⟩
            | ok requests =>
              exact Or.inr ⟨m, file, requests, rfl, by simpa using hscope, by simpa using huser,
                by simpa using hurl, rfl, hshare, rfl⟩

/-- What was announced is the file the secret describes, in the room it was asked for. -/
theorem fileOf_of_shareHistoryBundle {content : RoomKeyBundleContent Info}
    (h : (A.shareHistoryBundle P s scope user url secret machine).1 = .ok content) :
    P.isRoomId scope = true ∧ A.fileOf url secret = .ok content.file ∧ content.roomId = scope := by
  obtain ⟨e, heq⟩ | ⟨m, file, requests, -, hscope, -, -, hfile, -, heq⟩ :=
    A.shareHistoryBundle_cases P s scope user url secret machine
  · rw [heq] at h
    cases h
  · rw [heq] at h
    cases h
    exact ⟨hscope, hfile, rfl⟩

/-! ### A download -/

/-- What a bundle that was sealed opens to, whatever was downloaded in its place. -/
theorem LawfulHistory.openBundle_cases (hA : A.LawfulHistory) (key : Key) (bundle : RoomKeyBundle)
    (downloaded : List UInt8) :
    let sealed := A.sealFile key (A.writeBundle bundle)
    A.openBundle (A.finish sealed.2) downloaded = .ok bundle ∧ downloaded = sealed.1 ∨
      A.openBundle (A.finish sealed.2) downloaded = .error .bundleUnreadable ∧
        A.digest downloaded ≠ A.digest sealed.1 ∨
      A.Collide downloaded sealed.1 := by
  intro sealed
  have hopen : A.openBundle (A.finish sealed.2) downloaded =
      (okOr .bundleUnreadable (A.openFile sealed.2 downloaded)) >>= fun plaintext =>
        okOr .bundleUnreadable (A.readBundle plaintext) := by
    unfold openBundle
    rw [hA.decryptor_finish]
    rfl
  cases hout : A.openFile sealed.2 downloaded with
  | none =>
    refine Or.inr (Or.inl ⟨?_, hA.openFile_eq_none.mp hout⟩)
    rw [hopen, hout]
    rfl
  | some plaintext =>
    rcases hA.eq_or_collide_of_openFile hout with ⟨rfl, hsame⟩ | hcollide
    · refine Or.inl ⟨?_, hsame⟩
      rw [hopen, hout]
      simp [hA.readBundle_writeBundle]
    · exact Or.inr (Or.inr hcollide)

/-- A download that was imported was offered by a sender that is trusted, and is the bundle it
opens to. -/
theorem receiveHistoryBundle_eq_ok {downloaded : List UInt8} {report : HistoryImport}
    {keys : List HistoricRoomKey} :
    A.receiveHistoryBundle P scope sender downloaded machine = .ok (report, keys) ↔
      ∃ m data bundle, machine = some m ∧ P.isRoomId scope = true ∧ P.isUserId sender = true ∧
        m.getReceivedRoomKeyBundleData scope sender = .ok (some data) ∧
        (data.senderData = .senderUnverified ∨ data.senderData = .senderVerified) ∧
        A.openBundle data.bundleData.file.info downloaded = .ok bundle ∧
        m.receiveRoomKeyBundle data bundle = .ok keys ∧
        report = ⟨bundle.roomKeys.length % 2 ^ 32, keys.length % 2 ^ 32⟩ := by
  constructor
  · intro h
    unfold receiveHistoryBundle at h
    split at h
    · cases h
    split at h
    · cases h
    next hscope hsender =>
    cases machine with
    | none => cases h
    | some m =>
      simp only at h
      cases hdata : m.getReceivedRoomKeyBundleData scope sender with
      | error _ => rw [hdata] at h; cases h
      | ok stored =>
        rw [hdata] at h
        cases stored with
        | none => cases h
        | some data =>
          simp only at h
          split at h
          · cases h
          next htrusted =>
          cases hbundle : A.openBundle data.bundleData.file.info downloaded with
          | error e => rw [hbundle] at h; cases h
          | ok bundle =>
            rw [hbundle] at h
            simp only at h
            cases hkeys : m.receiveRoomKeyBundle data bundle with
            | error _ => rw [hkeys] at h; cases h
            | ok keys' =>
              rw [hkeys] at h
              cases h
              exact ⟨m, data, bundle, rfl, by simpa using hscope, by simpa using hsender, hdata,
                by tauto, hbundle, hkeys, rfl⟩
  · rintro ⟨m, data, bundle, rfl, hscope, hsender, hdata, htrusted, hbundle, hkeys, rfl⟩
    have hnot : ¬(data.senderData ≠ .senderUnverified ∧ data.senderData ≠ .senderVerified) := by
      tauto
    unfold receiveHistoryBundle
    simp [hscope, hsender, hdata, hnot, hbundle, hkeys]

/-! ### A cipher that seals nothing away -/

/-- A room key as it is written. -/
def jsonOfKey (k : HistoricRoomKey) : Json :=
  .obj [("room_id", .str k.roomId), ("session_id", .str k.sessionId),
    ("session_key", .str k.sessionKey)]

def keyOfJson (v : Json) : Except Unit HistoricRoomKey := do
  let roomId ← okOr () ((v.field? "room_id").bind Json.asStr?)
  let sessionId ← okOr () ((v.field? "session_id").bind Json.asStr?)
  let sessionKey ← okOr () ((v.field? "session_key").bind Json.asStr?)
  pure ⟨roomId, sessionId, sessionKey⟩

def jsonOfBundle (bundle : RoomKeyBundle) : Json :=
  .obj [("room_keys", .arr (bundle.roomKeys.map jsonOfKey)),
    ("withheld", .arr (bundle.withheld.map Json.str))]

def bundleOfJson (v : Json) : Except Unit RoomKeyBundle := do
  let roomKeys ← okOr () ((v.field? "room_keys").bind fun
    | .arr vs => some vs
    | _ => none)
  let withheld ← okOr () ((v.field? "withheld").bind fun
    | .arr vs => some vs
    | _ => none)
  pure ⟨← roomKeys.mapM keyOfJson, ← withheld.mapM fun w => okOr () w.asStr?⟩

theorem bundleOfJson_jsonOfBundle (bundle : RoomKeyBundle) :
    bundleOfJson (jsonOfBundle bundle) = .ok bundle := by
  have hkey : ∀ k, keyOfJson (jsonOfKey k) = .ok k := fun k => rfl
  have hsession : ∀ w, okOr () (Json.str w).asStr? = .ok w := fun w => rfl
  have hkeys := mapM_map_of_roundTrip hkey bundle.roomKeys
  have hwithheld := mapM_map_of_roundTrip (f := fun w => okOr () (Json.asStr? w)) hsession
    bundle.withheld
  unfold bundleOfJson
  show (((bundle.roomKeys.map jsonOfKey).mapM keyOfJson) >>= fun roomKeys => _) = _
  rw [hkeys]
  show (((bundle.withheld.map Json.str).mapM fun w => okOr () w.asStr?) >>= fun withheld => _) = _
  rw [hwithheld]
  rfl

/-- `verbatim`, with bundles written as texts. -/
def verbatim : HistoryCipher String String (Description String String) where
  toMediaCipher := MediaCipher.verbatim
  writeBundle := fun bundle =>
    (Json.printText (Json.integers fun _ _ => true) (jsonOfBundle bundle)).toUTF8.data.toList
  readBundle := fun bytes => do
    let text ← String.fromUTF8? ⟨bytes.toArray⟩
    let v ← Json.readText (fun _ _ => true) text
    (bundleOfJson v).toOption
  readFile := fun v => do
    let info ← MediaCipher.verbatim.readInfo v
    let url ← (v.field? "url").bind Json.asStr?
    some ⟨url, info⟩
  isMxcUri := fun url => "mxc://".toList.isPrefixOf url.toList

theorem written_jsonOfBundle (bundle : RoomKeyBundle) :
    Json.Written (Json.integers fun _ _ => true) (jsonOfBundle bundle) := by
  apply Json.Written.obj
  intro f hf
  simp only [List.mem_cons, List.not_mem_nil, or_false] at hf
  rcases hf with rfl | rfl
  · apply Json.Written.arr
    intro v hv
    obtain ⟨k, -, rfl⟩ := List.mem_map.mp hv
    apply Json.Written.obj
    intro f hf
    simp only [List.mem_cons, List.not_mem_nil, or_false] at hf
    rcases hf with rfl | rfl | rfl <;> exact .str _
  · apply Json.Written.arr
    intro v hv
    obtain ⟨w, -, rfl⟩ := List.mem_map.mp hv
    exact .str w

theorem nesting_jsonOfBundle (bundle : RoomKeyBundle) :
    Json.nesting (jsonOfBundle bundle) < Json.depthLimit := by
  have hkeys : Json.nestingElements (bundle.roomKeys.map jsonOfKey) ≤ 1 := by
    apply Json.nestingElements_le
    intro v hv
    obtain ⟨k, -, rfl⟩ := List.mem_map.mp hv
    exact Nat.le_refl 1
  have hwithheld : Json.nestingElements (bundle.withheld.map Json.str) ≤ 0 := by
    apply Json.nestingElements_le
    intro v hv
    obtain ⟨w, -, rfl⟩ := List.mem_map.mp hv
    exact Nat.le_refl 0
  simp only [jsonOfBundle, Json.nesting, Json.nestingMembers, Json.depthLimit]
  omega

theorem verbatim_lawful : verbatim.LawfulHistory where
  toLawful := MediaCipher.verbatim_lawful
  readBundle_writeBundle := by
    intro bundle
    have hread := Json.readText_printText (written_jsonOfBundle bundle)
      (nesting_jsonOfBundle bundle)
    let text := Json.printText (Json.integers fun _ _ => true) (jsonOfBundle bundle)
    have htext : String.fromUTF8? ⟨text.toUTF8.data.toList.toArray⟩ = some text := by
      rw [Array.toArray_toList]
      exact fromUTF8?_toUTF8 text
    show (String.fromUTF8? ⟨text.toUTF8.data.toList.toArray⟩ >>= fun text =>
      Json.readText (fun _ _ => true) text >>= fun v => (bundleOfJson v).toOption) = some bundle
    rw [htext, Option.bind_eq_bind, Option.bind_some, hread, Option.bind_eq_bind,
      Option.bind_some, bundleOfJson_jsonOfBundle]
    rfl
  readFile_writeInfo := by
    intro info url
    rfl

end HistoryCipher
end MatrixCrypto
