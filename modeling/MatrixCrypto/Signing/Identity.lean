import MatrixCrypto.Session.Registry

/-!
# The account's signing identity: what is stored, and what may be done with it

What the crypto store holds about the account's own signing identity, the
record of an identity minted and not yet seen accepted, the status the library
reports, and the two predicates that decide whether an identity may be
published or created.

## Main definitions

* `MasterPubkey`, `UserIdentity`, `Store` — what is stored.
* `Reads` — which of a call's store accesses fail.
* `ownMasterKey`, `identityIsUnpublished`, `noteIdentityMinted`,
  `noteIdentityPublished` — the record.
* `readStatus`, `mayPublish`, `mayCreate` — the gate.

## Main results

* `identityIsUnpublished_sound` — a positive reading is true of the store.
* `mayCreate_eq_ok`, `mayPublish_eq_ok` — the gate as conditions on the status.
* `not_mayPublish_and_mayCreate` — the two calls are never both served.
-/

namespace MatrixCrypto

open Lib

/-- Errors reported by machine-backed calls, less those of opening a store. -/
inductive MachineError
  | notInitialised
  | store
  | malformedIdentifier
  | unknownFlow
  | wrongStage
  | materialNotReady
  | unknownDevice
  | accountKeysNotFetched
  | identityAlreadyExists
  | identityNotKnown
  | privateKeysNotHeld
  | recoveryNotSetUp
  | recoveryKeyIncorrect
  | recoveryDataMalformed
  | recoveryAlreadyExists
  deriving DecidableEq, Repr

/-! ### What is stored -/

/-- A public key of a cross-signing key. -/
inductive SigningKey
  | ed25519 (base64 : String)
  | unknown (text : String)
  deriving DecidableEq, Repr

/-- A master key, less its signatures: what upstream's `PartialEq` compares. -/
structure MasterPubkey where
  userId : String
  usage : List String
  keys : OrdMap String SigningKey
  deriving DecidableEq

/-- `get_first_key`: the first ed25519 key, in the order of the key ids. -/
def MasterPubkey.getFirstKey (m : MasterPubkey) : Option String :=
  m.keys.entries.findSome? fun e =>
    match e.2 with
    | .ed25519 base64 => some base64
    | .unknown _ => none

/-- The identity the store holds for the account. -/
inductive UserIdentity
  | own (masterKey : MasterPubkey)
  | other
  deriving DecidableEq

/-- `UserIdentity::own`, less everything but the master key. -/
def UserIdentity.own? : UserIdentity → Option MasterPubkey
  | own masterKey => some masterKey
  | other => none

/-- What the crypto store holds about the account's identity. -/
structure Store where
  identity : Option UserIdentity
  /-- The value under `UNPUBLISHED_IDENTITY_KEY`. -/
  unpublishedIdentity : Option String
  /-- Whether all three private signing keys are held. -/
  privateKeysHeld : Bool
  deriving DecidableEq

/-- Which accesses to the store fail during one call. -/
structure Reads where
  /-- Reading the account's identity. -/
  identity : Bool := false
  /-- Reading it again, for its master key. -/
  masterKey : Bool := false
  /-- Reading or writing the record. -/
  record : Bool := false
  deriving DecidableEq

/-- `get_identity` for the account. -/
def getIdentity (fails : Bool) (store : Store) : Except Unit (Option UserIdentity) :=
  if fails then .error () else .ok store.identity

/-! ### The record -/

/-- The master key of the identity held, if one is. -/
def ownMasterKey (fails : Bool) (store : Store) : Option String :=
  match getIdentity fails store with
  | .ok (some identity) => identity.own?.bind MasterPubkey.getFirstKey
  | _ => none

/-- Whether the identity held is one minted here and never seen accepted. -/
def identityIsUnpublished (reads : Reads) (store : Store) : Bool :=
  match ownMasterKey reads.masterKey store with
  | none => false
  | some held =>
    if reads.record then false
    else store.unpublishedIdentity.any fun recorded => recorded == held

/-- Records the identity held as minted; a failed write is not an error. -/
def noteIdentityMinted (reads : Reads) (store : Store) : Store :=
  match ownMasterKey reads.masterKey store with
  | none => store
  | some held => if reads.record then store else { store with unpublishedIdentity := some held }

/-- Forgets the record; a failed removal is not an error. -/
def noteIdentityPublished (reads : Reads) (store : Store) : Store :=
  if reads.record then store else { store with unpublishedIdentity := none }

/-- The store holds an identity, and the record names its master key. -/
def Store.HoldsUnpublished (store : Store) : Prop :=
  ∃ masterKey held, store.identity = some (.own masterKey) ∧
    masterKey.getFirstKey = some held ∧ store.unpublishedIdentity = some held

/-- The store holds no identity of the account, or one recorded as unpublished. -/
def Store.NoneOrUnpublished (store : Store) : Prop :=
  store.identity = none ∨ store.HoldsUnpublished

theorem ownMasterKey_eq_some {fails : Bool} {store : Store} {held : String}
    (h : ownMasterKey fails store = some held) :
    ∃ masterKey, store.identity = some (.own masterKey) ∧ masterKey.getFirstKey = some held := by
  unfold ownMasterKey getIdentity at h
  cases fails with
  | true => simp at h
  | false =>
    cases hid : store.identity with
    | none => rw [hid] at h; simp at h
    | some identity =>
      rw [hid] at h
      cases identity with
      | other => simp [UserIdentity.own?] at h
      | own masterKey => exact ⟨masterKey, rfl, h⟩

/-- A positive reading of the record is true of the store. -/
theorem identityIsUnpublished_sound {reads : Reads} {store : Store}
    (h : identityIsUnpublished reads store = true) : store.HoldsUnpublished := by
  unfold identityIsUnpublished at h
  split at h
  · cases h
  · next held hheld =>
    obtain ⟨masterKey, hid, hkey⟩ := ownMasterKey_eq_some hheld
    cases hr : reads.record with
    | true => simp [hr] at h
    | false =>
      refine ⟨masterKey, held, hid, hkey, ?_⟩
      rw [hr] at h
      cases hrec : store.unpublishedIdentity with
      | none => rw [hrec] at h; cases h
      | some recorded =>
        rw [hrec] at h
        have heq : recorded = held := by simpa using h
        rw [heq]

/-- A reading none of whose accesses failed misses nothing. -/
theorem identityIsUnpublished_complete {reads : Reads} {store : Store}
    (hmaster : reads.masterKey = false) (hrecord : reads.record = false)
    (h : store.HoldsUnpublished) : identityIsUnpublished reads store = true := by
  obtain ⟨masterKey, held, hid, hkey, hrec⟩ := h
  have hheld : ownMasterKey reads.masterKey store = some held := by
    unfold ownMasterKey getIdentity
    rw [hmaster, hid]
    exact hkey
  unfold identityIsUnpublished
  rw [hheld, hrecord, hrec]
  simp

/-- Forgetting the record makes no identity an unpublished one. -/
theorem holdsUnpublished_of_published {reads : Reads} {store : Store}
    (h : (noteIdentityPublished reads store).HoldsUnpublished) : store.HoldsUnpublished := by
  unfold noteIdentityPublished at h
  split at h
  · exact h
  · obtain ⟨_, _, _, _, hrec⟩ := h
    cases hrec

/-! ### The status and the gate -/

/-- What the library says about the account's signing identity. -/
structure IdentityStatus where
  accountKeysFetched : Bool
  identityKnown : Bool
  privateKeysHeld : Bool
  accountKeysAnswerUnsettled : Bool
  identityPublicationPending : Bool
  deriving DecidableEq, Repr

/-- `read_status`. -/
def readStatus (s : RequestState) (reads : Reads) (store : Store) :
    Except MachineError IdentityStatus :=
  match getIdentity reads.identity store with
  | .error _ => .error .store
  | .ok identity => .ok {
      accountKeysFetched := s.accountKeysAnswered
      identityKnown := identity.isSome
      privateKeysHeld := store.privateKeysHeld
      accountKeysAnswerUnsettled := s.accountKeysAnswerUnsettled
      identityPublicationPending := identityIsUnpublished reads store }

/-- Whether the identity held may be published. -/
def mayPublish (status : IdentityStatus) : Except MachineError Unit :=
  if !status.accountKeysFetched then .error .accountKeysNotFetched
  else if !status.identityKnown then .error .identityNotKnown
  else if status.identityPublicationPending then .error .identityNotKnown
  else if !status.privateKeysHeld then .error .identityAlreadyExists
  else .ok ()

/-- Whether the account's first identity may be created. -/
def mayCreate (status : IdentityStatus) : Except MachineError Unit :=
  if !status.accountKeysFetched then .error .accountKeysNotFetched
  else if status.identityKnown && !status.identityPublicationPending then
    .error .identityAlreadyExists
  else .ok ()

theorem mayPublish_eq_ok {status : IdentityStatus} :
    mayPublish status = .ok () ↔ status.accountKeysFetched = true ∧
      status.identityKnown = true ∧ status.identityPublicationPending = false ∧
      status.privateKeysHeld = true := by
  unfold mayPublish
  cases status.accountKeysFetched <;> cases status.identityKnown <;>
    cases status.identityPublicationPending <;> cases status.privateKeysHeld <;> simp

theorem mayCreate_eq_ok {status : IdentityStatus} :
    mayCreate status = .ok () ↔ status.accountKeysFetched = true ∧
      (status.identityKnown = false ∨ status.identityPublicationPending = true) := by
  unfold mayCreate
  cases status.accountKeysFetched <;> cases status.identityKnown <;>
    cases status.identityPublicationPending <;> simp

/-- **The two calls are never both served.** -/
theorem not_mayPublish_and_mayCreate (status : IdentityStatus) :
    ¬ (mayPublish status = .ok () ∧ mayCreate status = .ok ()) := by
  rw [mayPublish_eq_ok, mayCreate_eq_ok]
  rintro ⟨⟨_, hknown, hpending, _⟩, _, h | h⟩
  · rw [hknown] at h; cases h
  · rw [hpending] at h; cases h

theorem readStatus_eq_ok {s : RequestState} {reads : Reads} {store : Store}
    {status : IdentityStatus} (h : readStatus s reads store = .ok status) :
    status.accountKeysFetched = s.accountKeysAnswered ∧
      status.identityKnown = store.identity.isSome ∧
      status.identityPublicationPending = identityIsUnpublished reads store := by
  unfold readStatus getIdentity at h
  cases hr : reads.identity with
  | true => simp [hr] at h
  | false =>
    simp only [hr, Bool.false_eq_true, if_false, Except.ok.injEq] at h
    subst h
    exact ⟨rfl, rfl, rfl⟩

/-- **A served create finds no identity, or one recorded as unpublished.** -/
theorem noneOrUnpublished_of_mayCreate {s : RequestState} {reads : Reads} {store : Store}
    {status : IdentityStatus} (hr : readStatus s reads store = .ok status)
    (h : mayCreate status = .ok ()) :
    s.accountKeysAnswered = true ∧ store.NoneOrUnpublished := by
  obtain ⟨hfetched, hknown, hpending⟩ := readStatus_eq_ok hr
  obtain ⟨hf, h⟩ := mayCreate_eq_ok.mp h
  refine ⟨hfetched ▸ hf, ?_⟩
  rcases h with h | h
  · rw [hknown] at h
    exact Or.inl (Option.isNone_iff_eq_none.mp (by simpa using h))
  · exact Or.inr (identityIsUnpublished_sound (hpending ▸ h))

end MatrixCrypto
