import MatrixCrypto.Backup.Restore
import MatrixCrypto.Lib.Except

/-!
# Creating a backup, and asking about it

`create_backup`, `backup_state` and `restore_key_matches`: the keys and the description of a
version are upstream's, the parameter `BackupKeys`, and so are the counts.

## Main definitions

* `BackupKeys`, `BackupKeys.Lawful` — the keys of a backup, as they are spelled and read.
* `createBackup`, `restoreKeyMatches`, `backupState` — the calls.
* `SealedFor` — an entry that the owner of a public key opens.

## Main results

* `restoreKeyMatches_eq_ok` — what the answer says of the key and of the version.
* `restoreKeyMatches_createBackup` — **a restore key opens the version it was created with**,
  and no version of another key.
* `backedUp_eq_total_iff` — when the two counts of a state agree.
-/

namespace MatrixCrypto

open Lib

/-- `RoomKeyBackupInfo`. -/
inductive RoomKeyBackupInfo (PublicKey : Type)
  | megolmBackupV1Curve25519AesSha2 (publicKey : PublicKey)
  /-- An algorithm that is not implemented. -/
  | other
  deriving DecidableEq

/-- The keys of a backup, and how they and the description of a version are written and read. -/
structure BackupKeys extends KeyBackup where
  PublicKey : Type
  [decidableEqPublicKey : DecidableEq PublicKey]
  megolmV1PublicKey : Key → PublicKey
  /-- The base58 form, in groups of four. -/
  display : Key → String
  toBase64 : PublicKey → String
  fromBase64 : String → Option PublicKey
  writeInfo : RoomKeyBackupInfo PublicKey → String
  readInfo : String → Option (RoomKeyBackupInfo PublicKey)

attribute [instance] BackupKeys.decidableEqPublicKey

/-- `BackupSetup`. -/
structure BackupSetup where
  restoreKey : String
  sealingKey : String
  versionRequest : String
  deriving DecidableEq, Repr

/-- `RoomKeyCounts`. -/
structure RoomKeyCounts where
  total : ℕ
  backedUp : ℕ
  deriving DecidableEq, Repr

/-- `BackupState`; the two counts are `u32`. -/
structure BackupState where
  enabled : Bool
  version : Option String
  total : ℕ
  backedUp : ℕ
  deriving DecidableEq, Repr

/-- `backup_state`; there is no machine, or there is one, and what it counts. -/
def backupState {K : Type} (machine : Option (BackupMachine K × Except Unit RoomKeyCounts)) :
    Except BackupError BackupState :=
  match machine with
  | none => .error .notInitialised
  | some (m, counts) =>
    match counts with
    | .error _ => .error .failed
    | .ok counts => .ok
        { enabled := m.enabled
          version := m.backupVersion
          total := counts.total % 2 ^ 32
          backedUp := counts.backedUp % 2 ^ 32 }

/-- The two counts of a state agree exactly where every key is backed up, of less than `2 ^ 32`
keys. -/
theorem backedUp_eq_total_iff {K : Type} {m : BackupMachine K} {counts : RoomKeyCounts}
    {state : BackupState} (h : backupState (some (m, .ok counts)) = .ok state)
    (hle : counts.backedUp ≤ counts.total) (hlt : counts.total < 2 ^ 32) :
    state.backedUp = state.total ↔ counts.backedUp = counts.total := by
  obtain rfl := Except.ok.inj h
  have htotal : counts.total % 2 ^ 32 = counts.total := Nat.mod_eq_of_lt hlt
  have hbackedUp : counts.backedUp % 2 ^ 32 = counts.backedUp :=
    Nat.mod_eq_of_lt (Nat.lt_of_le_of_lt hle hlt)
  rw [htotal, hbackedUp]

namespace BackupKeys

variable (B : BackupKeys)

/-- What is written is read. -/
structure Lawful : Prop where
  fromBase58_display : ∀ key, B.fromBase58 (B.display key) = some key
  fromBase64_toBase64 : ∀ key, B.fromBase64 (B.toBase64 key) = some key
  readInfo_writeInfo : ∀ info, B.readInfo (B.writeInfo info) = some info

/-- `to_backup_info`. -/
def toBackupInfo (key : B.Key) : RoomKeyBackupInfo B.PublicKey :=
  .megolmBackupV1Curve25519AesSha2 (B.megolmV1PublicKey key)

/-- `backup_key_matches`. -/
def backupKeyMatches (key : B.Key) : RoomKeyBackupInfo B.PublicKey → Bool
  | .megolmBackupV1Curve25519AesSha2 publicKey => B.megolmV1PublicKey key == publicKey
  | .other => false

/-- `create_backup`, with the key that was drawn. -/
def createBackup (key : B.Key) : BackupSetup where
  restoreKey := B.display key
  sealingKey := B.toBase64 (B.megolmV1PublicKey key)
  versionRequest := B.writeInfo (B.toBackupInfo key)

/-- `restore_key_matches`. -/
def restoreKeyMatches (restoreKey versionInfo : String) : Except RestoreError Bool := do
  let key ← okOr (.backup .malformedIdentifier) (B.fromBase58 restoreKey)
  let info ← okOr .malformedPayload (B.readInfo versionInfo)
  pure (B.backupKeyMatches key info)

/-- An entry that whoever has the private half opens. -/
def SealedFor (publicKey : B.PublicKey) (entry : B.Raw) : Prop :=
  ∀ key, B.megolmV1PublicKey key = publicKey → ∃ data roomKey,
    B.deserialize entry = some data ∧ B.decryptSessionData key data = some roomKey

variable {B} {restoreKey versionInfo : String} {matched : Bool}

theorem backupKeyMatches_iff {key : B.Key} {info : RoomKeyBackupInfo B.PublicKey} :
    B.backupKeyMatches key info = true ↔ info = B.toBackupInfo key := by
  unfold toBackupInfo
  cases info with
  | megolmBackupV1Curve25519AesSha2 publicKey =>
    rw [backupKeyMatches, beq_iff_eq, RoomKeyBackupInfo.megolmBackupV1Curve25519AesSha2.injEq]
    exact eq_comm
  | other =>
    constructor
    · intro h
      cases h
    · intro h
      cases h

theorem restoreKeyMatches_eq_ok :
    B.restoreKeyMatches restoreKey versionInfo = .ok matched ↔
      ∃ key info, B.fromBase58 restoreKey = some key ∧ B.readInfo versionInfo = some info ∧
        B.backupKeyMatches key info = matched := by
  unfold restoreKeyMatches
  constructor
  · intro h
    obtain ⟨key, hkey, h⟩ := bind_eq_ok.mp h
    obtain ⟨info, hinfo, h⟩ := bind_eq_ok.mp h
    exact ⟨key, info, okOr_eq_ok.mp hkey, okOr_eq_ok.mp hinfo, pure_eq_ok.mp h⟩
  · intro h
    obtain ⟨key, info, hkey, hinfo, rfl⟩ := h
    rw [hkey, hinfo]
    rfl

/-- **A restore key opens the version it was created with**, and no version of another key. -/
theorem restoreKeyMatches_createBackup (hB : B.Lawful) (key key' : B.Key) :
    B.restoreKeyMatches (B.createBackup key).restoreKey (B.createBackup key').versionRequest =
      .ok (B.megolmV1PublicKey key == B.megolmV1PublicKey key') := by
  apply restoreKeyMatches_eq_ok.mpr
  exact ⟨key, B.toBackupInfo key', hB.fromBase58_display key, hB.readInfo_writeInfo _, rfl⟩

end BackupKeys
end MatrixCrypto
