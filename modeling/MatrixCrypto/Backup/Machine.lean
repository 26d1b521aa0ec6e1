import MatrixCrypto.Lib.Sections
import MatrixCrypto.Session.Mark

/-!
# Enabling a backup, and its batches

`enable_backup` and `disable_backup` over upstream's backup machine, and what a drain
and a report do to it.  Reading a sealing key and sealing a batch are upstream's; the
parameter `Sealing` says which key a sealing key names and which key a batch is sealed
under.

## Main definitions

* `BackupMachine`, `PendingBackup` — upstream's machine, and the batch it has in flight.
* `disableMachine`, `enableBackupV1`, `backup`, `markBackupAsSent` — upstream's four
  operations.
* `enableBackup`, `disableBackup`, `offers`, `markAsSent` — what the calls do to it.
* `Builds` — what upstream may build a batch of.

## Main results

* `enables_enableBackup` — **everything `enable_backup` can come to.**
* `backedUp_enableBackup` — **enabling the version already enabled unmarks nothing.**
* `offers_backupBatch` — a drain is offered what is in flight afterwards.
-/

namespace MatrixCrypto

open Lib

/-! ### Upstream -/

/-- How sealing keys are read, and what a batch is sealed under. -/
structure Sealing (K : Type) where
  /-- `MegolmV1BackupKey::from_base64`. -/
  fromBase64 : String → Option K
  sealedUnder : KeysBackupRequest → K → Prop

/-- A batch built and not yet reported sent. -/
structure PendingBackup where
  requestId : String
  request : KeysBackupRequest
  /-- The scope keys it carries. -/
  sessions : List String

/-- Upstream's backup machine. -/
structure BackupMachine (K : Type) where
  /-- The key being backed up under, with its version. -/
  backupKey : Option (K × String)
  pendingBackup : Option PendingBackup
  /-- The scope keys marked as backed up. -/
  backedUp : String → Bool

/-- How the store takes being told to forget what is backed up. -/
inductive Reset
  | taken
  /-- It fails, leaving these marks. -/
  | refused (marks : String → Bool)

/-- Errors from backing up, less the kinds only a restore returns. -/
inductive BackupError
  | malformedIdentifier
  | notInitialised
  | failed
  deriving DecidableEq, Repr

namespace BackupMachine

variable {K : Type}

/-- `enabled`. -/
def enabled (m : BackupMachine K) : Bool := m.backupKey.isSome

/-- `backup_version`. -/
def backupVersion (m : BackupMachine K) : Option String := m.backupKey.map Prod.snd

/-- `enable_backup_v1`: the key and its version, and nothing else. -/
def enableBackupV1 (m : BackupMachine K) (key : K) (version : String) (taken : Bool) :
    Except Unit Unit × BackupMachine K :=
  if taken then (.ok (), { m with backupKey := some (key, version) }) else (.error (), m)

/-- Upstream's `disable_backup`: the key and the batch are dropped before the store is
told. -/
def disableMachine (_ : BackupMachine K) : Reset → Except Unit Unit × BackupMachine K
  | .taken => (.ok (), ⟨none, none, fun _ => false⟩)
  | .refused marks => (.error (), ⟨none, none, marks⟩)

/-- `backup`: the batch in flight, or what is built now. -/
def backup (m : BackupMachine K) (built : Except Unit (Option PendingBackup)) :
    Except Unit (Option PendingBackup) × BackupMachine K :=
  match m.pendingBackup with
  | some batch => (.ok (some batch), m)
  | none => match built with
    | .ok (some batch) => (.ok (some batch), { m with pendingBackup := some batch })
    | _ => (built, m)

/-- What upstream may build: a batch for the enabled version, sealed under the
enabled key. -/
def Builds (S : Sealing K) (m : BackupMachine K) (built : Except Unit (Option PendingBackup)) :
    Prop :=
  ∀ batch, built = .ok (some batch) → ∃ key, m.backupKey = some (key, batch.request.version) ∧
    S.sealedUnder batch.request key

/-- `mark_request_as_sent`: the batch in flight is done if it is the one reported. -/
def markBackupAsSent (m : BackupMachine K) (id : String) : BackupMachine K :=
  match m.pendingBackup with
  | none => m
  | some batch =>
    if batch.requestId = id then
      { m with
        pendingBackup := none
        backedUp := fun session => m.backedUp session || batch.sessions.contains session }
    else m

/-! ### The calls -/

/-- The guard of `enable_backup`: moving to another version drops what is in flight. -/
def leaveVersion (m : BackupMachine K) (version : String) (reset : Reset) :
    Except Unit Unit × BackupMachine K :=
  match m.backupVersion with
  | some current => if current ≠ version then m.disableMachine reset else (.ok (), m)
  | none => (.ok (), m)

/-- The trip of `enable_backup`. -/
def enableTrip (m : BackupMachine K) (key : K) (version : String) (reset : Reset)
    (taken : Bool) : Except Unit Unit × BackupMachine K :=
  match m.leaveVersion version reset with
  | (.error e, n) => (.error e, n)
  | (.ok _, n) => n.enableBackupV1 key version taken

/-- `enable_backup`; the trip is `none` when there is no machine. -/
def enableBackup (m : BackupMachine K) (S : Sealing K) (sealingKey version : String)
    (trip : Option (Reset × Bool)) : Except BackupError Unit × BackupMachine K :=
  -- a version that is no version would be enabled as nothing, silently
  if version.isEmpty then (.error .malformedIdentifier, m)
  else match S.fromBase64 sealingKey with
    | none => (.error .malformedIdentifier, m)
    | some key =>
      match trip with
      | none => (.error .notInitialised, m)
      | some (reset, taken) =>
        ((m.enableTrip key version reset taken).1.mapError fun _ => .failed,
          (m.enableTrip key version reset taken).2)

/-- `disable_backup`. -/
def disableBackup (m : BackupMachine K) :
    Option Reset → Except BackupError Unit × BackupMachine K
  | none => (.error .notInitialised, m)
  | some reset => ((m.disableMachine reset).1.mapError fun _ => .failed, (m.disableMachine reset).2)

/-- The trip of `take_outgoing_requests`: a batch is asked for only while a backup is
enabled. -/
def offers (m : BackupMachine K) (upstream : Except Unit (List UpstreamOutgoingRequest))
    (built : Except Unit (Option PendingBackup)) : Offered × BackupMachine K :=
  if m.enabled then
    let asked := m.backup built
    (⟨upstream, some (asked.1.map (Option.map fun b => (b.requestId, b.request)))⟩, asked.2)
  else (⟨upstream, none⟩, m)

/-- What an accepted response does to the backup: nothing unless it is a backup's. -/
def markAsSent (m : BackupMachine K) (kind : PendingKind) (id : String) : BackupMachine K :=
  if kind = .roomKeyBackup then m.markBackupAsSent id else m

/-! ### What a call can do to the machine -/

/-- Everything `enable_backup` can come to. -/
inductive Enables (S : Sealing K) (m : BackupMachine K) (sealingKey version : String) :
    Except BackupError Unit → BackupMachine K → Prop
  /-- It fails, and nothing changes. -/
  | fails (e : BackupError) : Enables S m sealingKey version (.error e) m
  /-- It fails while moving to another version, after everything is dropped. -/
  | empties {current : String} (e : BackupError) (marks : String → Bool)
      (h : m.backupVersion = some current) (hne : current ≠ version) :
      Enables S m sealingKey version (.error e) ⟨none, none, marks⟩
  /-- It moves to another version, with nothing in flight. -/
  | moves {key : K} {current : String} (hkey : S.fromBase64 sealingKey = some key)
      (h : m.backupVersion = some current) (hne : current ≠ version) :
      Enables S m sealingKey version (.ok ()) ⟨some (key, version), none, fun _ => false⟩
  /-- It writes the key and leaves the rest. -/
  | writes {key : K} (hkey : S.fromBase64 sealingKey = some key)
      (h : ∀ current, m.backupVersion = some current → current = version) :
      Enables S m sealingKey version (.ok ()) { m with backupKey := some (key, version) }

/-- The guard does nothing while no other version is enabled. -/
theorem leaveVersion_of_stays {m : BackupMachine K} {version : String}
    (h : ∀ current, m.backupVersion = some current → current = version) (reset : Reset) :
    m.leaveVersion version reset = (.ok (), m) := by
  unfold leaveVersion
  cases hcurrent : m.backupVersion with
  | none => rfl
  | some current =>
    have hsame : current = version := h current hcurrent
    simp [hsame]

theorem leaveVersion_of_moves {m : BackupMachine K} {current version : String}
    (h : m.backupVersion = some current) (hne : current ≠ version) (reset : Reset) :
    m.leaveVersion version reset = m.disableMachine reset := by
  unfold leaveVersion
  rw [h]
  simp [hne]

/-- **Everything `enable_backup` can come to.** -/
theorem enables_enableBackup (m : BackupMachine K) (S : Sealing K) (sealingKey version : String)
    (trip : Option (Reset × Bool)) :
    Enables S m sealingKey version (m.enableBackup S sealingKey version trip).1
      (m.enableBackup S sealingKey version trip).2 := by
  unfold enableBackup
  by_cases hempty : version.isEmpty = true
  · rw [if_pos hempty]
    exact .fails _
  rw [if_neg hempty]
  cases hkey : S.fromBase64 sealingKey with
  | none => exact .fails _
  | some key =>
    cases trip with
    | none => exact .fails _
    | some answers =>
      obtain ⟨reset, taken⟩ := answers
      show Enables S m sealingKey version
        ((m.enableTrip key version reset taken).1.mapError fun _ => .failed)
        (m.enableTrip key version reset taken).2
      unfold enableTrip
      by_cases hstays : ∀ current, m.backupVersion = some current → current = version
      · rw [leaveVersion_of_stays hstays]
        cases taken with
        | true => exact .writes hkey hstays
        | false => exact .fails _
      · -- the guard: another version is enabled
        push Not at hstays
        obtain ⟨current, hcurrent, hne⟩ := hstays
        rw [leaveVersion_of_moves hcurrent hne]
        cases reset with
        | refused marks => exact .empties _ marks hcurrent hne
        | taken =>
          cases taken with
          | true => exact .moves hkey hcurrent hne
          | false => exact .empties _ _ hcurrent hne

/-- **Enabling the version already enabled unmarks nothing.** -/
theorem backedUp_enableBackup {m : BackupMachine K} {version : String}
    (h : m.backupVersion = some version) (S : Sealing K) (sealingKey : String)
    (trip : Option (Reset × Bool)) :
    (m.enableBackup S sealingKey version trip).2.backedUp = m.backedUp := by
  have hcases := enables_enableBackup m S sealingKey version trip
  generalize (m.enableBackup S sealingKey version trip).1 = out at hcases
  generalize (m.enableBackup S sealingKey version trip).2 = n at hcases
  cases hcases with
  | fails _ => rfl
  | writes _ _ => rfl
  | empties _ _ hcurrent hne => exact absurd (Option.some.inj (hcurrent.symm.trans h)) hne
  | moves _ hcurrent hne => exact absurd (Option.some.inj (hcurrent.symm.trans h)) hne

theorem disableBackup_eq_or (m : BackupMachine K) (trip : Option Reset) :
    (m.disableBackup trip).2 = m ∨
      ((m.disableBackup trip).2.backupKey = none ∧
        (m.disableBackup trip).2.pendingBackup = none) := by
  cases trip with
  | none => exact Or.inl rfl
  | some reset => cases reset <;> exact Or.inr ⟨rfl, rfl⟩

/-! ### What a drain is offered -/

/-- **A drain is offered what is in flight afterwards.** -/
theorem offers_backupBatch {m : BackupMachine K}
    {upstream : Except Unit (List UpstreamOutgoingRequest)}
    {built : Except Unit (Option PendingBackup)} {batch : String × KeysBackupRequest}
    (h : (m.offers upstream built).1.backupBatch = some batch) :
    m.enabled = true ∧ ∃ b, (m.offers upstream built).2.pendingBackup = some b ∧
      batch = (b.requestId, b.request) := by
  unfold offers at h ⊢
  by_cases henabled : m.enabled = true
  · rw [if_pos henabled] at h ⊢
    refine ⟨henabled, ?_⟩
    unfold backup at h ⊢
    cases hpending : m.pendingBackup with
    | some b =>
      simp only [hpending] at h ⊢
      exact ⟨b, rfl, (Option.some.inj h).symm⟩
    | none =>
      simp only [hpending] at h ⊢
      cases built with
      | error e => cases h
      | ok built =>
        cases built with
        | none => cases h
        | some b => exact ⟨b, rfl, (Option.some.inj h).symm⟩
  · rw [if_neg henabled] at h
    cases h

/-- What a drain does to the machine: it puts a batch in flight where none was, or
nothing. -/
theorem offers_eq_or (m : BackupMachine K) (upstream : Except Unit (List UpstreamOutgoingRequest))
    (built : Except Unit (Option PendingBackup)) :
    (m.offers upstream built).2 = m ∨
      m.pendingBackup = none ∧ ∃ b, built = .ok (some b) ∧
        (m.offers upstream built).2 = { m with pendingBackup := some b } := by
  unfold offers
  by_cases henabled : m.enabled = true
  · rw [if_pos henabled]
    unfold backup
    cases hpending : m.pendingBackup with
    | some b => exact Or.inl rfl
    | none =>
      cases built with
      | error e => exact Or.inl rfl
      | ok built =>
        cases built with
        | none => exact Or.inl rfl
        | some b => exact Or.inr ⟨rfl, b, rfl, rfl⟩
  · rw [if_neg henabled]
    exact Or.inl rfl

/-- What a report does to the machine: the key stays, and so does the batch in
flight, unless it is the one reported. -/
theorem markAsSent_eq_or (m : BackupMachine K) (kind : PendingKind) (id : String) :
    (m.markAsSent kind id).backupKey = m.backupKey ∧
      ((m.markAsSent kind id).pendingBackup = m.pendingBackup ∨
        (m.markAsSent kind id).pendingBackup = none ∧
          ∃ b, m.pendingBackup = some b ∧ b.requestId = id) := by
  unfold markAsSent markBackupAsSent
  split
  · split
    · exact ⟨rfl, Or.inl rfl⟩
    · next b hb =>
      split
      · next hid => exact ⟨rfl, Or.inr ⟨rfl, b, hb, hid⟩⟩
      · exact ⟨rfl, Or.inl rfl⟩
  · exact ⟨rfl, Or.inl rfl⟩

end BackupMachine

end MatrixCrypto
