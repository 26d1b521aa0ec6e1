import MatrixCrypto.Recovery.Interrupted

/-!
# A wrong secret, and a cleared pointer

What `recover_identity` answers where the fault is not the account data's.  A
secret that opens no key is a wrong secret, as long as upstream does not blame the
description for one secret and open it with another; and a pointer that names no
key is a recovery that is not set up, which is also how `create_recovery` reads it.

## Main definitions

* `KeyCheck` — what is assumed of upstream's check of a secret.
* `PointsNowhere` — the pointer is absent, or names no key.

## Main results

* `openRecovery_of_opens` — what another secret makes of account data that opens.
* `pointedKeyId_eq_none` — a pointer that names no key is followed by neither call.
* `gate_refusal` — what the gate refuses with.
* `wrong_secret_or_cleared_pointer` — **a wrong secret is reported as one, and a
  cleared pointer as nothing set up**, once the gate lets the account data be read.
* `gate_before_pointer` — a process that has not asked about its account.
-/

namespace MatrixCrypto

open Lib

/-- What is assumed of upstream's check of a secret against a key description. -/
structure SecretStorage.KeyCheck (C : SecretStorage) : Prop where
  /-- A description blamed with one secret is opened by none. -/
  blamed : ∀ secret description e, C.fromAccountData secret description = .error e →
    e.OfDescription → ∀ secret' key, C.fromAccountData secret' description ≠ .ok key
  /-- The key is verified against the description: all secrets that open it open one. -/
  verified : ∀ secret secret' description key key', C.fromAccountData secret description = .ok key →
    C.fromAccountData secret' description = .ok key' → key = key'

/-- The pointer is absent, cleared, not JSON, or names no key but the empty one. -/
def SecretStorage.PointsNowhere (C : SecretStorage) (data : AccountData C.Text) : Prop :=
  ∀ text, data.entry defaultKeyEventType = some text → ∀ content, C.fromStr text = some content →
    ∀ keyId, content.field? "key" = some (.str keyId) → keyId = ""

namespace SecretStorage

variable {C : SecretStorage} {data : AccountData C.Text} {p : Process} {up : Restoring}
  {secret : String}

/-! ### Another secret -/

/-- What another secret makes of account data that one opens. -/
theorem openRecovery_of_opens (hC : C.KeyCheck) {x : CrossSigningKeyExport}
    (h : C.openRecovery secret data = .ok x) (secret' : String) :
    C.openRecovery secret' data = .ok x ∨
      C.openRecovery secret' data = .error .recoveryKeyIncorrect := by
  obtain ⟨keyId, content, description, key, read, hpointed, hcontent, hparts, hkey, hread, hx⟩ :=
    openRecovery_eq_ok.mp h
  cases hkey' : C.fromAccountData secret' description with
  | ok key' =>
    obtain rfl := hC.verified secret secret' description key key' hkey hkey'
    exact Or.inl (openRecovery_eq_ok.mpr
      ⟨keyId, content, description, key, read, hpointed, hcontent, hparts, hkey', hread, hx⟩)
  | error e =>
    -- the description is not to blame: it opens with the first secret
    have hsecret : ¬ e.OfDescription := fun he => hC.blamed secret' description e hkey' he _ _ hkey
    refine Or.inr ?_
    simp only [openRecovery, hpointed, okOr_some, ok_bind, hcontent, hparts, hkey', Except.mapError,
      error_bind, classifyDecodeError_eq hsecret]

/-- A recovery that succeeds passed the gate, opened the account data and imported
what it opened. -/
theorem recoverIdentity_eq_ok (h : (C.recoverIdentity secret data p (some up)).1 = .ok ()) :
    gate p up = .ok () ∧ ∃ x, C.openRecovery secret data = .ok x ∧
      (up.importSeeds p x).1 = .ok () := by
  simp only [recoverIdentity] at h
  cases hgate : gate p up with
  | error refusal =>
    simp only [hgate] at h
    cases h
  | ok _ =>
    simp only [hgate] at h
    cases hopen : C.openRecovery secret data with
    | error e =>
      simp only [hopen] at h
      cases h
    | ok x =>
      simp only [hopen] at h
      exact ⟨rfl, x, rfl, h⟩

/-- Once the gate lets it, a recovery does what it opened. -/
theorem recoverIdentity_of_gate (h : gate p up = .ok ()) :
    (C.recoverIdentity secret data p (some up)).1 =
      (C.openRecovery secret data).bind fun x => (up.importSeeds p x).1 := by
  simp only [recoverIdentity, h]
  cases C.openRecovery secret data <;> rfl

/-- **No other secret is told that the recovery is destroyed**, or not set up. -/
theorem recoverIdentity_of_opens (hC : C.KeyCheck)
    (h : (C.recoverIdentity secret data p (some up)).1 = .ok ()) (secret' : String) :
    (C.recoverIdentity secret' data p (some up)).1 = .ok () ∨
      (C.recoverIdentity secret' data p (some up)).1 = .error .recoveryKeyIncorrect := by
  obtain ⟨hgate, x, hopen, himport⟩ := recoverIdentity_eq_ok h
  rw [recoverIdentity_of_gate hgate]
  rcases openRecovery_of_opens hC hopen secret' with hsame | hwrong
  · rw [hsame]
    exact Or.inl himport
  · rw [hwrong]
    exact Or.inr rfl

/-! ### A pointer that names no key -/

theorem pointedKeyId_eq_none (h : C.PointsNowhere data) : C.pointedKeyId data = none := by
  rw [pointedKeyId, Option.filter_eq_none_iff]
  intro keyId hkeyId
  obtain ⟨content, hcontent, hkey⟩ := Option.bind_eq_some_iff.mp hkeyId
  obtain ⟨text, htext, hjson⟩ := Option.bind_eq_some_iff.mp hcontent
  obtain ⟨value, hvalue, hstr⟩ := Option.bind_eq_some_iff.mp hkey
  cases value with
  | str s =>
    obtain rfl : s = keyId := Option.some.inj hstr
    simp [h text htext content hjson s hvalue]
  | _ => cases hstr

theorem readStatus_refusal {s : RequestState} {reads : Reads} {store : Store} {e : MachineError}
    (h : readStatus s reads store = .error e) : e = .store := by
  unfold readStatus at h
  split at h
  · exact (Except.error.inj h).symm
  · cases h

theorem mayRecover_refusal {status : IdentityStatus} {e : MachineError}
    (h : mayRecover status = .error e) : e = .identityNotKnown ∨ e = .accountKeysNotFetched := by
  unfold mayRecover at h
  split at h
  · exact Or.inl (Except.error.inj h).symm
  · split at h
    · exact Or.inr (Except.error.inj h).symm
    · cases h

/-- What the gate refuses with. -/
theorem gate_refusal {refusal : MachineError} (h : gate p up = .error refusal) :
    refusal = .store ∨ refusal = .identityNotKnown ∨ refusal = .accountKeysNotFetched := by
  unfold gate at h
  cases hread : readStatus p.requests up.reads p.store with
  | error e =>
    rw [hread, error_bind] at h
    exact Or.inl (Except.error.inj h ▸ readStatus_refusal hread)
  | ok status =>
    rw [hread, ok_bind] at h
    cases hmay : mayRecover status with
    | error e =>
      rw [hmay, error_bind] at h
      exact Or.inr (Except.error.inj h ▸ mayRecover_refusal hmay)
    | ok _ =>
      rw [hmay, ok_bind] at h
      split at h
      · cases h
      · exact Or.inr (Or.inl (Except.error.inj h).symm)

/-- A create whose account data points nowhere finds no recovery there. -/
theorem createRecovery_ne_alreadyExists {passphrase : String} {trip : Option (Writing C)}
    (h : C.pointedKeyId data = none) :
    (C.createRecovery passphrase data p trip).1 ≠ .error .recoveryAlreadyExists := by
  intro heq
  cases trip with
  | none => cases heq
  | some up =>
    simp only [createRecovery, h, Option.isSome_none, Bool.false_eq_true, if_false] at heq
    cases hread : readStatus p.requests up.reads p.store with
    | error e =>
      simp only [hread] at heq
      obtain rfl := Except.error.inj heq
      cases readStatus_refusal hread
    | ok status =>
      simp only [hread] at heq
      cases hmay : mayRecover status with
      | error refusal =>
        simp only [hmay] at heq
        obtain rfl := Except.error.inj heq
        rcases mayRecover_refusal hmay with h | h <;> cases h
      | ok _ =>
        simp only [hmay] at heq
        unfold writeExport at heq
        split at heq <;> cases heq

/-- **A wrong secret is reported as one, and a cleared pointer as nothing set up**:
before that only the gate speaks, and never of damage. -/
theorem wrong_secret_or_cleared_pointer (hC : C.KeyCheck) (data : AccountData C.Text)
    (p : Process) :
    (∀ up secret, (C.recoverIdentity secret data p (some up)).1 = .ok () → ∀ secret',
      (C.recoverIdentity secret' data p (some up)).1 = .ok () ∨
        (C.recoverIdentity secret' data p (some up)).1 = .error .recoveryKeyIncorrect) ∧
    (C.PointsNowhere data →
      (∀ up secret, gate p up = .ok () ∧
          (C.recoverIdentity secret data p (some up)).1 = .error .recoveryNotSetUp ∨
        ∃ refusal, gate p up = .error refusal ∧
          (C.recoverIdentity secret data p (some up)).1 = .error refusal ∧
            (refusal = .store ∨ refusal = .identityNotKnown ∨ refusal = .accountKeysNotFetched)) ∧
      ∀ passphrase trip,
        (C.createRecovery passphrase data p trip).1 ≠ .error .recoveryAlreadyExists) := by
  refine ⟨fun up secret h => recoverIdentity_of_opens hC h, fun hnowhere => ?_⟩
  have hpointed := pointedKeyId_eq_none hnowhere
  refine ⟨fun up secret => ?_, fun passphrase trip => createRecovery_ne_alreadyExists hpointed⟩
  cases hgate : gate p up with
  | error refusal =>
    refine Or.inr ⟨refusal, rfl, ?_, gate_refusal hgate⟩
    simp only [recoverIdentity, hgate]
  | ok _ =>
    refine Or.inl ⟨rfl, ?_⟩
    have hopen : C.openRecovery secret data = .error .recoveryNotSetUp := by
      simp only [openRecovery, hpointed, okOr_none, error_bind]
    rw [recoverIdentity_of_gate hgate, hopen]
    rfl

end SecretStorage

/-! ### A recovery that is opened, and one that is cleared -/

theorem plainStorage_keyCheck : plainStorage.KeyCheck where
  blamed := by
    intro secret description e h he
    simp only [plainStorage] at h
    split at h
    · cases h
    · obtain rfl := Except.error.inj h
      exact he.elim
  verified := by
    intro secret secret' description key key' h h'
    simp only [plainStorage] at h h'
    split at h
    · split at h'
      · exact (Except.ok.inj h).symm.trans (Except.ok.inj h')
      · cases h'
    · cases h

/-- A process that has asked about an account whose identity is known. -/
def knownProcess : Process :=
  ⟨{ RequestState.initial with accountKeysAnswered := true }, firstIdentity.store⟩

/-- A trip whose import is complete. -/
def importing : Restoring where
  reads := {}
  queryId := "q1"
  query := aliceQuery
  imported := fun _ => .ok true
  store := fun _ => firstIdentity.store

/-- The old recovery, once its pointer is cleared. -/
def clearedRecovery : AccountData Json := oldRecovery.put ⟨"m.secret_storage.default_key", .obj []⟩

theorem clearedRecovery_pointsNowhere : plainStorage.PointsNowhere clearedRecovery := by
  intro text htext content hcontent keyId hkey
  obtain rfl : Json.obj [] = text := Option.some.inj htext
  obtain rfl : Json.obj [] = content := Option.some.inj hcontent
  cases hkey

/-- Another secret for the old recovery, and the right one for the cleared one. -/
theorem wrong_secret_or_cleared_oldRecovery :
    ((plainStorage.recoverIdentity "correct hose" oldRecovery knownProcess (some importing)).1 =
        .ok () ∨
      (plainStorage.recoverIdentity "correct hose" oldRecovery knownProcess (some importing)).1 =
        .error .recoveryKeyIncorrect) ∧
    (plainStorage.recoverIdentity "correct horse" clearedRecovery knownProcess
      (some importing)).1 = .error .recoveryNotSetUp ∧
    (plainStorage.createRecovery "battery staple" clearedRecovery knownProcess
      (some drawnNew)).1 ≠ .error .recoveryAlreadyExists := by
  obtain ⟨hwrong, -⟩ := SecretStorage.wrong_secret_or_cleared_pointer plainStorage_keyCheck
    oldRecovery knownProcess
  obtain ⟨-, hcleared⟩ := SecretStorage.wrong_secret_or_cleared_pointer plainStorage_keyCheck
    clearedRecovery knownProcess
  obtain ⟨hrecover, hcreate⟩ := hcleared clearedRecovery_pointsNowhere
  have hgate : SecretStorage.gate knownProcess importing = .ok () := rfl
  refine ⟨hwrong importing "correct horse" rfl "correct hose", ?_, hcreate _ _⟩
  rcases hrecover importing "correct horse" with ⟨-, h⟩ | ⟨refusal, h, -⟩
  · exact h
  · rw [hgate] at h
    cases h

/-- The gate speaks before the pointer: a process that has not asked about its account
is told so, whatever the account data is. -/
theorem gate_before_pointer : plainStorage.KeyCheck ∧ plainStorage.PointsNowhere clearedRecovery ∧
    (plainStorage.recoverIdentity "correct horse" clearedRecovery freshProcess
      (some importing)).1 = .error .accountKeysNotFetched ∧
    (plainStorage.recoverIdentity "correct horse" clearedRecovery freshProcess
      (some importing)).1 ≠ .error .recoveryNotSetUp := by
  have h : (plainStorage.recoverIdentity "correct horse" clearedRecovery freshProcess
      (some importing)).1 = .error .accountKeysNotFetched := rfl
  refine ⟨plainStorage_keyCheck, clearedRecovery_pointsNowhere, h, fun heq => ?_⟩
  rw [h] at heq
  cases heq

end MatrixCrypto
