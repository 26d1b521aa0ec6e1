import MatrixCrypto.Recovery.Interrupted

/-!
# A recovery added beside others

What `create_recovery` writes into account data that other clients have written
to.  Each secret keeps every ciphertext it was read to hold and gains one, under
the new key; beside the three secrets there are only the description of that key
and, last, the pointer to it.

## Main definitions

* `SecretStorage.Stores` — the ciphertexts the account data holds for a secret.
* `SecretStorage.AddsTo` — how one secret is written.
* `SecretStorage.AddsOnly` — what is written as a whole.

## Main results

* `setField_of_unused` — a name that is not in use is added at the end.
* `addsTo_secretEntry` — a merge adds one ciphertext and keeps the others.
* `recovery_adds_only` — **a served create takes nothing away**.
-/

namespace MatrixCrypto

open Lib

/-! ### A field more -/

/-- No field of an object has a name that does not read. -/
theorem ne_of_field?_eq_none {fields : List (String × Json)} {key : String}
    (h : (Json.obj fields).field? key = none) : ∀ f ∈ fields, f.1 ≠ key := by
  intro f hf hkey
  rw [Json.field?_eq_find?, Option.map_eq_none_iff, List.find?_eq_none] at h
  exact h f (List.mem_reverse.mpr hf) (by simpa using hkey)

/-- **A name that is not in use is added at the end**, and the fields that stood
there stand as they were. -/
theorem setField_of_unused {fields : List (String × Json)} {key : String} (value : Json)
    (h : (Json.obj fields).field? key = none) :
    Json.setField fields key value = fields ++ [(key, value)] := by
  have hall : fields.filter (fun f => f.1 != key) = fields := by
    apply List.filter_eq_self.mpr
    intro f hf
    have hne := ne_of_field?_eq_none h f hf
    simpa using hne
  rw [Json.setField, hall]

namespace SecretStorage

variable {C : SecretStorage}

/-! ### What is stored, and what is written -/

/-- The account data holds these ciphertexts for a secret: its content parses, and
the `encrypted` field is an object. -/
def Stores (C : SecretStorage) (data : AccountData C.Text) (name : SecretName)
    (members : List (String × Json)) : Prop :=
  ∃ text content, data.entry name.asStr = some text ∧ C.fromStr text = some content ∧
    content.field? "encrypted" = some (.obj members)

/-- How a secret is written beside what is stored for it. -/
structure AddsTo (C : SecretStorage) (key : C.Key) (seed : String) (data : AccountData C.Text)
    (name : SecretName) (written : List (String × Json)) : Prop where
  /-- The seed, under the new key. -/
  gains : (Json.obj written).field? (C.keyId key) =
    some (C.toValue (C.encrypt key seed.toUTF8 name))
  /-- Under every other id there is what there was. -/
  keeps : ∀ members, C.Stores data name members → ∀ id, id ≠ C.keyId key →
    (Json.obj written).field? id = (Json.obj members).field? id
  /-- A new id is one member more, up to order, and the others stand as they were. -/
  oneMore : ∀ members, C.Stores data name members →
    (Json.obj members).field? (C.keyId key) = none →
      written = members ++ [(C.keyId key, C.toValue (C.encrypt key seed.toUTF8 name))]
  /-- Where no ciphertext could be read, it is the only one. -/
  alone : (∀ members, ¬ C.Stores data name members) →
    written = [(C.keyId key, C.toValue (C.encrypt key seed.toUTF8 name))]

/-- What is written for a new key, as a whole. -/
structure AddsOnly (C : SecretStorage) (key : C.Key) (seeds : SecretName → String)
    (data written : AccountData C.Text) : Prop where
  /-- The description, the three secrets and the pointer, and nothing else. -/
  types : written.map AccountDataEntry.eventType =
    keyEventType (C.keyId key) :: secrets.map SecretName.asStr ++ [defaultKeyEventType]
  distinct : (written.map AccountDataEntry.eventType).Nodup
  described : written.entry (keyEventType (C.keyId key)) = some (C.eventContent key)
  /-- The last one points at the key. -/
  pointsLast : written.getLast? =
    some ⟨defaultKeyEventType, C.toText (.obj [("key", .str (C.keyId key))])⟩
  merges : ∀ name : SecretName, ∃ members,
    written.entry name.asStr = some (C.toText (.obj [("encrypted", .obj members)])) ∧
      C.AddsTo key (seeds name) data name members

section merge

variable {data : AccountData C.Text} {name : SecretName} {members : List (String × Json)}

/-- What is merged into is what is stored. -/
theorem existingCiphertexts_of_stores (h : C.Stores data name members) :
    C.existingCiphertexts data name = members := by
  obtain ⟨text, content, htext, hcontent, hmembers⟩ := h
  rw [existingCiphertexts, htext, Option.bind_some, hcontent, Option.bind_some, hmembers]
  rfl

/-- Where nothing is stored that could be read, nothing is merged into. -/
theorem existingCiphertexts_of_not_stores (h : ∀ members, ¬ C.Stores data name members) :
    C.existingCiphertexts data name = [] := by
  unfold existingCiphertexts
  cases htext : data.entry name.asStr with
  | none => rfl
  | some text =>
    rw [Option.bind_some]
    cases hcontent : C.fromStr text with
    | none => rfl
    | some content =>
      rw [Option.bind_some]
      cases hfield : content.field? "encrypted" with
      | none => rfl
      | some value =>
        cases value with
        | obj members => exact absurd ⟨text, content, htext, hcontent, hfield⟩ (h members)
        | _ => rfl

/-- **A merge adds one ciphertext and keeps the others.** -/
theorem addsTo_secretEntry (key : C.Key) (seed : String) (data : AccountData C.Text)
    (name : SecretName) :
    C.AddsTo key seed data name (Json.setField (C.existingCiphertexts data name) (C.keyId key)
      (C.toValue (C.encrypt key seed.toUTF8 name))) where
  gains := by
    rw [Json.field?_setField, if_pos rfl]
  keeps := by
    intro members hstores id hne
    rw [existingCiphertexts_of_stores hstores, Json.field?_setField, if_neg hne]
  oneMore := by
    intro members hstores hunused
    rw [existingCiphertexts_of_stores hstores]
    exact setField_of_unused _ hunused
  alone := by
    intro hnone
    rw [existingCiphertexts_of_not_stores hnone]
    rfl

end merge

/-! ### The five entries -/

/-- **What is written for a key adds only**, whatever the account data held. -/
theorem addsOnly_setup (key : C.Key) (data : AccountData C.Text) (seeds : SecretName → String) :
    C.AddsOnly key seeds data (C.setup key data (secrets.map seeds)).accountData where
  types := rfl
  distinct := nodup_setup
  described := by
    apply AccountData.entry_of_mem nodup_setup (e := C.keyEntry key)
    exact List.mem_cons_self
  pointsLast := rfl
  merges := by
    intro name
    refine ⟨_, ?_, addsTo_secretEntry key (seeds name) data name⟩
    apply AccountData.entry_of_mem nodup_setup (e := C.secretEntry key data name (seeds name))
    cases name <;> simp [setup, secrets]

/-- The seeds of an export, by name. -/
def seedOf (master selfSigning userSigning : String) : SecretName → String
  | .crossSigningMasterKey => master
  | .crossSigningSelfSigningKey => selfSigning
  | .crossSigningUserSigningKey => userSigning

variable {data : AccountData C.Text} {passphrase : String} {p : Process} {up : Writing C}
  {written : RecoverySetup C.Text}

/-- A create queues something where it refuses, and only there. -/
theorem createRecovery_process
    (hcreate : (C.createRecovery passphrase data p (some up)).1 = .ok written) :
    (C.createRecovery passphrase data p (some up)).2 = p := by
  unfold createRecovery at hcreate ⊢
  dsimp only at hcreate ⊢
  split at hcreate
  · cases hcreate
  · next hpointed =>
    rw [if_neg hpointed]
    cases hstatus : readStatus p.requests up.reads p.store with
    | error e => rfl
    | ok status =>
      cases hmay : mayRecover status with
      | error refusal =>
        rw [hstatus] at hcreate
        dsimp only at hcreate
        rw [hmay] at hcreate
        cases hcreate
      | ok _ => simp only [hmay]

/-- **A served create takes nothing away.**  Every ciphertext that was read is written
back beside the new one; the five entries have five types, the pointer is the last,
and every one of them names the new key. -/
theorem recovery_adds_only
    (hcreate : (C.createRecovery passphrase data p (some up)).1 = .ok written) :
    ∃ master selfSigning userSigning,
      up.exported = .ok (some ⟨some master, some selfSigning, some userSigning⟩) ∧
        C.AddsOnly (C.newFromPassphrase up.randomness passphrase)
          (seedOf master selfSigning userSigning) data written.accountData ∧
            (C.createRecovery passphrase data p (some up)).2 = p := by
  obtain ⟨hpointed, master, selfSigning, userSigning, hexported, hwritten⟩ :=
    createRecovery_eq_ok hcreate
  refine ⟨master, selfSigning, userSigning, hexported, ?_, ?_⟩
  · rw [hwritten]
    exact addsOnly_setup _ data (seedOf master selfSigning userSigning)
  · exact createRecovery_process hcreate

end SecretStorage

/-- A create beside a recovery that has lost its pointer. -/
theorem recovery_adds_only_oldRecovery :
    ∃ master selfSigning userSigning,
      drawnNew.exported = .ok (some ⟨some master, some selfSigning, some userSigning⟩) ∧
        plainStorage.AddsOnly ("new", "battery staple")
          (SecretStorage.seedOf master selfSigning userSigning) oldRecovery.withoutPointer
          (newRecovery oldRecovery.withoutPointer).accountData ∧
            (plainStorage.createRecovery "battery staple" oldRecovery.withoutPointer askedProcess
              (some drawnNew)).2 = askedProcess :=
  SecretStorage.recovery_adds_only (createRecovery_askedProcess rfl)

/-- The old ciphertext of the master key stands before the new one. -/
example : plainStorage.existingCiphertexts
    (newRecovery oldRecovery.withoutPointer).accountData .crossSigningMasterKey =
      [("kold", .arr [.str "old", .str "m.cross_signing.master", .str "master"]),
        ("knew", .arr [.str "new", .str "m.cross_signing.master", .str "master2"])] := rfl

end MatrixCrypto
