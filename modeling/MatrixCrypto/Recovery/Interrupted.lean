import MatrixCrypto.Lib.JsonPrint
import MatrixCrypto.Recovery.SecretStorage
import MatrixCrypto.Signing.Gate

/-!
# A recovery written entry by entry

What the account's recovery is worth after every write of a new one.  The pointer
is written last, so until then the account resolves the old key; what the old key
opens is then read out of what was merged.  The merge reads a content as a JSON
value and the recovery reads it as a `SecretEventContent`, whose reader takes a
text for read where it need not look: a number out of range or a nesting too deep
beside the ciphertexts stops only the first.

## Main definitions

* `SecretStorage.Correct` — what is assumed of the encryption and the readers.
* `SecretStorage.Readable` — every secret stored reads as an object.

## Main results

* `readSecret_merged` — a merge into what was read keeps every other key's seed.
* `entry_write`, `entry_written` — what a type holds after some writes, and after all.
* `old_recovery_kept_iff` — **the old recovery works after every proper prefix, and
  the new one after all**, exactly when every secret stored reads as an object.
* `old_recovery_evicted` — account data whose recovery is gone after two writes.
-/

namespace MatrixCrypto

open Lib AccountData

/-- What is assumed of the encryption, and of the JSON that is written and read. -/
structure SecretStorage.Correct (C : SecretStorage) : Prop where
  /-- Where both readers take a content, a ciphertext that is one where it stays a text is the
  same one as a value. -/
  readersAgree : ∀ text fields encrypted, C.fromStr text = some (.obj fields) →
    C.secretEventContent text = some encrypted →
      ∃ members, (Json.obj fields).field? "encrypted" = some (.obj members) ∧
        ∀ id raw ciphertext, encrypted id = some raw → C.deserialize raw = some ciphertext →
          ∃ value, (Json.obj members).field? id = some value ∧
            C.deserialize (C.toText value) = some ciphertext
  readsWritten : ∀ members, ∃ encrypted,
    C.secretEventContent (C.toText (.obj [("encrypted", .obj members)])) = some encrypted ∧
      ∀ id, encrypted id = ((Json.obj members).field? id).map C.toText
  readsCiphertext : ∀ e, C.deserialize (C.toText (C.toValue e)) = some e
  readsPointer : ∀ id, C.fromStr (C.toText (.obj [("key", .str id)])) =
    some (.obj [("key", .str id)])
  /-- Decrypting undoes encrypting under the same key and name. -/
  decrypts : ∀ (key : C.Key) (seed : String) (name : SecretName),
    C.decrypt key (C.encrypt key seed.toUTF8 name) name = some seed.toUTF8
  keyId_ne : ∀ drawn passphrase, C.keyId (C.newFromPassphrase drawn passphrase) ≠ ""
  /-- A key's description is opened by its passphrase, and by its recovery key. -/
  opens : ∀ drawn passphrase, ∃ description,
    C.fromParts (keyEventType (C.keyId (C.newFromPassphrase drawn passphrase)))
        (C.eventContent (C.newFromPassphrase drawn passphrase)) = some description ∧
      ∀ secret ∈ [passphrase, C.toBase58 (C.newFromPassphrase drawn passphrase)],
        C.fromAccountData secret description = .ok (C.newFromPassphrase drawn passphrase)

/-- Every secret stored reads as a JSON object. -/
def SecretStorage.Readable (C : SecretStorage) (data : AccountData C.Text) : Prop :=
  ∀ name ∈ secrets, ∀ text, data.entry name.asStr = some text →
    ∃ fields, C.fromStr text = some (.obj fields)

/-- A new key whose description the account data does not hold. -/
def SecretStorage.FreshKey (C : SecretStorage) (key : C.Key) (data : AccountData C.Text) : Prop :=
  ∀ e ∈ data, e.eventType ≠ keyEventType (C.keyId key)

/-- A key that is described is not the new one. -/
theorem SecretStorage.FreshKey.ne {C : SecretStorage} {key : C.Key} {data : AccountData C.Text}
    {keyId : String} {content : C.Text} (h : C.FreshKey key data)
    (hcontent : data.entry (keyEventType keyId) = some content) : keyId ≠ C.keyId key := by
  rintro rfl
  obtain ⟨e, he, -⟩ := Option.map_eq_some_iff.mp hcontent
  exact h e (List.mem_of_find?_eq_some he) (by simpa using List.find?_some he)

theorem mem_secrets (name : SecretName) : name ∈ secrets := by
  cases name <;> decide

namespace SecretStorage

variable {C : SecretStorage} {data data' : AccountData C.Text}

/-! ### One secret, merged -/

/-- What is stored for a secret is read off its content. -/
theorem existingCiphertexts_congr {name : SecretName}
    (h : data.entry name.asStr = data'.entry name.asStr) :
    C.existingCiphertexts data name = C.existingCiphertexts data' name := by
  rw [existingCiphertexts, existingCiphertexts, h]

theorem readSecret_congr {key : C.Key} {keyId : String} {name : SecretName}
    (h : data.entry name.asStr = data'.entry name.asStr) :
    C.readSecret key keyId data name = C.readSecret key keyId data' name := by
  rw [readSecret, readSecret, h]

theorem pointedKeyId_congr (h : data.entry defaultKeyEventType = data'.entry defaultKeyEventType) :
    C.pointedKeyId data = C.pointedKeyId data' := by
  rw [pointedKeyId, pointedKeyId, h]

/-- What a merged content carries under an id. -/
theorem Correct.reads_secretEntry (hC : C.Correct) (data : AccountData C.Text) (key : C.Key)
    (name : SecretName) (seed : String) : ∃ encrypted,
      C.secretEventContent (C.secretEntry key data name seed).content = some encrypted ∧
        ∀ id, encrypted id = if id = C.keyId key then
          some (C.toText (C.toValue (C.encrypt key seed.toUTF8 name)))
          else ((Json.obj (C.existingCiphertexts data name)).field? id).map C.toText := by
  obtain ⟨encrypted, hread, hid⟩ := hC.readsWritten (Json.setField (C.existingCiphertexts data name)
    (C.keyId key) (C.toValue (C.encrypt key seed.toUTF8 name)))
  refine ⟨encrypted, hread, fun id => ?_⟩
  rw [hid, Json.field?_setField]
  split <;> rfl

/-- **A merge into what was read keeps every other key's seed.** -/
theorem readSecret_merged (hC : C.Correct) {key key' : C.Key} {keyId seed seed' : String}
    {name : SecretName} {text : C.Text} {fields : List (String × Json)}
    (htext : data.entry name.asStr = some text) (hobj : C.fromStr text = some (.obj fields))
    (hmerged : data'.entry name.asStr = some (C.secretEntry key' data name seed').content)
    (hne : keyId ≠ C.keyId key') (h : C.readSecret key keyId data name = .ok seed) :
    C.readSecret key keyId data' name = .ok seed := by
  obtain ⟨stored, encrypted, raw, ciphertext, plaintext, hstored, hread, hraw, hciphertext,
    hplaintext, hseed⟩ := readSecret_eq_ok.mp h
  obtain rfl : text = stored := Option.some.inj (htext.symm.trans hstored)
  obtain ⟨members, hmembers, hagree⟩ := hC.readersAgree text fields encrypted hobj hread
  have hexisting : C.existingCiphertexts data name = members := by
    rw [existingCiphertexts, htext, Option.bind_some, hobj, Option.bind_some, hmembers]
    rfl
  obtain ⟨written, hwritten, hid⟩ := hC.reads_secretEntry data key' name seed'
  -- the old ciphertext reads the same out of the merged map
  obtain ⟨value, hvalue, hsame⟩ := hagree keyId raw ciphertext hraw hciphertext
  refine readSecret_eq_ok.mpr ⟨_, written, C.toText value, ciphertext, plaintext, hmerged, hwritten,
    ?_, hsame, hplaintext, hseed⟩
  rw [hid, if_neg hne, hexisting, hvalue, Option.map_some]

/-- A seed that an old key opens in a merged content was read out of an object. -/
theorem isObject_of_merged (hC : C.Correct) {key key' : C.Key} {keyId seed seed' : String}
    {name : SecretName}
    (hmerged : data'.entry name.asStr = some (C.secretEntry key' data name seed').content)
    (hne : keyId ≠ C.keyId key') (h : C.readSecret key keyId data' name = .ok seed) :
    ∃ text fields, data.entry name.asStr = some text ∧ C.fromStr text = some (.obj fields) := by
  obtain ⟨stored, encrypted, raw, -, -, hstored, hread, hraw, -⟩ := readSecret_eq_ok.mp h
  obtain rfl := Option.some.inj (hmerged.symm.trans hstored)
  obtain ⟨written, hwritten, hid⟩ := hC.reads_secretEntry data key' name seed'
  obtain rfl := Option.some.inj (hwritten.symm.trans hread)
  rw [hid, if_neg hne, Option.map_eq_some_iff] at hraw
  obtain ⟨value, hvalue, -⟩ := hraw
  -- so there is something stored, and it came out of a value that is an object
  cases htext : data.entry name.asStr with
  | none =>
    rw [existingCiphertexts, htext] at hvalue
    cases hvalue
  | some text =>
    cases hjson : C.fromStr text with
    | none =>
      rw [existingCiphertexts, htext, Option.bind_some, hjson] at hvalue
      cases hvalue
    | some json =>
      cases json with
      | obj fields => exact ⟨text, fields, rfl, hjson⟩
      | _ =>
        rw [existingCiphertexts, htext, Option.bind_some, hjson] at hvalue
        cases hvalue

/-- The new key opens the seed that was written for it. -/
theorem readSecret_new (hC : C.Correct) {key : C.Key} {seed : String} {name : SecretName}
    (hmerged : data'.entry name.asStr = some (C.secretEntry key data name seed).content) :
    C.readSecret key (C.keyId key) data' name = .ok seed := by
  obtain ⟨written, hwritten, hid⟩ := hC.reads_secretEntry data key name seed
  refine readSecret_eq_ok.mpr ⟨_, written, _, _, seed.toUTF8, hmerged, hwritten,
    (hid _).trans (if_pos rfl), hC.readsCiphertext _, hC.decrypts key _ name,
    fromUTF8?_toUTF8 seed⟩

/-! ### The account data, write by write -/

/-- Leaving the pointer out of the argument changes nothing that is written. -/
theorem setup_withoutPointer (key : C.Key) (data : AccountData C.Text) (seeds : List String) :
    C.setup key data.withoutPointer seeds = C.setup key data seeds := by
  have hentry : ∀ name seed, C.secretEntry key data.withoutPointer name seed =
      C.secretEntry key data name seed := by
    intro name seed
    rw [secretEntry, secretEntry,
      existingCiphertexts_congr (entry_withoutPointer (asStr_ne_defaultKeyEventType name))]
  simp only [setup, hentry]

/-- What comes before the pointer. -/
def beforePointer (key : C.Key) (data : AccountData C.Text) (a b c : String) :
    AccountData C.Text :=
  [C.keyEntry key, C.secretEntry key data .crossSigningMasterKey a,
    C.secretEntry key data .crossSigningSelfSigningKey b,
    C.secretEntry key data .crossSigningUserSigningKey c]

variable {key : C.Key} {a b c : String}

theorem setup_accountData : (C.setup key data [a, b, c]).accountData =
    beforePointer key data a b c ++ [C.pointerEntry key] := rfl

/-- The five event types all differ. -/
theorem nodup_setup : ((C.setup key data [a, b, c]).accountData.map
    AccountDataEntry.eventType).Nodup := by
  have hkey := keyEventType_ne_asStr (C.keyId key)
  have hpointer := keyEventType_ne_defaultKeyEventType (C.keyId key)
  have hname := asStr_ne_defaultKeyEventType
  have hnames : ∀ name name' : SecretName, name ≠ name' → name.asStr ≠ name'.asStr :=
    fun _ _ hne heq => hne (asStr_injective heq)
  simp [setup_accountData, beforePointer, keyEntry, secretEntry, pointerEntry, hkey, hpointer,
    hname, hnames]

theorem nodup_take (key : C.Key) (data : AccountData C.Text) (a b c : String) (n : ℕ) :
    (((C.setup key data [a, b, c]).accountData.take n).map AccountDataEntry.eventType).Nodup :=
  nodup_setup.sublist ((List.take_sublist _ _).map _)

/-- What is written before the pointer is the description or a secret. -/
theorem entry_beforePointer {t : String} {text : C.Text} {n : ℕ}
    (h : AccountData.entry ((beforePointer key data a b c).take n) t = some text) :
    t = keyEventType (C.keyId key) ∨ ∃ (name : SecretName) (seed : String), t = name.asStr ∧
      text = (C.secretEntry key data name seed).content := by
  obtain ⟨e, he, htext⟩ := Option.map_eq_some_iff.mp h
  have hmem := List.mem_of_mem_take (List.mem_of_find?_eq_some he)
  have htype : e.eventType = t := by simpa using List.find?_some he
  simp only [beforePointer, List.mem_cons, List.not_mem_nil, or_false] at hmem
  rcases hmem with rfl | rfl | rfl | rfl
  · exact Or.inl htype.symm
  · exact Or.inr ⟨.crossSigningMasterKey, a, htype.symm, htext.symm⟩
  · exact Or.inr ⟨.crossSigningSelfSigningKey, b, htype.symm, htext.symm⟩
  · exact Or.inr ⟨.crossSigningUserSigningKey, c, htype.symm, htext.symm⟩

/-- **What a type holds after the first writes**, while the pointer is not among
them: what it held, or what was merged into that. -/
theorem entry_write (data : AccountData C.Text) (key : C.Key) (a b c : String) {n : ℕ}
    (hn : n ≤ 4) :
    (data.puts ((C.setup key data [a, b, c]).accountData.take n)).entry defaultKeyEventType =
        data.entry defaultKeyEventType ∧
      (∀ keyId, keyId ≠ C.keyId key →
        (data.puts ((C.setup key data [a, b, c]).accountData.take n)).entry (keyEventType keyId) =
          data.entry (keyEventType keyId)) ∧
      ∀ name : SecretName,
        (data.puts ((C.setup key data [a, b, c]).accountData.take n)).entry name.asStr =
            data.entry name.asStr ∨
          ∃ seed, (data.puts ((C.setup key data [a, b, c]).accountData.take n)).entry name.asStr =
            some (C.secretEntry key data name seed).content := by
  have hnodup := nodup_take key data a b c n
  have hfront : (C.setup key data [a, b, c]).accountData.take n =
      (beforePointer key data a b c).take n := by
    rw [setup_accountData, List.take_append_of_le_length hn]
  rw [hfront] at hnodup
  rw [hfront]
  refine ⟨?_, fun keyId hne => ?_, fun name => ?_⟩
  · rw [entry_puts hnodup]
    cases h : AccountData.entry ((beforePointer key data a b c).take n) defaultKeyEventType with
    | none => rfl
    | some text =>
      rcases entry_beforePointer h with ht | ⟨name, -, ht, -⟩
      · exact absurd ht.symm (keyEventType_ne_defaultKeyEventType _)
      · exact absurd ht.symm (asStr_ne_defaultKeyEventType _)
  · rw [entry_puts hnodup]
    cases h : AccountData.entry ((beforePointer key data a b c).take n) (keyEventType keyId) with
    | none => rfl
    | some text =>
      rcases entry_beforePointer h with ht | ⟨name, -, ht, -⟩
      · exact absurd (keyEventType_injective ht) hne
      · exact absurd ht (keyEventType_ne_asStr _ _)
  · rw [entry_puts hnodup]
    cases h : AccountData.entry ((beforePointer key data a b c).take n) name.asStr with
    | none => exact Or.inl rfl
    | some text =>
      rcases entry_beforePointer h with ht | ⟨name', seed, ht, rfl⟩
      · exact absurd ht.symm (keyEventType_ne_asStr _ _)
      · obtain rfl := asStr_injective ht
        exact Or.inr ⟨seed, rfl⟩

/-- **What every type holds once the four writes before the pointer are made, and
once all are.** -/
theorem entry_written (data : AccountData C.Text) (key : C.Key) (a b c : String) {n : ℕ}
    (hn : 4 ≤ n) :
    (data.puts ((C.setup key data [a, b, c]).accountData.take n)).entry
        (keyEventType (C.keyId key)) = some (C.eventContent key) ∧
      ∀ s ∈ secrets.zip [a, b, c],
        (data.puts ((C.setup key data [a, b, c]).accountData.take n)).entry s.1.asStr =
          some (C.secretEntry key data s.1 s.2).content := by
  have hnodup := nodup_take key data a b c n
  have hfront : ∃ rest, (C.setup key data [a, b, c]).accountData.take n =
      beforePointer key data a b c ++ rest := by
    rw [setup_accountData, List.take_append, List.take_of_length_le hn]
    exact ⟨_, rfl⟩
  obtain ⟨rest, hfront⟩ := hfront
  rw [hfront] at hnodup ⊢
  have hkey := keyEventType_ne_asStr (C.keyId key)
  have hnames : ∀ name name' : SecretName, name ≠ name' → name.asStr ≠ name'.asStr :=
    fun _ _ hne heq => hne (asStr_injective heq)
  refine ⟨?_, fun s hs => ?_⟩
  · rw [entry_puts hnodup]
    simp [beforePointer, entry_cons, keyEntry]
  · rw [entry_puts hnodup]
    simp only [secrets, List.zip_cons_cons, List.zip_nil_right, List.mem_cons, List.not_mem_nil,
      or_false] at hs
    rcases hs with rfl | rfl | rfl <;>
      simp [beforePointer, entry_cons, keyEntry, secretEntry, hkey, hnames]

/-- Once all is written, the account data points at the new key. -/
theorem pointedKeyId_written (hC : C.Correct) (hne : C.keyId key ≠ "") :
    C.pointedKeyId (data.puts (C.setup key data [a, b, c]).accountData) = some (C.keyId key) := by
  have hentry : (data.puts (C.setup key data [a, b, c]).accountData).entry defaultKeyEventType =
      some (C.pointerEntry key).content := by
    rw [entry_puts nodup_setup]
    simp [setup_accountData, beforePointer, entry_cons, keyEntry, secretEntry, pointerEntry,
      keyEventType_ne_defaultKeyEventType, asStr_ne_defaultKeyEventType]
  rw [pointedKeyId, hentry, Option.bind_some, pointerEntry, hC.readsPointer]
  simp [Json.asStr?, hne]

/-! ### Every prefix of the writes -/

variable {secret passphrase : String} {x : CrossSigningKeyExport} {p : Process} {up : Writing C}
  {written : RecoverySetup C.Text}

/-- **The old recovery after a proper prefix of the writes**, where every secret
stored reads as an object. -/
theorem openRecovery_write (hC : C.Correct) (hopen : C.openRecovery secret data = .ok x)
    (hfresh : C.FreshKey key data) (hread : C.Readable data) {n : ℕ} (hn : n ≤ 4) :
    C.openRecovery secret (data.puts ((C.setup key data [a, b, c]).accountData.take n)) =
      .ok x := by
  obtain ⟨keyId, content, description, key₀, seeds, hpointed, hcontent, hparts, hkey, hseeds,
    hx⟩ := openRecovery_eq_ok.mp hopen
  have hne : keyId ≠ C.keyId key := hfresh.ne hcontent
  obtain ⟨hpointer, hdescription, hsecrets⟩ := entry_write data key a b c hn
  refine openRecovery_eq_ok.mpr ⟨keyId, content, description, key₀, seeds,
    (pointedKeyId_congr hpointer).trans hpointed, (hdescription keyId hne).trans hcontent, hparts,
    hkey, mapM_eq_ok.mpr ((mapM_eq_ok.mp hseeds).imp fun name seed hseed => ?_), hx⟩
  rcases hsecrets name with hsame | ⟨seed', hmerged⟩
  · rw [readSecret_congr hsame]
    exact hseed
  · obtain ⟨text, -, -, -, -, htext, -⟩ := readSecret_eq_ok.mp hseed
    obtain ⟨fields, hobj⟩ := hread name (mem_secrets name) text htext
    exact readSecret_merged hC htext hobj hmerged hne hseed

/-- Where the old recovery opens once the three secrets are written, every one of
them was stored in an object. -/
theorem readable_of_openRecovery_write (hC : C.Correct) {y : CrossSigningKeyExport}
    (hopen : C.openRecovery secret data = .ok x) (hfresh : C.FreshKey key data)
    (h : C.openRecovery secret (data.puts ((C.setup key data [a, b, c]).accountData.take 4)) =
      .ok y) : C.Readable data := by
  obtain ⟨keyId, content, -, -, -, hpointed, hcontent, -⟩ := openRecovery_eq_ok.mp hopen
  obtain ⟨keyId', -, -, key₀, seeds, hpointed', -, -, -, hseeds, -⟩ := openRecovery_eq_ok.mp h
  have hne : keyId ≠ C.keyId key := hfresh.ne hcontent
  obtain ⟨hpointer, -, -⟩ := entry_write data key a b c (le_refl 4)
  rw [pointedKeyId_congr hpointer, hpointed] at hpointed'
  obtain rfl := Option.some.inj hpointed'
  intro name hname text htext
  obtain ⟨seed, -, hseed⟩ := exists_mem_of_mapM hseeds hname
  obtain ⟨seed', hs⟩ : ∃ seed', (name, seed') ∈ secrets.zip [a, b, c] := by
    cases name <;> simp [secrets]
  have hmerged := (entry_written data key a b c (le_refl 4)).2 _ hs
  obtain ⟨text', fields, htext', hobj⟩ := isObject_of_merged hC hmerged hne hseed
  rw [htext] at htext'
  exact ⟨fields, Option.some.inj htext' ▸ hobj⟩

/-- **The new recovery opens once all is written.** -/
theorem openRecovery_written (hC : C.Correct) (drawn : C.Randomness) {new : String}
    (hnew : new ∈ [passphrase, C.toBase58 (C.newFromPassphrase drawn passphrase)]) :
    C.openRecovery new (data.puts (C.setup (C.newFromPassphrase drawn passphrase) data
      [a, b, c]).accountData) = .ok ⟨some a, some b, some c⟩ := by
  obtain ⟨description, hparts, hopens⟩ := hC.opens drawn passphrase
  have hall := entry_written data (C.newFromPassphrase drawn passphrase) a b c
    (show 4 ≤ 5 by omega)
  rw [List.take_of_length_le (by simp [setup_accountData, beforePointer])] at hall
  obtain ⟨hdescription, hsecrets⟩ := hall
  refine openRecovery_eq_ok.mpr ⟨_, _, description, _, [a, b, c],
    pointedKeyId_written hC (hC.keyId_ne drawn passphrase), hdescription, hparts, hopens new hnew,
    mapM_eq_ok.mpr ?_, rfl⟩
  exact .cons (readSecret_new hC (hsecrets (.crossSigningMasterKey, a) (by simp [secrets])))
    (.cons (readSecret_new hC (hsecrets (.crossSigningSelfSigningKey, b) (by simp [secrets])))
      (.cons (readSecret_new hC (hsecrets (.crossSigningUserSigningKey, c) (by simp [secrets])))
        .nil))

/-- **The old recovery opens after every proper prefix of the writes, and the new one
after all of them, exactly when every secret stored reads as an object.** -/
theorem old_recovery_kept_iff (hC : C.Correct) (hopen : C.openRecovery secret data = .ok x)
    (hcreate : (C.createRecovery passphrase data.withoutPointer p (some up)).1 = .ok written)
    (hfresh : C.FreshKey (C.newFromPassphrase up.randomness passphrase) data) :
    ((∀ n < written.accountData.length,
        C.openRecovery secret (data.puts (written.accountData.take n)) = .ok x) ∧
      ∀ new ∈ [passphrase, written.recoveryKey], ∃ seeds, up.exported = .ok (some seeds) ∧
        C.openRecovery new (data.puts written.accountData) = .ok seeds) ↔ C.Readable data := by
  obtain ⟨-, a, b, c, hexported, rfl⟩ := createRecovery_eq_ok hcreate
  rw [setup_withoutPointer]
  constructor
  · rintro ⟨hevery, -⟩
    exact readable_of_openRecovery_write hC hopen hfresh (hevery 4 (by
      simp [setup_accountData, beforePointer]))
  · intro hread
    refine ⟨fun n hn => openRecovery_write hC hopen hfresh hread ?_, fun new hnew =>
      ⟨_, hexported, openRecovery_written hC up.randomness hnew⟩⟩
    have hlength : (C.setup (C.newFromPassphrase up.randomness passphrase) data
        [a, b, c]).accountData.length = 5 := rfl
    omega

end SecretStorage

/-! ### A recovery that another client wrote a number beside

A storage whose keys are a name and a passphrase, and whose texts are the values
they denote.  A value with a number beyond the range of a double among its fields
does not read as a `Value`; the reader of a secret passes over it. -/

/-- No field is a number out of range. -/
def numbersInRange : Json → Bool
  | .obj fields => fields.all fun f =>
    match f.2 with
    | .num _ exponent => decide (exponent ≤ 308)
    | _ => true
  | _ => true

/-- A storage that hides nothing. -/
def plainStorage : SecretStorage where
  Text := Json
  Key := String × String
  Encrypted := String × String × String
  Description := String × String
  Randomness := String
  fromStr := fun json => if numbersInRange json then some json else none
  toText := id
  secretEventContent := fun json =>
    ((json.field? "encrypted").bind Json.asObject?).map fun members id =>
      (Json.obj members).field? id
  deserialize := fun
    | .arr [.str keyId, .str name, .str seed] => some (keyId, name, seed)
    | _ => none
  toValue := fun e => .arr [.str e.1, .str e.2.1, .str e.2.2]
  fromParts := fun _ => fun
    | .arr [.str keyId, .str passphrase] => some (keyId, passphrase)
    | _ => none
  fromAccountData := fun secret description =>
    if secret = description.2 ∨ secret = "EsT" ++ description.1 then .ok description
    else .error .mac
  newFromPassphrase := fun drawn passphrase => (drawn, passphrase)
  keyId := fun key => "k" ++ key.1
  eventContent := fun key => .arr [.str key.1, .str key.2]
  toBase58 := fun key => "EsT" ++ key.1
  encrypt := fun key plaintext name =>
    (key.1, name.asStr, (String.fromUTF8? plaintext).getD "")
  decrypt := fun key e name =>
    if e.1 = key.1 ∧ e.2.1 = name.asStr then some e.2.2.toUTF8 else none

theorem plainStorage_correct : plainStorage.Correct where
  readersAgree := by
    intro json fields encrypted hjson hread
    obtain ⟨members, hmembers, rfl⟩ := Option.map_eq_some_iff.mp hread
    obtain ⟨value, hvalue, hobj⟩ := Option.bind_eq_some_iff.mp hmembers
    have heq : json = .obj fields := by
      simp only [plainStorage] at hjson
      split at hjson
      · exact Option.some.inj hjson
      · cases hjson
    cases value with
    | obj members' =>
      obtain rfl := Option.some.inj hobj
      exact ⟨members', heq ▸ hvalue, fun id raw ciphertext hraw hciphertext =>
        ⟨raw, hraw, hciphertext⟩⟩
    | _ => cases hobj
  readsWritten := by
    intro members
    refine ⟨fun id => (Json.obj members).field? id, ?_, fun id => Option.map_id'.symm⟩
    simp [plainStorage, Json.asObject?]
  readsCiphertext := fun _ => rfl
  readsPointer := fun _ => rfl
  decrypts := by
    intro key seed name
    have hseed : ((String.fromUTF8? seed.toUTF8).getD "").toUTF8 = seed.toUTF8 := by
      rw [fromUTF8?_toUTF8, Option.getD_some]
    exact (if_pos ⟨rfl, rfl⟩).trans (congrArg some hseed)
  keyId_ne := by
    intro (drawn : String) passphrase h
    have hlength : ("k" ++ drawn).length = 0 := congrArg String.length h
    have hk : "k".length = 1 := by decide
    rw [String.length_append, hk] at hlength
    omega
  opens := by
    intro drawn passphrase
    refine ⟨(drawn, passphrase), rfl, fun secret hsecret => ?_⟩
    rcases List.mem_cons.mp hsecret with rfl | hsecret
    · exact if_pos (Or.inl rfl)
    · exact if_pos (Or.inr (List.mem_singleton.mp hsecret))

/-- A recovery under the key `kold`. -/
def oldRecovery : AccountData Json :=
  (plainStorage.setup ("old", "correct horse") [] ["master", "self", "user"]).accountData

/-- The same, with a number out of range beside the ciphertexts of the master key. -/
def notedRecovery : AccountData Json :=
  oldRecovery.put ⟨"m.cross_signing.master", .obj
    [("encrypted", .obj
        [("kold", .arr [.str "old", .str "m.cross_signing.master", .str "master"])]),
      ("note", .num 1 400)]⟩

/-- The old seeds. -/
def oldSeeds : CrossSigningKeyExport := ⟨some "master", some "self", some "user"⟩

/-- A create that draws the key `knew`, on a machine that holds other seeds. -/
def drawnNew : Writing plainStorage where
  reads := {}
  queryId := "q1"
  query := aliceQuery
  exported := .ok (some ⟨some "master2", some "self2", some "user2"⟩)
  randomness := "new"

/-- A process that has asked about the account. -/
def askedProcess : Process :=
  ⟨{ RequestState.initial with accountKeysAnswered := true }, noIdentityStore⟩

/-- The new recovery, over some account data. -/
def newRecovery (data : AccountData Json) : RecoverySetup Json :=
  plainStorage.setup ("new", "battery staple") data ["master2", "self2", "user2"]

theorem createRecovery_askedProcess {data : AccountData Json}
    (h : plainStorage.pointedKeyId data = none) :
    (plainStorage.createRecovery "battery staple" data askedProcess (some drawnNew)).1 =
      .ok (newRecovery data) := by
  simp only [SecretStorage.createRecovery, h, Option.isSome_none, Bool.false_eq_true, if_false]
  exact rfl

/-- The old recovery opens after every proper prefix, and the new one in the end. -/
theorem old_recovery_kept_oldRecovery :
    (∀ n < 5, plainStorage.openRecovery "correct horse"
        (oldRecovery.puts ((newRecovery oldRecovery.withoutPointer).accountData.take n)) =
          .ok oldSeeds) ∧
      ∀ new ∈ ["battery staple", "EsTnew"], ∃ seeds, drawnNew.exported = .ok (some seeds) ∧
        plainStorage.openRecovery new
          (oldRecovery.puts (newRecovery oldRecovery.withoutPointer).accountData) = .ok seeds := by
  have hread : plainStorage.Readable oldRecovery := by
    intro name hname text htext
    cases name <;> (obtain rfl := Option.some.inj htext; exact ⟨_, rfl⟩)
  have htypes : ∀ t ∈ oldRecovery.map AccountDataEntry.eventType, t ≠ keyEventType "knew" := by
    decide
  have hfresh : plainStorage.FreshKey
      (plainStorage.newFromPassphrase drawnNew.randomness "battery staple") oldRecovery :=
    fun e he => htypes _ (List.mem_map_of_mem he)
  have hopen : plainStorage.openRecovery "correct horse" oldRecovery = .ok oldSeeds := rfl
  exact (SecretStorage.old_recovery_kept_iff plainStorage_correct hopen
    (createRecovery_askedProcess rfl) hfresh).mpr hread

/-- **The old recovery is gone after two writes**: the content with the number out of
range was not read, so the entry written over it carries no other key. -/
theorem old_recovery_evicted : plainStorage.Correct ∧
    (notedRecovery.map AccountDataEntry.eventType).Nodup ∧
      plainStorage.openRecovery "correct horse" notedRecovery = .ok oldSeeds ∧
        ∃ p written, (plainStorage.createRecovery "battery staple" notedRecovery.withoutPointer p
            (some drawnNew)).1 = .ok written ∧
          plainStorage.FreshKey ("new", "battery staple") notedRecovery ∧
            2 < written.accountData.length ∧
              plainStorage.openRecovery "correct horse"
                (notedRecovery.puts (written.accountData.take 2)) = .error .recoveryNotSetUp := by
  refine ⟨plainStorage_correct, by decide, rfl, askedProcess,
    newRecovery notedRecovery.withoutPointer, createRecovery_askedProcess rfl, ?_, ?_, rfl⟩
  · have htypes : ∀ t ∈ notedRecovery.map AccountDataEntry.eventType,
        t ≠ keyEventType "knew" := by decide
    exact fun e he => htypes _ (List.mem_map_of_mem he)
  · show 2 < 5
    omega

end MatrixCrypto
