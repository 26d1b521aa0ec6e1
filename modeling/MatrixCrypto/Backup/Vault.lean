import MatrixCrypto.Backup.Restore
import MatrixCrypto.Facade.Errors
import MatrixCrypto.Lib.KeepBetter
import MatrixCrypto.Lib.Transition

/-!
# Key vaults

Every key an account holds, in one file under a passphrase: one device writes it, and any device
that has the passphrase opens it and imports what it holds.  The format of the file, the keys and
the store they are put in are upstream's, the parameter `KeyExport`.

## Main definitions

* `KeyExportError`, `vaultErrorOf` — seven failures, as the two a person can act on.
* `KeyExport` — the file format, and when a key is better than another.
* `createKeyVault`, `openKeyVault` — the calls.
* `VaultWorld`, `VaultStep`, `vaults` — devices that write vaults and open each other's.

## Main results

* `openKeyVault_createKeyVault` — **what a vault makes of the device that opens it.**
* `arrived_of_reachable` — **no vault makes up a key.**
* `holds_of_opened` — **what a device held when it wrote a vault, whoever opened it holds ever
  after.**
-/

namespace MatrixCrypto

open Lib Facade

/-! ### The calls -/

/-- `KeyExportError`, less what its kinds carry. -/
inductive KeyExportError
  | invalidHeaders
  | unsupportedVersion
  | invalidMac
  | invalidUtf8
  | json
  | decode
  | io
  deriving DecidableEq, Repr

/-- `VaultError::from`: the MAC alone fails because of the passphrase. -/
def vaultErrorOf : KeyExportError → VaultFfiError
  | .invalidMac => .wrongPassphrase
  | .invalidHeaders | .unsupportedVersion | .invalidUtf8 | .json | .decode | .io =>
    .malformedPayload

/-- Upstream's file format, and its keys. -/
structure KeyExport where
  /-- `ExportedRoomKey`. -/
  Key : Type
  /-- Keys by session; one is better where it reaches further back. -/
  filing : Filing String Key
  /-- `encrypt_room_key_export`, with what it draws. -/
  encryptRoomKeyExport : String → List Key → String → ℕ → Except Unit String
  decryptRoomKeyExport : String → String → Except KeyExportError (List Key)

/-- A file opens with the passphrase it was written with, whatever was drawn. -/
def KeyExport.Lawful (X : KeyExport) : Prop :=
  ∀ {draw keys passphrase rounds vault},
    X.encryptRoomKeyExport draw keys passphrase rounds = .ok vault →
      X.decryptRoomKeyExport vault passphrase = .ok keys

/-- `ROUNDS`. -/
def vaultRounds : ℕ := 500000

namespace KeyExport

variable (X : KeyExport)

/-- `create_key_vault`.  The machine is `none` where there is none; where there is one, it is what
its store exports. -/
def createKeyVault (draw passphrase : String) (machine : Option (Except Unit (List X.Key))) :
    Except VaultFfiError String :=
  match machine with
  | none => .error .notInitialised
  | some (.error _) => .error .failed
  | some (.ok keys) =>
    match X.encryptRoomKeyExport draw keys passphrase vaultRounds with
    | .error _ => .error .failed
    | .ok vault => .ok vault

/-- What a store makes of an import: how many keys it took, and the keys it has then. -/
abbrev Importing : Type :=
  OrdMap String X.Key → List X.Key → Except Unit (ℕ × OrdMap String X.Key)

/-- `open_key_vault`, over the keys the device has; they are `none` where there is no machine. -/
def openKeyVault (vault passphrase : String) (importRoomKeys : X.Importing)
    (held : Option (OrdMap String X.Key)) :
    Except VaultFfiError BackupImport × Option (OrdMap String X.Key) :=
  -- the file is opened before there has to be a machine
  match X.decryptRoomKeyExport vault passphrase with
  | .error e => (.error (vaultErrorOf e), held)
  | .ok keys =>
    match held with
    | none => (.error .notInitialised, none)
    | some m =>
      match importRoomKeys m keys with
      | .error _ => (.error .failed, some m)
      | .ok (importedCount, m') => (.ok ⟨keys.length % 2 ^ 32, importedCount % 2 ^ 32⟩, some m')

/-- What a store imports: the keys that are better than its own. -/
def Imports (importRoomKeys : X.Importing) : Prop :=
  ∀ m keys count m', importRoomKeys m keys = .ok (count, m') → X.filing.Merges m keys count m'

/-- `export_room_keys`, of everything. -/
def exportRoomKeys (m : OrdMap String X.Key) : List X.Key := m.entries.map Prod.snd

/-- Every key is filed under its session. -/
def Filed (m : OrdMap String X.Key) : Prop := ∀ k a, m.get? k = some a → X.filing.key a = k

variable {X}

theorem mem_exportRoomKeys {m : OrdMap String X.Key} (hm : X.Filed m) {a : X.Key} :
    a ∈ X.exportRoomKeys m ↔ m.get? (X.filing.key a) = some a := by
  unfold exportRoomKeys
  rw [List.mem_map]
  constructor
  · rintro ⟨⟨k, b⟩, hmem, rfl⟩
    have hget : m.get? k = some b := OrdMap.get?_eq_some.mpr hmem
    rw [hm k b hget]
    exact hget
  · intro hget
    exact ⟨_, OrdMap.get?_eq_some.mp hget, rfl⟩

/-- An export has one key of a session. -/
theorem nodup_exportRoomKeys {m : OrdMap String X.Key} (hm : X.Filed m) :
    ((X.exportRoomKeys m).map X.filing.key).Nodup := by
  have hkeys : (X.exportRoomKeys m).map X.filing.key = m.entries.map Prod.fst := by
    unfold exportRoomKeys
    rw [List.map_map]
    exact List.map_congr_left fun e he => hm e.1 e.2 (OrdMap.get?_eq_some.mpr he)
  rw [hkeys, List.Nodup, List.pairwise_map]
  exact m.sorted.imp fun h => ne_of_lt h

theorem createKeyVault_eq_ok {draw passphrase vault : String}
    {machine : Option (Except Unit (List X.Key))} :
    X.createKeyVault draw passphrase machine = .ok vault ↔ ∃ keys, machine = some (.ok keys) ∧
      X.encryptRoomKeyExport draw keys passphrase vaultRounds = .ok vault := by
  unfold createKeyVault
  constructor
  · intro h
    split at h
    · cases h
    · cases h
    · next keys =>
      split at h
      · cases h
      · next heq =>
        cases h
        exact ⟨keys, rfl, heq⟩
  · rintro ⟨keys, rfl, h⟩
    simp only [h]

/-- Opening a file that opens, on a device that has a machine. -/
theorem openKeyVault_of_opens {vault passphrase : String} {keys : List X.Key}
    {importRoomKeys : X.Importing} {m m' : OrdMap String X.Key} {count : ℕ}
    (hopens : X.decryptRoomKeyExport vault passphrase = .ok keys)
    (himport : importRoomKeys m keys = .ok (count, m')) :
    X.openKeyVault vault passphrase importRoomKeys (some m) =
      (.ok ⟨keys.length % 2 ^ 32, count % 2 ^ 32⟩, some m') := by
  unfold openKeyVault
  simp only [hopens, himport]

/-- **What a vault makes of the device that opens it**, where the import does not fail.  The counts
are of the keys in the file and of those that were better; every key that was in the file or on the
device is held, no worse; and opening it again imports none and changes nothing. -/
theorem openKeyVault_createKeyVault (hX : X.Lawful) {m held held' : OrdMap String X.Key}
    (hm : X.Filed m) {draw passphrase vault : String}
    (hvault : X.createKeyVault draw passphrase (some (.ok (X.exportRoomKeys m))) = .ok vault)
    {importRoomKeys : X.Importing} (hI : X.Imports importRoomKeys) {count : ℕ}
    (himport : importRoomKeys held (X.exportRoomKeys m) = .ok (count, held')) :
    X.openKeyVault vault passphrase importRoomKeys (some held) =
        (.ok ⟨m.entries.length % 2 ^ 32, count % 2 ^ 32⟩, some held') ∧
      count = (X.exportRoomKeys m).countP (fun a => X.filing.takes held a) ∧
      (∀ k a, m.get? k = some a → X.filing.Holds held' a) ∧
      (∀ k a, held.get? k = some a → ∃ b, held'.get? k = some b ∧
        (b = a ∨ X.filing.better b a = true)) ∧
      ∀ {importAgain : X.Importing}, X.Imports importAgain → ∀ {again held''},
        importAgain held' (X.exportRoomKeys m) = .ok (again, held'') →
        X.openKeyVault vault passphrase importAgain (some held') =
            (.ok ⟨m.entries.length % 2 ^ 32, 0⟩, some held'') ∧
          ∀ k, held''.get? k = held'.get? k := by
  obtain ⟨_, heq, hencrypt⟩ := createKeyVault_eq_ok.mp hvault
  cases heq
  have hopens : X.decryptRoomKeyExport vault passphrase = .ok (X.exportRoomKeys m) := hX hencrypt
  have hlength : (X.exportRoomKeys m).length = m.entries.length := List.length_map ..
  have hapart := nodup_exportRoomKeys hm
  have hmerges := hI _ _ _ _ himport
  have hheld : ∀ a ∈ X.exportRoomKeys m, X.filing.Holds held' a := fun a ha =>
    hmerges.holds_offered hapart ha
  refine ⟨?_, hmerges.count hapart, fun k a hk => ?_, hmerges.kept, fun {_} hagain {_ _} h => ?_⟩
  · rw [openKeyVault_of_opens hopens himport, hlength]
  · have hkey : X.filing.key a = k := hm k a hk
    exact hheld a ((mem_exportRoomKeys hm).mpr (hkey ▸ hk))
  · obtain ⟨hsame, hnone⟩ := (hagain _ _ _ _ h).of_holds hheld
    rw [openKeyVault_of_opens hopens h, hlength, hnone hapart]
    exact ⟨rfl, hsame⟩

namespace Example

/-- Keys are sessions with the first message they read; one file is written and read. -/
def oneKey : KeyExport where
  Key := String × ℕ
  filing := {
    key := Prod.fst
    better := fun a b => decide (a.2 < b.2)
    irrefl := fun a => by simp
    trans := fun {a b c} hab hbc => by
      rw [decide_eq_true_iff] at hab hbc ⊢
      omega }
  encryptRoomKeyExport := fun _ keys passphrase _ =>
    if keys = [("s", 3)] then .ok ("MEGOLM " ++ passphrase) else .error ()
  decryptRoomKeyExport := fun vault passphrase =>
    if vault = "MEGOLM " ++ passphrase then .ok [("s", 3)] else .error .invalidMac

theorem oneKey_lawful : oneKey.Lawful := by
  intro draw keys passphrase rounds vault h
  simp only [oneKey] at h ⊢
  split at h
  · next hkeys =>
    cases h
    rw [if_pos rfl, hkeys]
  · cases h

/-- A store that takes what is better. -/
def taking : oneKey.Importing := fun m keys => .ok (oneKey.filing.offerAll m keys)

theorem imports_taking : oneKey.Imports taking := by
  intro m keys count m' h
  have hmerges := Filing.merges_offerAll (F := oneKey.filing) keys m
  have heq : oneKey.filing.offerAll m keys = (count, m') := Except.ok.inj h
  rw [heq] at hmerges
  exact hmerges

/-- The key of a session, from a message on. -/
def keyFrom (session : String) (index : ℕ) : oneKey.Key := (session, index)

/-- The keys of the device that writes the vault, and of the one that opens it. -/
def phone : OrdMap String oneKey.Key := OrdMap.empty.insert "s" (keyFrom "s" 3)

def laptop : OrdMap String oneKey.Key := OrdMap.empty.insert "s" (keyFrom "s" 7)

theorem phone_filed : oneKey.Filed phone := by
  intro k a h
  unfold phone at h
  rw [OrdMap.get?_insert] at h
  split at h
  · next hk =>
    rw [hk, ← Option.some.inj h]
    rfl
  · cases h

/-- The laptop takes the phone's key, which reaches further back. -/
theorem openKeyVault_createKeyVault_phone :
    oneKey.openKeyVault "MEGOLM secret" "secret" taking (some laptop) =
      (.ok ⟨1, 1⟩, some phone) := by
  have hvault : oneKey.createKeyVault "" "secret" (some (.ok (oneKey.exportRoomKeys phone))) =
      .ok "MEGOLM secret" := rfl
  have himport : taking laptop (oneKey.exportRoomKeys phone) = .ok (1, phone) := rfl
  exact (openKeyVault_createKeyVault oneKey_lawful phone_filed hvault imports_taking himport).1

end Example

/-- What a call leaves on the device: what it had, or what a store made of the keys in the file. -/
theorem openKeyVault_cases (vault passphrase : String) (importRoomKeys : X.Importing)
    (held : Option (OrdMap String X.Key)) :
    (X.openKeyVault vault passphrase importRoomKeys held).2 = held ∨
      ∃ keys m count m', X.decryptRoomKeyExport vault passphrase = .ok keys ∧ held = some m ∧
        importRoomKeys m keys = .ok (count, m') ∧
        (X.openKeyVault vault passphrase importRoomKeys held).2 = some m' := by
  cases hopens : X.decryptRoomKeyExport vault passphrase with
  | error e => exact Or.inl (by unfold openKeyVault; simp only [hopens])
  | ok keys =>
    cases held with
    | none => exact Or.inl (by unfold openKeyVault; simp only [hopens])
    | some m =>
      cases himport : importRoomKeys m keys with
      | error _ => exact Or.inl (by unfold openKeyVault; simp only [hopens, himport])
      | ok taken =>
        obtain ⟨count, m'⟩ := taken
        refine Or.inr ⟨keys, m, count, m', rfl, rfl, himport, ?_⟩
        rw [openKeyVault_of_opens hopens himport]

/-- A call that succeeds imported what was in the file. -/
theorem openKeyVault_eq_ok {vault passphrase : String} {importRoomKeys : X.Importing}
    {held : Option (OrdMap String X.Key)} {report : BackupImport}
    (h : (X.openKeyVault vault passphrase importRoomKeys held).1 = .ok report) :
    ∃ keys m count m', X.decryptRoomKeyExport vault passphrase = .ok keys ∧ held = some m ∧
      importRoomKeys m keys = .ok (count, m') ∧
      (X.openKeyVault vault passphrase importRoomKeys held).2 = some m' := by
  rcases openKeyVault_cases vault passphrase importRoomKeys held with hsame | himported
  · unfold openKeyVault at h
    split at h
    · cases h
    · next keys hopens =>
      split at h
      · cases h
      · next m =>
        split at h
        · cases h
        · next count m' himport =>
          exact ⟨keys, m, count, m', hopens, rfl, himport, by
            rw [openKeyVault_of_opens hopens himport]⟩
  · exact himported

end KeyExport

/-! ### Devices that write vaults and open each other's -/

/-- A vault that was written, with what it was written of. -/
structure WrittenVault (X : KeyExport) where
  vault : String
  passphrase : String
  keys : List X.Key

/-- The devices, and the vaults there are. -/
structure VaultWorld (X : KeyExport) where
  /-- The keys of a device, where it has a machine. -/
  held : String → Option (OrdMap String X.Key)
  written : List (WrittenVault X)
  /-- Every key that came to some device by itself. -/
  arrived : List X.Key

/-- What happens. -/
inductive VaultOp (X : KeyExport)
  | start (device : String)
  | arrive (device : String) (key : X.Key)
  | create (device draw passphrase : String) (exported : Option (Except Unit (List X.Key)))
  | open (device vault passphrase : String) (importRoomKeys : X.Importing)

namespace VaultWorld

variable {X : KeyExport}

/-- No device, no vault. -/
def initial : VaultWorld X := ⟨fun _ => none, [], []⟩

/-- The device has these keys. -/
def withHeld (s : VaultWorld X) (device : String) (held : Option (OrdMap String X.Key)) :
    VaultWorld X :=
  { s with held := fun d => if d = device then held else s.held d }

/-- A vault that a call wrote. -/
def withWritten (s : VaultWorld X) (passphrase : String) (keys : List X.Key) :
    Except VaultFfiError String → VaultWorld X
  | .ok vault => { s with written := s.written ++ [⟨vault, passphrase, keys⟩] }
  | .error _ => s

theorem held_withHeld (s : VaultWorld X) (device d : String)
    (held : Option (OrdMap String X.Key)) :
    (s.withHeld device held).held d = if d = device then held else s.held d := rfl

end VaultWorld

/-- One of them.  An export is of everything the device holds, or fails; a file that opens was
written under the passphrase, since nobody makes up its MAC. -/
inductive VaultStep (X : KeyExport) (s : VaultWorld X) : VaultOp X → VaultWorld X → Prop
  | starts {device : String} (hnone : s.held device = none) :
      VaultStep X s (.start device) (s.withHeld device (some .empty))
  | arrives {device : String} {key : X.Key} {m : OrdMap String X.Key}
      (hm : s.held device = some m) :
      VaultStep X s (.arrive device key)
        { s.withHeld device (some (X.filing.offer m key)) with arrived := s.arrived ++ [key] }
  | creates {device draw passphrase : String} {exported : Option (Except Unit (List X.Key))}
      {m : OrdMap String X.Key} (hm : s.held device = some m)
      (hexported : exported = some (.ok (X.exportRoomKeys m)) ∨ exported = some (.error ())) :
      VaultStep X s (.create device draw passphrase exported)
        (s.withWritten passphrase (X.exportRoomKeys m)
          (X.createKeyVault draw passphrase exported))
  | opens {device vault passphrase : String} {importRoomKeys : X.Importing}
      (hI : X.Imports importRoomKeys)
      (hmac : ∀ keys, X.decryptRoomKeyExport vault passphrase = .ok keys →
        ∃ w ∈ s.written, w.vault = vault ∧ w.passphrase = passphrase) :
      VaultStep X s (.open device vault passphrase importRoomKeys)
        (s.withHeld device
          (X.openKeyVault vault passphrase importRoomKeys (s.held device)).2)

/-- Any of them, in any order, on any devices. -/
def vaults (X : KeyExport) : TransitionSystem (VaultWorld X) (VaultOp X) where
  init := fun s => s = .initial
  step := VaultStep X

namespace VaultWorld

variable {X : KeyExport} {s t : VaultWorld X}

/-- What every reachable state keeps. -/
structure Sound (s : VaultWorld X) : Prop where
  filed : ∀ d m, s.held d = some m → X.Filed m
  arrived : ∀ d m, s.held d = some m → ∀ k a, m.get? k = some a → a ∈ s.arrived
  opens : ∀ w ∈ s.written, X.decryptRoomKeyExport w.vault w.passphrase = .ok w.keys
  written : ∀ w ∈ s.written, ∀ a ∈ w.keys, a ∈ s.arrived

/-- What is put on one device, sound if its keys are filed and arrived. -/
theorem Sound.withHeld (hs : s.Sound) {device : String} {held : Option (OrdMap String X.Key)}
    (hheld : ∀ m, held = some m → X.Filed m ∧ ∀ k a, m.get? k = some a → a ∈ s.arrived) :
    (s.withHeld device held).Sound where
  filed := by
    intro d m hm
    rw [held_withHeld] at hm
    split at hm
    · exact (hheld m hm).1
    · exact hs.filed d m hm
  arrived := by
    intro d m hm
    rw [held_withHeld] at hm
    split at hm
    · exact (hheld m hm).2
    · exact hs.arrived d m hm
  opens := hs.opens
  written := hs.written

theorem Sound.arrive (hs : s.Sound) (key : X.Key) :
    Sound { s with arrived := s.arrived ++ [key] } where
  filed := hs.filed
  arrived := fun d m hm k a hk => List.mem_append_left _ (hs.arrived d m hm k a hk)
  opens := hs.opens
  written := fun w hw a ha => List.mem_append_left _ (hs.written w hw a ha)

theorem Sound.step (hX : X.Lawful) (hs : s.Sound) {op : VaultOp X} (h : VaultStep X s op t) :
    t.Sound := by
  cases h with
  | starts hnone =>
    refine hs.withHeld fun m hm => ?_
    cases hm
    exact ⟨fun k a hk => (by cases hk), fun k a hk => by cases hk⟩
  | @arrives device key m hm =>
    show (VaultWorld.withHeld { s with arrived := s.arrived ++ [key] } device
      (some (X.filing.offer m key))).Sound
    refine (hs.arrive key).withHeld fun m' hm' => ?_
    cases hm'
    refine ⟨fun k a hk => ?_, fun k a hk => ?_⟩ <;> rw [Filing.get?_offer] at hk <;> split at hk
    · next hcond => rw [← Option.some.inj hk, hcond.1]
    · exact hs.filed device m hm k a hk
    · rw [← Option.some.inj hk]
      exact List.mem_append_right _ (List.mem_singleton_self key)
    · exact List.mem_append_left _ (hs.arrived device m hm k a hk)
  | @creates device draw passphrase exported m hm hexported =>
    unfold withWritten
    split
    · next vault hvault =>
      obtain ⟨keys, hkeys, hencrypt⟩ := KeyExport.createKeyVault_eq_ok.mp hvault
      have hall : keys = X.exportRoomKeys m := by
        rcases hexported with rfl | rfl <;> cases hkeys
        rfl
      refine ⟨hs.filed, hs.arrived, fun w hw => ?_, fun w hw a ha => ?_⟩ <;>
        rcases List.mem_append.mp hw with hw | hw
      · exact hs.opens w hw
      · rw [List.mem_singleton.mp hw]
        exact hX (hall ▸ hencrypt)
      · exact hs.written w hw a ha
      · rw [List.mem_singleton.mp hw] at ha
        have hfiled := hs.filed device m hm
        exact hs.arrived device m hm _ a ((KeyExport.mem_exportRoomKeys hfiled).mp ha)
    · exact hs
  | @opens device vault passphrase importRoomKeys hI hmac =>
    refine hs.withHeld fun m' hm' => ?_
    rcases KeyExport.openKeyVault_cases vault passphrase importRoomKeys (s.held device) with
      hsame | ⟨keys, m, count, m'', hopens, hm, himport, heq⟩
    · rw [hsame] at hm'
      exact ⟨hs.filed device m' hm', hs.arrived device m' hm'⟩
    · rw [heq] at hm'
      cases hm'
      -- the file is one that was written, so its keys arrived
      obtain ⟨w, hw, rfl, rfl⟩ := hmac keys hopens
      rw [hs.opens w hw] at hopens
      cases hopens
      have hmerges := hI _ _ _ _ himport
      refine ⟨fun k a hk => ?_, fun k a hk => ?_⟩ <;>
        rcases hmerges.origin k a hk with hold | ⟨hmem, hkey, -⟩
      · exact hs.filed device m hm k a hold
      · exact hkey
      · exact hs.arrived device m hm k a hold
      · exact hs.written w hw a hmem

theorem sound_of_reachable (hX : X.Lawful) (h : (vaults X).Reachable s) : s.Sound := by
  refine h.invariant (fun s hs => ?_) fun s op t hs hstep => hs.step hX hstep
  rw [show s = .initial from hs]
  exact ⟨fun _ _ h => (by cases h), fun _ _ h => (by cases h), fun _ h => (by cases h),
    fun _ h => by cases h⟩

/-- **No vault makes up a key**: whatever vaults are written and opened, on whatever devices, a
device holds keys that came to some device by themselves. -/
theorem arrived_of_reachable (hX : X.Lawful) (h : (vaults X).Reachable s) {d : String}
    {m : OrdMap String X.Key} (hm : s.held d = some m) {k : String} {a : X.Key}
    (ha : m.get? k = some a) : X.filing.key a = k ∧ a ∈ s.arrived :=
  ⟨(sound_of_reachable hX h).filed d m hm k a ha, (sound_of_reachable hX h).arrived d m hm k a ha⟩

/-! ### What is held stays held -/

/-- The device holds the key, or one that is no worse. -/
def Holds (s : VaultWorld X) (d : String) (a : X.Key) : Prop :=
  ∃ m, s.held d = some m ∧ X.filing.Holds m a

/-- A key offered to a store leaves everything it holds. -/
theorem holds_offer {m : OrdMap String X.Key} {a b : X.Key} (h : X.filing.Holds m a) :
    X.filing.Holds (X.filing.offer m b) a := by
  have hmerges := Filing.merges_offerAll (F := X.filing) [b] m
  exact hmerges.holds h

/-- **No step loses a key.** -/
theorem Holds.step {d : String} {a : X.Key} (ha : s.Holds d a) {op : VaultOp X}
    (h : VaultStep X s op t) : t.Holds d a := by
  obtain ⟨m, hm, hholds⟩ := ha
  cases h with
  | @starts device hnone =>
    refine ⟨m, ?_, hholds⟩
    rw [held_withHeld, if_neg]
    · exact hm
    · rintro rfl
      rw [hnone] at hm
      cases hm
  | @arrives device key m' hm' =>
    by_cases hd : d = device
    · subst hd
      rw [hm] at hm'
      cases hm'
      exact ⟨_, if_pos rfl, holds_offer hholds⟩
    · exact ⟨m, (if_neg hd).trans hm, hholds⟩
  | creates hm' hexported =>
    refine ⟨m, ?_, hholds⟩
    unfold withWritten
    split <;> exact hm
  | @opens device vault passphrase importRoomKeys hI hmac =>
    by_cases hd : d = device
    · subst hd
      rcases KeyExport.openKeyVault_cases vault passphrase importRoomKeys (s.held d) with
        hsame | ⟨keys, m₀, count, m', hopens, hm₀, himport, heq⟩
      · exact ⟨m, by rw [held_withHeld, if_pos rfl, hsame, hm], hholds⟩
      · rw [hm] at hm₀
        cases hm₀
        exact ⟨m', by rw [held_withHeld, if_pos rfl, heq], (hI _ _ _ _ himport).holds hholds⟩
    · exact ⟨m, (if_neg hd).trans hm, hholds⟩

theorem Holds.run {d : String} {a : X.Key} (ha : s.Holds d a) {ops : List (VaultOp X)}
    (h : (vaults X).Run s ops t) : t.Holds d a :=
  h.invariant (I := fun s => s.Holds d a) (fun _ _ _ hs hstep => hs.step hstep) ha

/-- **What a device held when it wrote a vault, whoever opens it holds ever after**: whenever and
wherever the file is opened, the device that imported it has every key the other had when it wrote
it, or one that reaches further back, through every step that follows. -/
theorem holds_of_opened (hX : X.Lawful) {r t u v : VaultWorld X} (hr : (vaults X).Reachable r)
    {writer reader draw passphrase vault : String} {m : OrdMap String X.Key}
    (hm : r.held writer = some m)
    (hvault : X.createKeyVault draw passphrase (some (.ok (X.exportRoomKeys m))) = .ok vault)
    {importRoomKeys : X.Importing} {report : BackupImport}
    (hreport : (X.openKeyVault vault passphrase importRoomKeys (t.held reader)).1 = .ok report)
    (hopen : (vaults X).step t (.open reader vault passphrase importRoomKeys) u)
    {ops : List (VaultOp X)} (hafter : (vaults X).Run u ops v) {k : String} {a : X.Key}
    (ha : m.get? k = some a) : v.Holds reader a := by
  have hfiled : X.Filed m := (sound_of_reachable hX hr).filed writer m hm
  obtain ⟨_, heq, hencrypt⟩ := KeyExport.createKeyVault_eq_ok.mp hvault
  cases heq
  have hmem : a ∈ X.exportRoomKeys m := by
    rw [KeyExport.mem_exportRoomKeys hfiled, hfiled k a ha]
    exact ha
  have hstart : u.Holds reader a := by
    cases hopen with
    | opens hI hmac =>
      obtain ⟨keys, m₀, count, m', hopens, hm₀, himport, hleft⟩ :=
        KeyExport.openKeyVault_eq_ok hreport
      rw [hX hencrypt] at hopens
      cases hopens
      have hmerges := hI _ _ _ _ himport
      refine ⟨m', ?_, hmerges.holds_offered (KeyExport.nodup_exportRoomKeys hfiled) hmem⟩
      rw [held_withHeld, if_pos rfl, hleft]
  exact hstart.run hafter

/-! ### A phone writes a vault, and a laptop opens it -/

open KeyExport.Example

/-- Two devices with one key each, of one session. -/
def twoDevices : VaultWorld oneKey where
  held := fun d => if d = "laptop" then some laptop else if d = "phone" then some phone else none
  written := []
  arrived := [keyFrom "s" 3, keyFrom "s" 7]

theorem twoDevices_reachable : (vaults oneKey).Reachable twoDevices := by
  have hphone : oneKey.filing.offer .empty (keyFrom "s" 3) = phone := rfl
  have hlaptop : oneKey.filing.offer .empty (keyFrom "s" 7) = laptop := rfl
  let s₁ : VaultWorld oneKey := VaultWorld.initial.withHeld "phone" (some .empty)
  let s₂ : VaultWorld oneKey :=
    { s₁.withHeld "phone" (some phone) with arrived := [keyFrom "s" 3] }
  let s₃ : VaultWorld oneKey := s₂.withHeld "laptop" (some .empty)
  let s₄ : VaultWorld oneKey :=
    { s₃.withHeld "laptop" (some laptop) with arrived := [keyFrom "s" 3, keyFrom "s" 7] }
  have h₁ : VaultStep oneKey .initial (.start "phone") s₁ := .starts rfl
  have h₂ : VaultStep oneKey s₁ (.arrive "phone" (keyFrom "s" 3)) s₂ := by
    have h : VaultStep oneKey s₁ (.arrive "phone" (keyFrom "s" 3))
        { s₁.withHeld "phone" (some (oneKey.filing.offer .empty (keyFrom "s" 3))) with
          arrived := s₁.arrived ++ [keyFrom "s" 3] } := .arrives rfl
    rw [hphone] at h
    exact h
  have h₃ : VaultStep oneKey s₂ (.start "laptop") s₃ := .starts rfl
  have h₄ : VaultStep oneKey s₃ (.arrive "laptop" (keyFrom "s" 7)) s₄ := by
    have h : VaultStep oneKey s₃ (.arrive "laptop" (keyFrom "s" 7))
        { s₃.withHeld "laptop" (some (oneKey.filing.offer .empty (keyFrom "s" 7))) with
          arrived := s₃.arrived ++ [keyFrom "s" 7] } := .arrives rfl
    rw [hlaptop] at h
    exact h
  have heq : s₄ = twoDevices := by
    show VaultWorld.mk _ _ _ = VaultWorld.mk _ _ _
    congr 1
    funext d
    by_cases hlaptop : d = "laptop"
    · simp [hlaptop, s₃, s₂, s₁, VaultWorld.withHeld]
    · by_cases hphone : d = "phone" <;>
        simp [hlaptop, hphone, s₃, s₂, s₁, VaultWorld.withHeld, VaultWorld.initial]
  have hrun : (vaults oneKey).Run .initial _ s₄ :=
    (((TransitionSystem.Run.single h₁).snoc h₂).snoc h₃).snoc h₄
  exact ⟨.initial, _, rfl, heq ▸ hrun⟩

/-- The phone's vault is written. -/
def vaultWritten : VaultWorld oneKey :=
  { twoDevices with written := [⟨"MEGOLM secret", "secret", oneKey.exportRoomKeys phone⟩] }

theorem vault_of_phone : oneKey.createKeyVault "" "secret"
    (some (.ok (oneKey.exportRoomKeys phone))) = .ok "MEGOLM secret" := rfl

theorem writes_vault : (vaults oneKey).step twoDevices
    (.create "phone" "" "secret" (some (.ok (oneKey.exportRoomKeys phone)))) vaultWritten :=
  VaultStep.creates rfl (Or.inl rfl)

/-- The laptop has opened it. -/
def vaultOpened : VaultWorld oneKey := vaultWritten.withHeld "laptop" (some phone)

theorem opens_vault : (vaults oneKey).step vaultWritten
    (.open "laptop" "MEGOLM secret" "secret" taking) vaultOpened :=
  VaultStep.opens imports_taking fun _ _ => ⟨_, List.mem_singleton_self _, rfl, rfl⟩

/-- The key on the laptop is the one that came to the phone. -/
theorem arrived_of_reachable_opened :
    oneKey.filing.key (keyFrom "s" 3) = "s" ∧ keyFrom "s" 3 ∈ vaultOpened.arrived := by
  have hreachable : (vaults oneKey).Reachable vaultOpened :=
    (twoDevices_reachable.run (.single writes_vault)).run (.single opens_vault)
  have hheld : vaultOpened.held "laptop" = some phone := rfl
  have hkey : phone.get? "s" = some (keyFrom "s" 3) := rfl
  exact arrived_of_reachable oneKey_lawful hreachable hheld hkey

/-- And stays there when the phone is handed another. -/
theorem holds_of_opened_phone :
    ({ vaultOpened.withHeld "phone" (some (oneKey.filing.offer phone (keyFrom "s" 5))) with
      arrived := vaultOpened.arrived ++ [keyFrom "s" 5] } : VaultWorld oneKey).Holds "laptop"
        (keyFrom "s" 3) := by
  have hheld : twoDevices.held "phone" = some phone := rfl
  have hreport : (oneKey.openKeyVault "MEGOLM secret" "secret" taking
      (vaultWritten.held "laptop")).1 = .ok ⟨1, 1⟩ := rfl
  have harrives : (vaults oneKey).step vaultOpened (.arrive "phone" (keyFrom "s" 5)) _ :=
    VaultStep.arrives rfl
  have hkey : phone.get? "s" = some (keyFrom "s" 3) := rfl
  exact holds_of_opened oneKey_lawful twoDevices_reachable hheld vault_of_phone hreport opens_vault
    (.single harrives) hkey

end VaultWorld

end MatrixCrypto
