import MatrixCrypto.Backup.Machine
import MatrixCrypto.Lib.OrdMap
import Mathlib.Data.String.Basic

/-!
# Restoring a backup

`restore_backup`: a downloaded body read room by room and entry by entry, what it
decrypts to, and what is imported of it.  The body, its room ids and its rooms are
read strictly, its entries one by one; the readers of one entry, the decryption and
the store are upstream's, the parameter `KeyBackup`.

## Main definitions

* `oneField`, `mapField` — how a body of one field is read.
* `roomKeyBackup`, `backedUpKeys` — a room, and the whole body.
* `Tally`, `tally` — the three counters of the loop.
* `restoreBackup` — the call, with the keys it imported.
* `ApartInRoom`, `ApartInSession` — bodies that differ in one place.

## Main results

* `counts_tally` — what the loop comes to.
* `restoreBackup_wrongKey_iff`, `restoreBackup_malformedPayload_iff` — which outcome
  a body has.
* `restore_costs_itself` — **a damaged entry costs itself**.
* `damaged_room_costs_all` — a damaged room costs the body.
-/

namespace MatrixCrypto

open Lib

/-! ### What is read -/

/-- What `serde_json`, `ruma` and upstream make of a downloaded backup. -/
structure KeyBackup where
  /-- JSON texts. -/
  Raw : Type
  Key : Type
  /-- One entry, as it is read. -/
  KeyBackupData : Type
  BackedUpRoomKey : Type
  /-- The fields of a text that is an object, as they stand; the values stay texts. -/
  object : Raw → Option (List (String × Raw))
  /-- The values of a text that is an array. -/
  array : Raw → Option (List Raw)
  /-- Whether a name is an `OwnedRoomId`. -/
  isRoomId : String → Bool
  /-- `BackupDecryptionKey::from_base58`. -/
  fromBase58 : String → Option Key
  /-- `Raw::deserialize`, of an entry. -/
  deserialize : Raw → Option KeyBackupData
  decryptSessionData : Key → KeyBackupData → Option BackedUpRoomKey

/-- `ExportedRoomKey`, as a backed up key becomes one. -/
structure ExportedRoomKey (R : Type) where
  roomId : String
  sessionId : String
  roomKey : R
  deriving DecidableEq

/-- `BackupError`, with the kinds only a restore returns. -/
inductive RestoreError
  | backup (e : BackupError)
  | malformedPayload
  | wrongKey
  deriving DecidableEq, Repr

/-- `BackupImport`: the two counts, `u32`. -/
structure BackupImport where
  offered : ℕ
  imported : ℕ
  deriving DecidableEq, Repr

/-- `saturating_add(1)`, of a `u32`. -/
def saturatingSucc (n : ℕ) : ℕ := min (n + 1) (2 ^ 32 - 1)

namespace KeyBackup

variable (B : KeyBackup)

/-- A derived reader of a struct of one field: an object that has the field once, or
an array of one value. -/
def oneField (name : String) (text : B.Raw) : Option B.Raw :=
  match B.object text with
  | some fields =>
    match fields.filter fun f => f.1 == name with
    | [f] => some f.2
    | _ => none
  | none =>
    match B.array text with
    | some [value] => some value
    | _ => none

/-- Such a struct whose field is a map, as its entries stand. -/
def mapField (name : String) (text : B.Raw) : Option (List (String × B.Raw)) :=
  (B.oneField name text).bind B.object

/-- `RoomKeyBackup`: the sessions of a room, unparsed. -/
def roomKeyBackup (text : B.Raw) : Option (OrdMap String B.Raw) :=
  (B.mapField "sessions" text).map OrdMap.ofList

/-- One room of a body: its id parses and its value is a room's. -/
def readRoom (room : String × B.Raw) : Option (String × OrdMap String B.Raw) :=
  if B.isRoomId room.1 then (B.roomKeyBackup room.2).map fun sessions => (room.1, sessions)
  else none

/-- `BackedUpKeys`: the rooms of a body. -/
def backedUpKeys (text : B.Raw) : Option (OrdMap String (OrdMap String B.Raw)) :=
  ((B.mapField "rooms" text).bind fun rooms => rooms.mapM B.readRoom).map OrdMap.ofList

/-! ### The loop -/

/-- What the loop carries. -/
structure Tally where
  offered : ℕ := 0
  /-- Entries that parsed, and so reached the key. -/
  tried : ℕ := 0
  decrypted : List (ExportedRoomKey B.BackedUpRoomKey) := []

variable {B} in
/-- One turn of the loop. -/
def Tally.entry (t : B.Tally) (key : B.Key) (roomId sessionId : String) (entry : B.Raw) :
    B.Tally :=
  let t := { t with offered := saturatingSucc t.offered }
  match B.deserialize entry with
  | none => t
  | some data =>
    let t := { t with tried := saturatingSucc t.tried }
    match B.decryptSessionData key data with
    | none => t
    | some roomKey => { t with decrypted := t.decrypted ++ [⟨roomId, sessionId, roomKey⟩] }

/-- The loop, over the rooms and over the entries of each. -/
def tally (key : B.Key) (downloaded : OrdMap String (OrdMap String B.Raw)) : B.Tally :=
  downloaded.entries.foldl (fun t room =>
    room.2.entries.foldl (fun t s => t.entry key room.1 s.1 s.2) t) {}

/-! ### The call -/

/-- The import that ends the call: its result, and the keys the store took. -/
def importRoomKeys (version : String) (t : B.Tally)
    (machine : Option (List (ExportedRoomKey B.BackedUpRoomKey) → String → Except Unit ℕ)) :
    Except RestoreError BackupImport × List (ExportedRoomKey B.BackedUpRoomKey) :=
  match machine with
  | none => (.error (.backup .notInitialised), [])
  | some store =>
    match store t.decrypted version with
    -- one transaction: an import that fails stores none of them
    | .error _ => (.error (.backup .failed), [])
    | .ok importedCount => (.ok ⟨t.offered, importedCount % 2 ^ 32⟩, t.decrypted)

/-- `restore_backup`.  The machine is `none` where there is none; where there is one,
it is what its store makes of an import. -/
def restoreBackup (restoreKey version : String) (keys : B.Raw)
    (machine : Option (List (ExportedRoomKey B.BackedUpRoomKey) → String → Except Unit ℕ)) :
    Except RestoreError BackupImport × List (ExportedRoomKey B.BackedUpRoomKey) :=
  if version = "" then (.error (.backup .malformedIdentifier), [])
  else
    match B.fromBase58 restoreKey with
    | none => (.error (.backup .malformedIdentifier), [])
    | some key =>
      match B.backedUpKeys keys with
      | none => (.error .malformedPayload, [])
      | some downloaded =>
        let t := B.tally key downloaded
        if 0 < t.tried ∧ t.decrypted = [] then (.error .wrongKey, [])
        else if 0 < t.offered ∧ t.tried = 0 then (.error .malformedPayload, [])
        else B.importRoomKeys version t machine

/-! ### What the loop comes to -/

/-- The entries of a body, each with the room and the session it is filed under. -/
def entries (downloaded : OrdMap String (OrdMap String B.Raw)) :
    List (String × String × B.Raw) :=
  downloaded.entries.flatMap fun room => room.2.entries.map fun s => (room.1, s.1, s.2)

/-- The key an entry decrypts to. -/
def opens (key : B.Key) (e : String × String × B.Raw) :
    Option (ExportedRoomKey B.BackedUpRoomKey) :=
  ((B.deserialize e.2.2).bind (B.decryptSessionData key)).map fun roomKey =>
    ⟨e.1, e.2.1, roomKey⟩

/-- The keys a body decrypts to. -/
def opened (key : B.Key) (downloaded : OrdMap String (OrdMap String B.Raw)) :
    List (ExportedRoomKey B.BackedUpRoomKey) := (B.entries downloaded).filterMap (B.opens key)

/-- Whether an entry parses. -/
def parses (e : String × String × B.Raw) : Bool := (B.deserialize e.2.2).isSome

section loop

variable {B}

theorem mem_entries {downloaded : OrdMap String (OrdMap String B.Raw)} {room session : String}
    {entry : B.Raw} : (room, session, entry) ∈ B.entries downloaded ↔
      ∃ sessions, downloaded.get? room = some sessions ∧ sessions.get? session = some entry := by
  simp only [entries, List.mem_flatMap, List.mem_map, Prod.mk.injEq]
  constructor
  · rintro ⟨⟨r, sessions⟩, hroom, ⟨s, raw⟩, hsession, rfl, rfl, rfl⟩
    exact ⟨sessions, OrdMap.get?_eq_some.mpr hroom, OrdMap.get?_eq_some.mpr hsession⟩
  · rintro ⟨sessions, hroom, hsession⟩
    exact ⟨(room, sessions), OrdMap.get?_eq_some.mp hroom, (session, entry),
      OrdMap.get?_eq_some.mp hsession, rfl, rfl, rfl⟩

theorem saturatingSucc_min (n : ℕ) :
    saturatingSucc (min n (2 ^ 32 - 1)) = min (n + 1) (2 ^ 32 - 1) := by
  unfold saturatingSucc
  omega

/-- What the three counters are after some entries. -/
structure Tally.Counts (t : B.Tally) (key : B.Key) (l : List (String × String × B.Raw)) :
    Prop where
  offered : t.offered = min l.length (2 ^ 32 - 1)
  tried : t.tried = min (l.countP B.parses) (2 ^ 32 - 1)
  decrypted : t.decrypted = l.filterMap (B.opens key)

/-- One turn counts one entry: what does not parse is offered only, and what does
not decrypt is tried only. -/
theorem Tally.Counts.entry {t : B.Tally} {key : B.Key} {l : List (String × String × B.Raw)}
    (h : t.Counts key l) (room session : String) (raw : B.Raw) :
    (t.entry key room session raw).Counts key (l ++ [(room, session, raw)]) := by
  have hoffered : saturatingSucc t.offered =
      min (l ++ [(room, session, raw)]).length (2 ^ 32 - 1) := by
    rw [h.offered, saturatingSucc_min, List.length_append]
    rfl
  have htried : saturatingSucc t.tried = min (l.countP B.parses + 1) (2 ^ 32 - 1) := by
    rw [h.tried, saturatingSucc_min]
  -- every entry is offered; one that reads is tried, and one the key opens is decrypted
  cases hparse : B.deserialize raw with
  | none =>
    have hentry :
        t.entry key room session raw = { t with offered := saturatingSucc t.offered } := by
      unfold Tally.entry
      simp only [hparse]
    rw [hentry]
    refine ⟨hoffered, ?_, ?_⟩
    · simp [List.countP_append, parses, hparse, h.tried]
    · simp [List.filterMap_append, opens, hparse, h.decrypted]
  | some data =>
    cases hopen : B.decryptSessionData key data with
    | none =>
      have hentry : t.entry key room session raw =
          { t with offered := saturatingSucc t.offered, tried := saturatingSucc t.tried } := by
        unfold Tally.entry
        simp only [hparse, hopen]
      rw [hentry]
      refine ⟨hoffered, ?_, ?_⟩
      · simp [List.countP_append, parses, hparse, htried]
      · simp [List.filterMap_append, opens, hparse, hopen, h.decrypted]
    | some roomKey =>
      have hentry : t.entry key room session raw = ⟨saturatingSucc t.offered,
          saturatingSucc t.tried, t.decrypted ++ [⟨room, session, roomKey⟩]⟩ := by
        unfold Tally.entry
        simp only [hparse, hopen]
      rw [hentry]
      refine ⟨hoffered, ?_, ?_⟩
      · simp [List.countP_append, parses, hparse, htried]
      · simp [List.filterMap_append, opens, hparse, hopen, h.decrypted]

/-- The entries of one room, turn by turn. -/
theorem Tally.Counts.room {key : B.Key} (room : String) :
    ∀ (sessions : List (String × B.Raw)) {t : B.Tally} {l : List (String × String × B.Raw)},
      t.Counts key l → (sessions.foldl (fun t s => t.entry key room s.1 s.2) t).Counts key
        (l ++ sessions.map fun s => (room, s.1, s.2)) := by
  intro sessions
  induction sessions with
  | nil =>
    intro t l h
    rw [List.map_nil, List.append_nil]
    exact h
  | cons s sessions ih =>
    intro t l h
    have hnext := ih (h.entry room s.1 s.2)
    rw [List.append_assoc] at hnext
    exact hnext

/-- **What the loop comes to**: it counts the entries of the body. -/
theorem counts_tally (key : B.Key) (downloaded : OrdMap String (OrdMap String B.Raw)) :
    (B.tally key downloaded).Counts key (B.entries downloaded) := by
  have hrooms : ∀ (rooms : List (String × OrdMap String B.Raw)) {t : B.Tally}
      {l : List (String × String × B.Raw)}, t.Counts key l →
        (rooms.foldl (fun t room =>
          room.2.entries.foldl (fun t s => t.entry key room.1 s.1 s.2) t) t).Counts key
            (l ++ rooms.flatMap fun room => room.2.entries.map fun s => (room.1, s.1, s.2)) := by
    intro rooms
    induction rooms with
    | nil =>
      intro t l h
      rw [List.flatMap_nil, List.append_nil]
      exact h
    | cons room rooms ih =>
      intro t l h
      have hnext := ih (Tally.Counts.room room.1 room.2.entries h)
      rw [List.append_assoc] at hnext
      exact hnext
  exact hrooms downloaded.entries (t := {}) (l := []) ⟨rfl, rfl, rfl⟩

/-- The two tests after the loop, said of the entries. -/
theorem tried_pos_iff (key : B.Key) {downloaded : OrdMap String (OrdMap String B.Raw)} :
    0 < (B.tally key downloaded).tried ↔ ∃ e ∈ B.entries downloaded, B.parses e = true := by
  rw [(counts_tally key downloaded).tried, ← List.countP_pos_iff]
  omega

theorem offered_pos_iff {key : B.Key} {downloaded : OrdMap String (OrdMap String B.Raw)} :
    0 < (B.tally key downloaded).offered ↔ B.entries downloaded ≠ [] := by
  rw [(counts_tally key downloaded).offered, ← List.length_pos_iff]
  omega

/-- An entry that decrypts was parsed. -/
theorem parses_of_opens {key : B.Key} {e : String × String × B.Raw}
    {k : ExportedRoomKey B.BackedUpRoomKey} (h : B.opens key e = some k) : B.parses e = true := by
  obtain ⟨roomKey, hopen, -⟩ := Option.map_eq_some_iff.mp h
  obtain ⟨data, hparse, -⟩ := Option.bind_eq_some_iff.mp hopen
  rw [parses, hparse]
  rfl

/-- A key is filed where its entry was. -/
theorem filed_of_opens {key : B.Key} {e : String × String × B.Raw}
    {k : ExportedRoomKey B.BackedUpRoomKey} (h : B.opens key e = some k) :
    k.roomId = e.1 ∧ k.sessionId = e.2.1 := by
  obtain ⟨roomKey, -, rfl⟩ := Option.map_eq_some_iff.mp h
  exact ⟨rfl, rfl⟩

end loop

/-! ### What the call comes to -/

/-- The arguments are taken: the version, the key and the body all read. -/
structure Reads (restoreKey version : String) (keys : B.Raw) (key : B.Key)
    (downloaded : OrdMap String (OrdMap String B.Raw)) : Prop where
  version_ne : version ≠ ""
  fromBase58 : B.fromBase58 restoreKey = some key
  backedUpKeys : B.backedUpKeys keys = some downloaded

/-- What a body that was read comes to. -/
inductive Comes (key : B.Key) (downloaded : OrdMap String (OrdMap String B.Raw)) (version : String)
    (machine : Option (List (ExportedRoomKey B.BackedUpRoomKey) → String → Except Unit ℕ)) :
    Except RestoreError BackupImport × List (ExportedRoomKey B.BackedUpRoomKey) → Prop
  | wrongKey (hparsed : ∃ e ∈ B.entries downloaded, B.parses e = true)
      (hnone : B.opened key downloaded = []) :
    Comes key downloaded version machine (.error .wrongKey, [])
  | damaged (hentries : B.entries downloaded ≠ [])
      (hnone : ∀ e ∈ B.entries downloaded, B.parses e = false) :
    Comes key downloaded version machine (.error .malformedPayload, [])
  | imports (hgo : B.entries downloaded = [] ∨ B.opened key downloaded ≠ []) :
    Comes key downloaded version machine
      (B.importRoomKeys version (B.tally key downloaded) machine)

section outcome

variable {B} {restoreKey version : String} {keys : B.Raw}
  {machine : Option (List (ExportedRoomKey B.BackedUpRoomKey) → String → Except Unit ℕ)}

/-- Arguments read in one way. -/
theorem Reads.unique {key key' : B.Key} {d d' : OrdMap String (OrdMap String B.Raw)}
    (h : B.Reads restoreKey version keys key d) (h' : B.Reads restoreKey version keys key' d') :
    key = key' ∧ d = d' :=
  ⟨Option.some.inj (h.fromBase58.symm.trans h'.fromBase58),
    Option.some.inj (h.backedUpKeys.symm.trans h'.backedUpKeys)⟩

/-- What is left when neither test after the loop refuses. -/
theorem empty_or_opened {key : B.Key} {d : OrdMap String (OrdMap String B.Raw)}
    (hwrong : ¬ (0 < (B.tally key d).tried ∧ (B.tally key d).decrypted = []))
    (hdamaged : ¬ (0 < (B.tally key d).offered ∧ (B.tally key d).tried = 0)) :
    B.entries d = [] ∨ B.opened key d ≠ [] := by
  by_cases hentries : B.entries d = []
  · exact Or.inl hentries
  · refine Or.inr fun hnone => hwrong ⟨?_, ?_⟩
    · have htried : (B.tally key d).tried ≠ 0 := fun hzero =>
        hdamaged ⟨offered_pos_iff.mpr hentries, hzero⟩
      omega
    · rw [(counts_tally key d).decrypted]
      exact hnone

variable (machine) in
/-- **What a body that was read comes to.** -/
theorem Reads.comes {key : B.Key} {d : OrdMap String (OrdMap String B.Raw)}
    (h : B.Reads restoreKey version keys key d) :
    B.Comes key d version machine (B.restoreBackup restoreKey version keys machine) := by
  have hcounts := counts_tally key d
  unfold restoreBackup
  rw [if_neg h.version_ne, h.fromBase58]
  dsimp only
  rw [h.backedUpKeys]
  dsimp only
  split
  · next hwrong =>
    exact .wrongKey ((tried_pos_iff key).mp hwrong.1) (hcounts.decrypted.symm.trans hwrong.2)
  · next hwrong =>
    split
    · next hdamaged =>
      refine .damaged (offered_pos_iff.mp hdamaged.1) fun e he => ?_
      cases hparse : B.parses e with
      | false => rfl
      | true =>
        have hpos := (tried_pos_iff key).mpr ⟨e, he, hparse⟩
        omega
    · next hdamaged => exact .imports (empty_or_opened hwrong hdamaged)

variable (restoreKey version keys machine) in
/-- **What a call refuses before it looks at an entry.** -/
theorem reads_or_refused : (∃ key d, B.Reads restoreKey version keys key d) ∨
    B.restoreBackup restoreKey version keys machine =
      (.error (.backup .malformedIdentifier), []) ∨
    (version ≠ "" ∧ (∃ key, B.fromBase58 restoreKey = some key) ∧ B.backedUpKeys keys = none) ∧
      B.restoreBackup restoreKey version keys machine = (.error .malformedPayload, []) := by
  unfold restoreBackup
  by_cases hversion : version = ""
  · rw [if_pos hversion]
    exact Or.inr (Or.inl rfl)
  · rw [if_neg hversion]
    cases hkey : B.fromBase58 restoreKey with
    | none => exact Or.inr (Or.inl rfl)
    | some key =>
      cases hbody : B.backedUpKeys keys with
      | none => exact Or.inr (Or.inr ⟨⟨hversion, ⟨key, rfl⟩, rfl⟩, rfl⟩)
      | some d => exact Or.inl ⟨key, d, hversion, hkey, hbody⟩

variable (machine) in
/-- What an import comes to: the keys it was given, or none. -/
theorem importRoomKeys_cases (version : String) (t : B.Tally) :
    (machine = none ∧
        B.importRoomKeys version t machine = (.error (.backup .notInitialised), [])) ∨
      B.importRoomKeys version t machine = (.error (.backup .failed), []) ∨
      ∃ n, B.importRoomKeys version t machine = (.ok ⟨t.offered, n % 2 ^ 32⟩, t.decrypted) := by
  unfold importRoomKeys
  cases machine with
  | none => exact Or.inl ⟨rfl, rfl⟩
  | some store =>
    dsimp only
    cases store t.decrypted version with
    | error e => exact Or.inr (Or.inl rfl)
    | ok n => exact Or.inr (Or.inr ⟨n, rfl⟩)

/-- An import fails for want of a machine, or in the store. -/
theorem importRoomKeys_error {version : String} {t : B.Tally} {e : RestoreError}
    (h : (B.importRoomKeys version t machine).1 = .error e) :
    e = .backup .notInitialised ∨ e = .backup .failed := by
  rcases importRoomKeys_cases machine version t with
    ⟨-, himport⟩ | himport | ⟨n, himport⟩
  · rw [himport] at h
    exact Or.inl (Except.error.inj h).symm
  · rw [himport] at h
    exact Or.inr (Except.error.inj h).symm
  · rw [himport] at h
    cases h

/-- **`WrongKey`, exactly**: an entry parsed, and none decrypts. -/
theorem restoreBackup_wrongKey_iff :
    (B.restoreBackup restoreKey version keys machine).1 = .error .wrongKey ↔
      ∃ key downloaded, B.Reads restoreKey version keys key downloaded ∧
        (∃ e ∈ B.entries downloaded, B.parses e = true) ∧
          ∀ e ∈ B.entries downloaded, B.opens key e = none := by
  constructor
  · intro hwrong
    rcases reads_or_refused restoreKey version keys machine with
      ⟨key, d, hread⟩ | hrefused | ⟨-, hrefused⟩
    · have hcomes := hread.comes machine
      generalize B.restoreBackup restoreKey version keys machine = r at hcomes hwrong
      cases hcomes with
      | wrongKey hparsed hnone =>
        exact ⟨key, d, hread, hparsed, List.filterMap_eq_nil_iff.mp hnone⟩
      | damaged hentries hnone => cases hwrong
      | imports hgo =>
        rcases importRoomKeys_error hwrong with he | he <;> cases he
    · rw [hrefused] at hwrong
      cases hwrong
    · rw [hrefused] at hwrong
      cases hwrong
  · rintro ⟨key, d, hread, ⟨e, he, hparse⟩, hnone⟩
    have hopened : B.opened key d = [] := List.filterMap_eq_nil_iff.mpr hnone
    have hcomes := hread.comes machine
    generalize B.restoreBackup restoreKey version keys machine = r at hcomes ⊢
    cases hcomes with
    | wrongKey hparsed hnone => rfl
    | damaged hentries hunread =>
      rw [hunread e he] at hparse
      cases hparse
    | imports hgo =>
      rcases hgo with hgo | hgo
      · exact absurd hgo (List.ne_nil_of_mem he)
      · exact absurd hopened hgo

/-- **`MalformedPayload`, exactly**: the body was not read, or there are entries and
none of them parsed. -/
theorem restoreBackup_malformedPayload_iff :
    (B.restoreBackup restoreKey version keys machine).1 = .error .malformedPayload ↔
      (version ≠ "" ∧ (∃ key, B.fromBase58 restoreKey = some key) ∧ B.backedUpKeys keys = none) ∨
        ∃ key downloaded, B.Reads restoreKey version keys key downloaded ∧
          B.entries downloaded ≠ [] ∧ ∀ e ∈ B.entries downloaded, B.parses e = false := by
  have hrefusals := reads_or_refused restoreKey version keys machine
  constructor
  · intro hdamaged
    rcases hrefusals with ⟨key, d, hread⟩ | hrefused | ⟨hbody, -⟩
    · have hcomes := hread.comes machine
      generalize B.restoreBackup restoreKey version keys machine = r at hcomes hdamaged
      cases hcomes with
      | wrongKey hparsed hnone => cases hdamaged
      | damaged hentries hnone => exact Or.inr ⟨key, d, hread, hentries, hnone⟩
      | imports hgo =>
        rcases importRoomKeys_error hdamaged with he | he <;> cases he
    · rw [hrefused] at hdamaged
      cases hdamaged
    · exact Or.inl hbody
  · rintro (⟨hversion, ⟨key, hkey⟩, hbody⟩ | ⟨key, d, hread, hentries, hnone⟩)
    · unfold restoreBackup
      rw [if_neg hversion, hkey]
      dsimp only
      rw [hbody]
    · have hcomes := hread.comes machine
      generalize B.restoreBackup restoreKey version keys machine = r at hcomes ⊢
      cases hcomes with
      | wrongKey hparsed _ =>
        obtain ⟨e, he, hparse⟩ := hparsed
        rw [hnone e he] at hparse
        cases hparse
      | damaged hentries hunread => rfl
      | imports hgo =>
        rcases hgo with hgo | hgo
        · exact absurd hgo hentries
        · obtain ⟨k, hk⟩ := List.exists_mem_of_ne_nil _ hgo
          obtain ⟨e, he, hopen⟩ := List.mem_filterMap.mp hk
          have hparse := parses_of_opens hopen
          rw [hnone e he] at hparse
          cases hparse

variable (restoreKey version keys machine) in
/-- **What is imported**: nothing by a call that fails, and otherwise what the body
decrypts to. -/
theorem restoreBackup_imported :
    (∃ e, B.restoreBackup restoreKey version keys machine = (.error e, [])) ∨
      ∃ key d n, B.Reads restoreKey version keys key d ∧ machine ≠ none ∧
        B.restoreBackup restoreKey version keys machine =
          (.ok ⟨min (B.entries d).length (2 ^ 32 - 1), n % 2 ^ 32⟩, B.opened key d) := by
  rcases reads_or_refused restoreKey version keys machine with
    ⟨key, d, hread⟩ | hrefused | ⟨-, hrefused⟩
  · have hcomes := hread.comes machine
    generalize B.restoreBackup restoreKey version keys machine = r at hcomes ⊢
    cases hcomes with
    | wrongKey hparsed hnone => exact Or.inl ⟨_, rfl⟩
    | damaged hentries hnone => exact Or.inl ⟨_, rfl⟩
    | imports hgo =>
      rcases importRoomKeys_cases machine version (B.tally key d) with
        ⟨-, himport⟩ | himport | ⟨n, himport⟩
      · exact Or.inl ⟨_, himport⟩
      · exact Or.inl ⟨_, himport⟩
      · have hmachine : machine ≠ none := by
          intro hnone
          rw [hnone] at himport
          cases himport
        rw [(counts_tally key d).offered, (counts_tally key d).decrypted] at himport
        exact Or.inr ⟨key, d, n, hread, hmachine, himport⟩
  · exact Or.inl ⟨_, hrefused⟩
  · exact Or.inl ⟨_, hrefused⟩

/-- What is imported was decrypted, on a machine. -/
theorem opened_of_imported {k : ExportedRoomKey B.BackedUpRoomKey}
    (hk : k ∈ (B.restoreBackup restoreKey version keys machine).2) :
    ∃ key d, B.Reads restoreKey version keys key d ∧ machine ≠ none ∧ k ∈ B.opened key d := by
  rcases restoreBackup_imported restoreKey version keys machine with
    ⟨e, hrefused⟩ | ⟨key, d, n, hread, hmachine, htaken⟩
  · rw [hrefused] at hk
    cases hk
  · rw [htaken] at hk
    exact ⟨key, d, hread, hmachine, hk⟩

/-- **A body that decrypts to a key imports it**, unless the store fails. -/
theorem imported_of_opened {key : B.Key} {d : OrdMap String (OrdMap String B.Raw)}
    {k : ExportedRoomKey B.BackedUpRoomKey} (hread : B.Reads restoreKey version keys key d)
    (hmachine : machine ≠ none) (hk : k ∈ B.opened key d) :
    k ∈ (B.restoreBackup restoreKey version keys machine).2 ∨
      (B.restoreBackup restoreKey version keys machine).1 = .error (.backup .failed) := by
  obtain ⟨e, he, hopen⟩ := List.mem_filterMap.mp hk
  have hcomes := hread.comes machine
  generalize B.restoreBackup restoreKey version keys machine = r at hcomes ⊢
  cases hcomes with
  | wrongKey hparsed hnone =>
    rw [hnone] at hk
    cases hk
  | damaged hentries hnone =>
    have hparse := parses_of_opens hopen
    rw [hnone e he] at hparse
    cases hparse
  | imports hgo =>
    rcases importRoomKeys_cases machine version (B.tally key d) with
      ⟨hnone, -⟩ | himport | ⟨n, himport⟩
    · exact absurd hnone hmachine
    · rw [himport]
      exact Or.inr rfl
    · rw [himport, (counts_tally key d).decrypted]
      exact Or.inl hk

end outcome

/-! ### Two bodies that differ in one place -/

/-- Two bodies whose `rooms` differ in the value of one room. -/
def ApartInRoom (body body' : B.Raw) (room : String) (value value' : B.Raw) : Prop :=
  ∃ front back, B.mapField "rooms" body = some (front ++ (room, value) :: back) ∧
    B.mapField "rooms" body' = some (front ++ (room, value') :: back)

/-- Two bodies whose `rooms` differ in one entry of one room. -/
def ApartInSession (body body' : B.Raw) (room session : String) : Prop :=
  ∃ value value', B.ApartInRoom body body' room value value' ∧ ∃ front back entry entry',
    B.mapField "sessions" value = some (front ++ (session, entry) :: back) ∧
      B.mapField "sessions" value' = some (front ++ (session, entry') :: back)

section apart

variable {B} {body body' value value' : B.Raw} {room : String}

/-- A body that differs in one room is read with that room, or not at all. -/
theorem mapM_readRoom_apart {front back : List (String × B.Raw)}
    {rooms : List (String × OrdMap String B.Raw)}
    (h : (front ++ (room, value) :: back).mapM B.readRoom = some rooms) :
    ∃ front' back' sessions, rooms = front' ++ (room, sessions) :: back' ∧
      B.roomKeyBackup value = some sessions ∧
        ∀ {sessions'}, B.roomKeyBackup value' = some sessions' →
          (front ++ (room, value') :: back).mapM B.readRoom =
            some (front' ++ (room, sessions') :: back') := by
  rw [List.mapM_append] at h
  simp only [List.mapM_cons, Option.bind_eq_bind, Option.bind_eq_some_iff, Option.pure_def,
    Option.some.injEq] at h
  obtain ⟨front', hfront, rest, ⟨r, hr, back', hback, rfl⟩, rfl⟩ := h
  unfold readRoom at hr
  by_cases hid : B.isRoomId room = true
  · rw [if_pos hid] at hr
    obtain ⟨sessions, hsessions, rfl⟩ := Option.map_eq_some_iff.mp hr
    refine ⟨front', back', sessions, rfl, hsessions, fun {sessions'} hsessions' => ?_⟩
    have hroom : B.readRoom (room, value') = some (room, sessions') := by
      rw [readRoom, if_pos hid, hsessions', Option.map_some]
    rw [List.mapM_append]
    simp [hfront, hback, hroom]
  · rw [if_neg hid] at hr
    cases hr

/-- **What two bodies that differ in one room are read as.** -/
theorem backedUpKeys_apart {d : OrdMap String (OrdMap String B.Raw)}
    {sessions' : OrdMap String B.Raw} (hapart : B.ApartInRoom body body' room value value')
    (hd : B.backedUpKeys body = some d) (hvalue' : B.roomKeyBackup value' = some sessions') :
    ∃ sessions d', B.roomKeyBackup value = some sessions ∧ B.backedUpKeys body' = some d' ∧
      ∀ room', d.get? room' = d'.get? room' ∨
        room' = room ∧ d.get? room' = some sessions ∧ d'.get? room' = some sessions' := by
  obtain ⟨front, back, hrooms, hrooms'⟩ := hapart
  unfold backedUpKeys at hd ⊢
  rw [hrooms, Option.bind_some] at hd
  obtain ⟨rooms, hread, rfl⟩ := Option.map_eq_some_iff.mp hd
  obtain ⟨front', back', sessions, rfl, hvalue, hother⟩ := mapM_readRoom_apart hread
  refine ⟨sessions, OrdMap.ofList (front' ++ (room, sessions') :: back'), hvalue, ?_, ?_⟩
  · rw [hrooms', Option.bind_some, hother hvalue', Option.map_some]
  · intro room'
    exact OrdMap.get?_ofList_apart front' back' room room' sessions sessions'

/-- A key that one body decrypts to out of an entry that the other has too. -/
theorem opened_of_entry {key : B.Key} {d d' : OrdMap String (OrdMap String B.Raw)}
    {k : ExportedRoomKey B.BackedUpRoomKey} (h : k ∈ B.opened key d)
    (hsame : ∀ entry, (k.roomId, k.sessionId, entry) ∈ B.entries d →
      (k.roomId, k.sessionId, entry) ∈ B.entries d') : k ∈ B.opened key d' := by
  obtain ⟨⟨r, s, entry⟩, he, hopen⟩ := List.mem_filterMap.mp h
  obtain ⟨hr, hs⟩ := filed_of_opens hopen
  have hentry := hsame entry (by rw [hr, hs]; exact he)
  rw [hr, hs] at hentry
  exact List.mem_filterMap.mpr ⟨_, hentry, hopen⟩

variable {restoreKey version : String}
  {machine : Option (List (ExportedRoomKey B.BackedUpRoomKey) → String → Except Unit ℕ)}

/-- What is imported of one body and stands in the other is imported of it. -/
theorem imported_of_same {k : ExportedRoomKey B.BackedUpRoomKey}
    {d' : OrdMap String (OrdMap String B.Raw)}
    (hk : k ∈ (B.restoreBackup restoreKey version body machine).2)
    (hd' : B.backedUpKeys body' = some d')
    (hsame : ∀ d, B.backedUpKeys body = some d → ∀ entry,
      (k.roomId, k.sessionId, entry) ∈ B.entries d →
        (k.roomId, k.sessionId, entry) ∈ B.entries d') :
    k ∈ (B.restoreBackup restoreKey version body' machine).2 ∨
      (B.restoreBackup restoreKey version body' machine).1 = .error (.backup .failed) := by
  obtain ⟨key, d, hread, hmachine, hopened⟩ := opened_of_imported hk
  have hread' : B.Reads restoreKey version body' key d' :=
    ⟨hread.version_ne, hread.fromBase58, hd'⟩
  exact imported_of_opened hread' hmachine
    (opened_of_entry hopened (hsame d hread.backedUpKeys))

/-- The bodies differ in a room: every key of another room. -/
theorem imported_of_apartInRoom {k : ExportedRoomKey B.BackedUpRoomKey}
    (hapart : B.ApartInRoom body body' room value value')
    (hvalue' : (B.roomKeyBackup value').isSome)
    (hk : k ∈ (B.restoreBackup restoreKey version body machine).2) (hother : k.roomId ≠ room) :
    k ∈ (B.restoreBackup restoreKey version body' machine).2 ∨
      (B.restoreBackup restoreKey version body' machine).1 = .error (.backup .failed) := by
  obtain ⟨sessions', hsessions'⟩ := Option.isSome_iff_exists.mp hvalue'
  obtain ⟨key, d, hread, -⟩ := opened_of_imported hk
  obtain ⟨_, d', -, hd', hrooms⟩ := backedUpKeys_apart hapart hread.backedUpKeys hsessions'
  apply imported_of_same hk hd'
  intro d₀ hd₀ entry he
  obtain rfl : d = d₀ := Option.some.inj (hread.backedUpKeys.symm.trans hd₀)
  obtain ⟨sessions, hroom, hentry⟩ := mem_entries.mp he
  rcases hrooms k.roomId with hsame | ⟨hroom', -⟩
  · exact mem_entries.mpr ⟨sessions, hsame.symm.trans hroom, hentry⟩
  · exact absurd hroom' hother

/-- The bodies differ in an entry: every key of another entry. -/
theorem imported_of_apartInSession {k : ExportedRoomKey B.BackedUpRoomKey} {session : String}
    (hapart : B.ApartInSession body body' room session)
    (hk : k ∈ (B.restoreBackup restoreKey version body machine).2)
    (hother : ¬ (k.roomId = room ∧ k.sessionId = session)) :
    k ∈ (B.restoreBackup restoreKey version body' machine).2 ∨
      (B.restoreBackup restoreKey version body' machine).1 = .error (.backup .failed) := by
  obtain ⟨value, value', hrooms, front, back, entry, entry', hvalue, hvalue'⟩ := hapart
  have hsessions' : B.roomKeyBackup value' =
      some (OrdMap.ofList (front ++ (session, entry') :: back)) := by
    rw [roomKeyBackup, hvalue', Option.map_some]
  obtain ⟨key, d, hread, -⟩ := opened_of_imported hk
  obtain ⟨sessions, d', hsessions, hd', hget⟩ :=
    backedUpKeys_apart hrooms hread.backedUpKeys hsessions'
  rw [roomKeyBackup, hvalue, Option.map_some, Option.some.injEq] at hsessions
  apply imported_of_same hk hd'
  intro d₀ hd₀ raw he
  obtain rfl : d = d₀ := Option.some.inj (hread.backedUpKeys.symm.trans hd₀)
  obtain ⟨found, hroom, hentry⟩ := mem_entries.mp he
  rcases hget k.roomId with hsame | ⟨hroom', hthis, hthis'⟩
  · exact mem_entries.mpr ⟨found, hsame.symm.trans hroom, hentry⟩
  · -- the room that differs: there the other sessions agree
    rw [hroom, Option.some.injEq] at hthis
    rw [hthis, ← hsessions] at hentry
    refine mem_entries.mpr ⟨_, hthis', ?_⟩
    rcases OrdMap.get?_ofList_apart front back session k.sessionId entry entry' with
      hagree | ⟨hsession, -⟩
    · exact hagree.symm.trans hentry
    · exact absurd ⟨hroom', hsession⟩ hother

end apart

/-! ### A damaged entry -/

/-- What a restore makes of damage, and of every body. -/
structure CostsItself (restoreKey version : String)
    (machine : Option (List (ExportedRoomKey B.BackedUpRoomKey) → String → Except Unit ℕ)) :
    Prop where
  /-- Another value for one room, of which entries can be read. -/
  otherRooms : ∀ body body' room value value', B.ApartInRoom body body' room value value' →
    (B.roomKeyBackup value').isSome → ∀ k ∈ (B.restoreBackup restoreKey version body machine).2,
      k.roomId ≠ room → k ∈ (B.restoreBackup restoreKey version body' machine).2 ∨
        (B.restoreBackup restoreKey version body' machine).1 = .error (.backup .failed)
  /-- Another value for one entry, whatever it is. -/
  otherEntries : ∀ body body' room session, B.ApartInSession body body' room session →
    ∀ k ∈ (B.restoreBackup restoreKey version body machine).2,
      ¬ (k.roomId = room ∧ k.sessionId = session) →
        k ∈ (B.restoreBackup restoreKey version body' machine).2 ∨
          (B.restoreBackup restoreKey version body' machine).1 = .error (.backup .failed)
  /-- Every imported key is what the entry it is filed under decrypts to. -/
  filed : ∀ body, ∀ k ∈ (B.restoreBackup restoreKey version body machine).2, ∃ key d entry,
    B.Reads restoreKey version body key d ∧ (k.roomId, k.sessionId, entry) ∈ B.entries d ∧
      (B.deserialize entry).bind (B.decryptSessionData key) = some k.roomKey
  wrongKey : ∀ body, (B.restoreBackup restoreKey version body machine).1 = .error .wrongKey ↔
    ∃ key d, B.Reads restoreKey version body key d ∧
      (∃ e ∈ B.entries d, B.parses e = true) ∧ ∀ e ∈ B.entries d, B.opens key e = none
  malformedPayload : ∀ body,
    (B.restoreBackup restoreKey version body machine).1 = .error .malformedPayload ↔
      (version ≠ "" ∧ (∃ key, B.fromBase58 restoreKey = some key) ∧ B.backedUpKeys body = none) ∨
        ∃ key d, B.Reads restoreKey version body key d ∧ B.entries d ≠ [] ∧
          ∀ e ∈ B.entries d, B.parses e = false
  /-- A body without entries, on a machine whose store takes an import of nothing. -/
  empty : ∀ body key d store, B.Reads restoreKey version body key d → B.entries d = [] →
    machine = some store → store [] version = .ok 0 →
      B.restoreBackup restoreKey version body machine = (.ok ⟨0, 0⟩, [])
  refused : ∀ body e, (B.restoreBackup restoreKey version body machine).1 = .error e →
    (B.restoreBackup restoreKey version body machine).2 = []

/-- **A damaged entry costs itself**, for every key, version, body and machine. -/
theorem restore_costs_itself (restoreKey version : String)
    (machine : Option (List (ExportedRoomKey B.BackedUpRoomKey) → String → Except Unit ℕ)) :
    B.CostsItself restoreKey version machine where
  otherRooms := by
    intro body body' room value value' hapart hvalue' k hk hother
    exact imported_of_apartInRoom hapart hvalue' hk hother
  otherEntries := by
    intro body body' room session hapart k hk hother
    exact imported_of_apartInSession hapart hk hother
  filed := by
    intro body k hk
    obtain ⟨key, d, hread, -, hopened⟩ := opened_of_imported hk
    obtain ⟨⟨room, session, entry⟩, he, hopen⟩ := List.mem_filterMap.mp hopened
    obtain ⟨roomKey, hdecrypt, rfl⟩ := Option.map_eq_some_iff.mp hopen
    exact ⟨key, d, entry, hread, he, hdecrypt⟩
  wrongKey := fun _ => restoreBackup_wrongKey_iff
  malformedPayload := fun _ => restoreBackup_malformedPayload_iff
  empty := by
    intro body key d store hread hentries hmachine hstore
    have hcounts := counts_tally key d
    rw [hentries] at hcounts
    have hcomes := hread.comes machine
    generalize B.restoreBackup restoreKey version body machine = r at hcomes ⊢
    cases hcomes with
    | wrongKey hparsed hnone =>
      obtain ⟨e, he, -⟩ := hparsed
      rw [hentries] at he
      cases he
    | damaged hne hnone => exact absurd hentries hne
    | imports hgo =>
      have hoffered : (B.tally key d).offered = 0 := hcounts.offered
      have hdecrypted : (B.tally key d).decrypted = [] := hcounts.decrypted
      unfold importRoomKeys
      rw [hmachine]
      dsimp only
      rw [hdecrypted, hstore, hoffered]
      rfl
  refused := by
    intro body e he
    rcases restoreBackup_imported restoreKey version body machine with
      ⟨e', hrefused⟩ | ⟨key, d, n, -, -, htaken⟩
    · rw [hrefused]
    · rw [htaken] at he
      cases he

end KeyBackup

/-! ### A damaged room

Texts that are the values they denote, and entries that name the key that opens
them. -/

/-- A backup that hides nothing. -/
def plainBackup : KeyBackup where
  Raw := Json
  Key := String
  KeyBackupData := String × String
  BackedUpRoomKey := String
  object := Json.asObject?
  array := fun
    | .arr values => some values
    | _ => none
  isRoomId := fun name => name.toList.head? == some '!'
  fromBase58 := fun s => if s = "" then none else some s
  deserialize := fun entry => do
    let data ← entry.field? "session_data"
    let ephemeral ← data.field? "ephemeral"
    let ciphertext ← data.field? "ciphertext"
    return (← ephemeral.asStr?, ← ciphertext.asStr?)
  decryptSessionData := fun key data => if data.1 = key then some data.2 else none

/-- A store that takes what it is given. -/
def takesAll (keys : List (ExportedRoomKey String)) (_ : String) : Except Unit ℕ :=
  .ok keys.length

/-- A room of one session, sealed to the key `EsT`. -/
def sealedRoom (session : String) : Json :=
  .obj [("sessions", .obj [(session, .obj [("session_data",
    .obj [("ephemeral", .str "EsT"), ("ciphertext", .str "AAAA")])])])]

/-- A body of two rooms, the second with some value. -/
def twoRooms (value : Json) : Json :=
  .obj [("rooms", .obj [("!one:example.org", sealedRoom "s1"), ("!two:example.org", value)])]

/-- **A damaged room costs the body.**  The key of the other room is imported beside a
room that reads and not beside one that does not; a body without entries is refused for
its damaged room, and without a machine. -/
theorem damaged_room_costs_all :
    (plainBackup.ApartInRoom (twoRooms (sealedRoom "s2")) (twoRooms (.num 3 0))
        "!two:example.org" (sealedRoom "s2") (.num 3 0) ∧
      ⟨"!one:example.org", "s1", "AAAA"⟩ ∈
        (plainBackup.restoreBackup "EsT" "1" (twoRooms (sealedRoom "s2")) (some takesAll)).2 ∧
      plainBackup.restoreBackup "EsT" "1" (twoRooms (.num 3 0)) (some takesAll) =
        (.error .malformedPayload, [])) ∧
    plainBackup.restoreBackup "EsT" "1"
        (.obj [("rooms", .obj [("!two:example.org", .num 3 0)])]) (some takesAll) =
      (.error .malformedPayload, []) ∧
    plainBackup.restoreBackup "EsT" "1" (.obj [("rooms", .obj [])]) none =
      (.error (.backup .notInitialised), []) := by
  refine ⟨⟨⟨[("!one:example.org", sealedRoom "s1")], [], rfl, rfl⟩, ?_, ?_⟩, ?_, ?_⟩
  · have hread : plainBackup.restoreBackup "EsT" "1" (twoRooms (sealedRoom "s2")) (some takesAll) =
        (.ok ⟨2, 2⟩, [⟨"!one:example.org", "s1", "AAAA"⟩, ⟨"!two:example.org", "s2", "AAAA"⟩]) :=
      rfl
    rw [hread]
    exact List.mem_cons_self
  · rfl
  · rfl
  · rfl

end MatrixCrypto
