import MatrixCrypto.Backup.Setup
import MatrixCrypto.Lib.Transition

/-!
# From the device to the homeserver and back

A device backs up what it holds: versions are published and enabled, batches are built, uploaded
in any order and any number of times, and reported sent once the homeserver took them; keys
arrive at any moment, and the process restarts.  What the library then says of its progress is
what a restore can count on.

## Main definitions

* `Custody` — the device and the homeserver.
* `Custody.Builds`, `Put` — what upstream builds, and what the homeserver stores.
* `CustodyStep`, `custody` — the steps, in any order.
* `Custody.Keeping` — a version is enabled, or restored from, that the marks are about.
* `Custody.Safe` — the invariant.

## Main results

* `stored_of_backedUp` — a key marked as backed up is on the homeserver, sealed for its version.
* `restore_of_backedUp` — **a device that counts every key as backed up is restored whole**, in
  every run that keeps to the version of its marks.
* `marks_outlive_restart` — and not where another version is enabled after a restart.
-/

namespace MatrixCrypto

open Lib

variable (B : BackupKeys)

/-- The device, the homeserver, and what the product knows. -/
structure Custody where
  machine : BackupMachine B.PublicKey
  /-- The scope keys the device holds, by session. -/
  held : OrdMap String (ExportedRoomKey B.BackedUpRoomKey)
  /-- The version the marks are about: the last that was enabled. -/
  marked : Option String
  /-- The versions there are, each with the key in its description. -/
  published : List (String × B.PublicKey)
  /-- Every batch that was built, and so may be in the product's hands. -/
  built : List PendingBackup
  /-- Those that the homeserver took. -/
  accepted : List PendingBackup
  /-- What it stores of a version, a room and a session. -/
  server : String → String → String → Option B.Raw

/-- What happens, with what upstream answers. -/
inductive CustodyOp
  | publish (key : B.Key) (version : String)
  | enable (sealingKey version : String) (trip : Option (Reset × Bool))
  | disable (trip : Option Reset)
  | take (upstream : Except Unit (List UpstreamOutgoingRequest))
      (built : Except Unit (Option PendingBackup))
  | upload (batch : PendingBackup)
  | markSent (id : String)
  | arrive (k : ExportedRoomKey B.BackedUpRoomKey)
  /-- A restore imports one of its keys. -/
  | restore (version : String) (k : ExportedRoomKey B.BackedUpRoomKey)
  | restart

variable {B} (contents : KeysBackupRequest → List (String × String × B.Raw))

/-- A batch is sealed under a key where the private half opens all of it. -/
def BackupKeys.sealing (contents : KeysBackupRequest → List (String × String × B.Raw)) :
    Sealing B.PublicKey where
  fromBase64 := B.fromBase64
  sealedUnder := fun r key => ∀ e ∈ contents r, B.SealedFor key e.2.2

namespace Custody

/-- Before anything happened. -/
def initial : Custody B where
  machine := ⟨none, none, fun _ => false⟩
  held := .empty
  marked := none
  published := []
  built := []
  accepted := []
  server := fun _ _ _ => none

/-- What upstream builds: a batch for the enabled version, of keys the device holds, under an
id of its own. -/
structure Builds (s : Custody B) (built : Except Unit (Option PendingBackup)) : Prop where
  builds : s.machine.Builds (B.sealing contents) built
  covers : ∀ batch, built = .ok (some batch) → ∀ session ∈ batch.sessions, ∃ k raw,
    s.held.get? session = some k ∧ (k.roomId, session, raw) ∈ contents batch.request
  fresh : ∀ batch, built = .ok (some batch) → ∀ b ∈ s.built, b.requestId ≠ batch.requestId

/-- The homeserver takes a batch: it stores every key of it, unless it has a better copy. -/
structure Put (batch : PendingBackup) (server server' : String → String → String → Option B.Raw) :
    Prop where
  stored : ∀ e ∈ contents batch.request,
    (server' batch.request.version e.1 e.2.1).isSome = true
  kept : ∀ version room session, (server version room session).isSome = true →
    (server' version room session).isSome = true
  origin : ∀ version room session raw, server' version room session = some raw →
    server version room session = some raw ∨
      version = batch.request.version ∧ (room, session, raw) ∈ contents batch.request

/-- The process stops and starts: the key and the batch are in memory only. -/
def restarted (s : Custody B) : Custody B :=
  { s with machine := ⟨none, none, s.machine.backedUp⟩ }

/-- The device is handed a key, or a better copy of one. -/
def arrived (s : Custody B) (k : ExportedRoomKey B.BackedUpRoomKey) (backedUp : Bool) :
    Custody B :=
  { s with
    held := s.held.insert k.sessionId k
    machine :=
      { s.machine with
        backedUp := fun session =>
          if session = k.sessionId then backedUp else s.machine.backedUp session } }

/-- The version the marks are about after an enable. -/
def markedBy (s : Custody B) (version : String) : Except BackupError Unit → Option String
  | .ok _ => some version
  | .error _ => s.marked

/-- The room of a session stays what it is. -/
def Fits (s : Custody B) (k : ExportedRoomKey B.BackedUpRoomKey) : Prop :=
  ∀ old, s.held.get? k.sessionId = some old → old.roomId = k.roomId

end Custody

/-- One of them.  A product enables a version with the key it was published with, and reports sent
what the homeserver took; a store that is told to forget marks nothing; and a restore imports what
the homeserver stores of the version it names. -/
inductive CustodyStep (s : Custody B) : CustodyOp B → Custody B → Prop
  | publishes {key : B.Key} {version : String} (hversion : version ≠ "")
      (hnew : ∀ p ∈ s.published, p.1 ≠ version) :
      CustodyStep s (.publish key version)
        { s with published := s.published ++ [(version, B.megolmV1PublicKey key)] }
  | enables {sealingKey version : String} {trip : Option (Reset × Bool)}
      (hkey : ∀ key, B.fromBase64 sealingKey = some key → (version, key) ∈ s.published)
      (hmarks : ∀ x, (s.machine.enableBackup (B.sealing contents) sealingKey version
        trip).2.backedUp x = true → s.machine.backedUp x = true) :
      CustodyStep s (.enable sealingKey version trip)
        { s with
          machine := (s.machine.enableBackup (B.sealing contents) sealingKey version trip).2
          marked := s.markedBy version
            (s.machine.enableBackup (B.sealing contents) sealingKey version trip).1 }
  | disables {trip : Option Reset}
      (hmarks : ∀ x, (s.machine.disableBackup trip).2.backedUp x = true →
        s.machine.backedUp x = true) :
      CustodyStep s (.disable trip) { s with machine := (s.machine.disableBackup trip).2 }
  | takes {upstream : Except Unit (List UpstreamOutgoingRequest)}
      {built : Except Unit (Option PendingBackup)} (hbuilt : s.Builds contents built) :
      CustodyStep s (.take upstream built)
        { s with
          machine := (s.machine.offers upstream built).2
          built := s.built ++ (s.machine.offers upstream built).2.pendingBackup.toList }
  | uploads {batch : PendingBackup} {server : String → String → String → Option B.Raw}
      (hbatch : batch ∈ s.built) (hput : Custody.Put contents batch s.server server) :
      CustodyStep s (.upload batch)
        { s with server := server, accepted := s.accepted ++ [batch] }
  | marks {id : String} (hid : ∃ batch ∈ s.accepted, batch.requestId = id) :
      CustodyStep s (.markSent id)
        { s with machine := s.machine.markAsSent .roomKeyBackup id }
  | arrives {k : ExportedRoomKey B.BackedUpRoomKey} (hk : s.Fits k) :
      CustodyStep s (.arrive k) (s.arrived k false)
  | restores {version : String} {k : ExportedRoomKey B.BackedUpRoomKey} (hk : s.Fits k)
      (hserver : (s.server version k.roomId k.sessionId).isSome = true) :
      CustodyStep s (.restore version k) { s.arrived k true with marked := some version }
  | restarts : CustodyStep s .restart s.restarted

/-- Any of them, in any order. -/
def custody : TransitionSystem (Custody B) (CustodyOp B) where
  init := fun s => s = .initial
  step := fun s op t => CustodyStep contents s op t

namespace Custody

/-- The device keeps to the version its marks are about: no other is enabled while none is, as none
is after a restart, and no other is restored from. -/
structure Keeping (s : Custody B) (op : CustodyOp B) : Prop where
  enables : ∀ sealingKey version trip, op = .enable sealingKey version trip →
    s.machine.backupKey = none → (∃ x, s.machine.backedUp x = true) → s.marked = some version
  restores : ∀ version k, op = .restore version k →
    (∀ current, s.machine.backupVersion = some current → current = version) ∧
      ((∃ x, s.machine.backedUp x = true) → s.marked = some version)

/-! ### What every step keeps -/

/-- What every reachable state keeps. -/
structure Safe (s : Custody B) : Prop where
  published : ∀ version key key', (version, key) ∈ s.published → (version, key') ∈ s.published →
    key = key'
  /-- The enabled key is its version's, and the marks are about that version. -/
  enabled : ∀ key version, s.machine.backupKey = some (key, version) →
    (version, key) ∈ s.published ∧ s.marked = some version
  /-- The batch in flight was built, for the enabled version. -/
  pending : ∀ b, s.machine.pendingBackup = some b →
    b ∈ s.built ∧ s.machine.backupVersion = some b.request.version
  ids : ∀ b ∈ s.built, ∀ b' ∈ s.built, b.requestId = b'.requestId → b = b'
  sealedFor : ∀ b ∈ s.built, ∃ key, (b.request.version, key) ∈ s.published ∧
    ∀ e ∈ contents b.request, B.SealedFor key e.2.2
  /-- A batch carries a key of every session it is said to. -/
  covers : ∀ b ∈ s.built, ∀ session ∈ b.sessions, ∃ k raw, s.held.get? session = some k ∧
    (k.roomId, session, raw) ∈ contents b.request
  accepted : ∀ b ∈ s.accepted, b ∈ s.built ∧
    ∀ e ∈ contents b.request, (s.server b.request.version e.1 e.2.1).isSome = true
  server : ∀ version room session raw, s.server version room session = some raw →
    ∃ key, (version, key) ∈ s.published ∧ B.SealedFor key raw
  /-- What is marked is on the homeserver. -/
  marks : ∀ session, s.machine.backedUp session = true → ∃ version k, s.marked = some version ∧
    s.held.get? session = some k ∧ (s.server version k.roomId session).isSome = true
  filed : ∀ session k, s.held.get? session = some k → k.sessionId = session

variable {contents} {s t : Custody B} {op : CustodyOp B}

/-- A step that keeps to the version of the marks. -/
theorem keeping_step (h : CustodyStep contents s op t) (hkeeps : s.Keeping op) :
    ((custody contents).restrict Keeping).step s op t := ⟨hkeeps, h⟩

theorem safe_initial : Safe contents (initial : Custody B) where
  published := by simp [initial]
  enabled := by simp [initial]
  pending := by simp [initial]
  ids := by simp [initial]
  sealedFor := by simp [initial]
  covers := by simp [initial]
  accepted := by simp [initial]
  server := by simp [initial]
  marks := by simp [initial]
  filed := by simp [initial]

theorem Safe.publishes (h : s.Safe contents) (key : B.PublicKey) {version : String}
    (hnew : ∀ p ∈ s.published, p.1 ≠ version) :
    Safe contents { s with published := s.published ++ [(version, key)] } where
  published := by
    intro version' key' key'' hmem hmem'
    simp only [List.mem_append, List.mem_singleton, Prod.mk.injEq] at hmem hmem'
    rcases hmem with hmem | ⟨rfl, rfl⟩
    · rcases hmem' with hmem' | ⟨rfl, rfl⟩
      · exact h.published _ _ _ hmem hmem'
      · exact absurd rfl (hnew _ hmem)
    · rcases hmem' with hmem' | ⟨-, rfl⟩
      · exact absurd rfl (hnew _ hmem')
      · rfl
  enabled := by
    intro key' version' hkey
    obtain ⟨hmem, hmarked⟩ := h.enabled key' version' hkey
    exact ⟨List.mem_append_left _ hmem, hmarked⟩
  pending := h.pending
  ids := h.ids
  sealedFor := by
    intro b hb
    obtain ⟨key', hmem, hsealed⟩ := h.sealedFor b hb
    exact ⟨key', List.mem_append_left _ hmem, hsealed⟩
  covers := h.covers
  accepted := h.accepted
  server := by
    intro version' room session raw hraw
    obtain ⟨key', hmem, hsealed⟩ := h.server version' room session raw hraw
    exact ⟨key', List.mem_append_left _ hmem, hsealed⟩
  marks := h.marks
  filed := h.filed

/-- The machine changes, and nothing it does not say. -/
theorem Safe.of_machine (h : s.Safe contents) {m : BackupMachine B.PublicKey}
    {marked : Option String}
    (henabled : ∀ key version, m.backupKey = some (key, version) →
      (version, key) ∈ s.published ∧ marked = some version)
    (hpending : ∀ b, m.pendingBackup = some b →
      b ∈ s.built ∧ m.backupVersion = some b.request.version)
    (hmarks : ∀ x, m.backedUp x = true → s.machine.backedUp x = true ∧ marked = s.marked) :
    Safe contents { s with machine := m, marked := marked } where
  published := h.published
  enabled := henabled
  pending := hpending
  ids := h.ids
  sealedFor := h.sealedFor
  covers := h.covers
  accepted := h.accepted
  server := h.server
  marks := by
    intro session hsession
    obtain ⟨hold, hsame⟩ := hmarks session hsession
    obtain ⟨version, k, hmarked, hk, hserver⟩ := h.marks session hold
    exact ⟨version, k, hsame.trans hmarked, hk, hserver⟩
  filed := h.filed

/-- A machine with no backup enabled and none in flight. -/
theorem Safe.of_none (h : s.Safe contents) {m : BackupMachine B.PublicKey}
    (hkey : m.backupKey = none) (hpending : m.pendingBackup = none)
    (hmarks : ∀ x, m.backedUp x = true → s.machine.backedUp x = true) :
    Safe contents { s with machine := m } := by
  apply h.of_machine
  · intro key version hm
    rw [hkey] at hm
    cases hm
  · intro b hb
    rw [hpending] at hb
    cases hb
  · intro x hx
    exact ⟨hmarks x hx, rfl⟩

/-- **What an enable comes to**: the marks that are left are about the version enabled. -/
theorem Safe.enables (h : s.Safe contents) {sealingKey version : String}
    {out : Except BackupError Unit} {m : BackupMachine B.PublicKey}
    (hm : BackupMachine.Enables (B.sealing contents) s.machine sealingKey version out m)
    (hkey : ∀ key, B.fromBase64 sealingKey = some key → (version, key) ∈ s.published)
    (hmarked : s.machine.backupKey = none → (∃ x, s.machine.backedUp x = true) →
      s.marked = some version)
    (hmarks : ∀ x, m.backedUp x = true → s.machine.backedUp x = true) :
    Safe contents { s with
      machine := m
      marked := s.markedBy version out } := by
  cases hm with
  | fails e =>
    exact h.of_machine h.enabled h.pending fun x hx => ⟨hx, rfl⟩
  | empties e marks hcurrent hne => exact h.of_none rfl rfl hmarks
  | @moves key current hread hcurrent hne =>
    apply h.of_machine
    · intro key' version' heq
      obtain ⟨rfl, rfl⟩ := Prod.mk.inj (Option.some.inj heq)
      exact ⟨hkey key hread, rfl⟩
    · intro b hb
      cases hb
    · intro x hx
      cases hx
  | @writes key hread hstays =>
    apply h.of_machine
    · intro key' version' heq
      obtain ⟨rfl, rfl⟩ := Prod.mk.inj (Option.some.inj heq)
      exact ⟨hkey key hread, rfl⟩
    · intro b hb
      obtain ⟨hbuilt, hversion⟩ := h.pending b hb
      exact ⟨hbuilt, congrArg some (hstays _ hversion).symm⟩
    · intro x hx
      refine ⟨hx, ?_⟩
      -- the marks are about the version enabled before, or about this one
      cases hbackup : s.machine.backupKey with
      | none => exact (hmarked hbackup ⟨x, hx⟩).symm
      | some p =>
        obtain ⟨key', current⟩ := p
        have hcurrent : s.machine.backupVersion = some current := by
          simp [BackupMachine.backupVersion, hbackup]
        rw [(h.enabled key' current hbackup).2, hstays current hcurrent]
        rfl

/-- A batch is built, or the one in flight is asked for again. -/
theorem Safe.takes (h : s.Safe contents)
    {upstream : Except Unit (List UpstreamOutgoingRequest)}
    {built : Except Unit (Option PendingBackup)} (hbuilt : s.Builds contents built) :
    Safe contents { s with
      machine := (s.machine.offers upstream built).2
      built := s.built ++ (s.machine.offers upstream built).2.pendingBackup.toList } := by
  -- whatever is appended was in flight, and so built, or is built now
  rcases s.machine.offers_eq_or upstream built with heq | ⟨-, batch, hbatch, heq⟩
  · rw [heq]
    have hmem : ∀ b, b ∈ s.built ++ s.machine.pendingBackup.toList → b ∈ s.built := by
      intro b hb
      rcases List.mem_append.mp hb with hb | hb
      · exact hb
      · exact (h.pending b (Option.mem_toList.mp hb)).1
    exact
      { published := h.published
        enabled := h.enabled
        pending := fun b hb => ⟨List.mem_append_left _ (h.pending b hb).1, (h.pending b hb).2⟩
        ids := fun b hb b' hb' => h.ids b (hmem b hb) b' (hmem b' hb')
        sealedFor := fun b hb => h.sealedFor b (hmem b hb)
        covers := fun b hb => h.covers b (hmem b hb)
        accepted := fun b hb => ⟨List.mem_append_left _ (h.accepted b hb).1, (h.accepted b hb).2⟩
        server := h.server
        marks := h.marks
        filed := h.filed }
  · rw [heq]
    obtain ⟨key, hkey, hsealed⟩ := hbuilt.builds batch hbatch
    have hmem : ∀ b, b ∈ s.built ++ [batch] → b ∈ s.built ∨ b = batch := by
      intro b hb
      simpa using hb
    exact
      { published := h.published
        enabled := h.enabled
        pending := by
          intro b hb
          obtain rfl := Option.some.inj hb
          refine ⟨List.mem_append_right _ (List.mem_singleton_self _), ?_⟩
          simp [BackupMachine.backupVersion, hkey]
        ids := by
          intro b hb b' hb' hid
          rcases hmem b hb with hold | rfl
          · rcases hmem b' hb' with hold' | rfl
            · exact h.ids b hold b' hold' hid
            · exact absurd hid (hbuilt.fresh _ hbatch b hold)
          · rcases hmem b' hb' with hold' | rfl
            · exact absurd hid.symm (hbuilt.fresh _ hbatch b' hold')
            · rfl
        sealedFor := by
          intro b hb
          rcases hmem b hb with hold | rfl
          · exact h.sealedFor b hold
          · exact ⟨key, (h.enabled key _ hkey).1, hsealed⟩
        covers := by
          intro b hb
          rcases hmem b hb with hold | rfl
          · exact h.covers b hold
          · exact hbuilt.covers _ hbatch
        accepted := fun b hb => ⟨List.mem_append_left _ (h.accepted b hb).1, (h.accepted b hb).2⟩
        server := h.server
        marks := h.marks
        filed := h.filed }

theorem Safe.uploads (h : s.Safe contents) {batch : PendingBackup}
    {server : String → String → String → Option B.Raw} (hbatch : batch ∈ s.built)
    (hput : Put contents batch s.server server) :
    Safe contents { s with server := server, accepted := s.accepted ++ [batch] } where
  published := h.published
  enabled := h.enabled
  pending := h.pending
  ids := h.ids
  sealedFor := h.sealedFor
  covers := h.covers
  accepted := by
    intro b hb
    rcases List.mem_append.mp hb with hb | hb
    · obtain ⟨hbuilt, hstored⟩ := h.accepted b hb
      exact ⟨hbuilt, fun e he => hput.kept _ _ _ (hstored e he)⟩
    · obtain rfl := List.mem_singleton.mp hb
      exact ⟨hbatch, hput.stored⟩
  server := by
    intro version room session raw hraw
    rcases hput.origin version room session raw hraw with hold | ⟨rfl, hmem⟩
    · exact h.server version room session raw hold
    · obtain ⟨key, hkey, hsealed⟩ := h.sealedFor batch hbatch
      exact ⟨key, hkey, hsealed _ hmem⟩
  marks := by
    intro session hsession
    obtain ⟨version, k, hmarked, hk, hserver⟩ := h.marks session hsession
    exact ⟨version, k, hmarked, hk, hput.kept _ _ _ hserver⟩
  filed := h.filed

/-- **What is reported sent is on the homeserver**, for the version the marks are about. -/
theorem Safe.marksSent (h : s.Safe contents) {id : String}
    (hid : ∃ batch ∈ s.accepted, batch.requestId = id) :
    Safe contents { s with machine := s.machine.markAsSent .roomKeyBackup id } := by
  obtain ⟨batch, hbatch, rfl⟩ := hid
  obtain ⟨hbuilt, hstored⟩ := h.accepted batch hbatch
  unfold BackupMachine.markAsSent BackupMachine.markBackupAsSent
  rw [if_pos rfl]
  cases hpending : s.machine.pendingBackup with
  | none => exact h
  | some b =>
    simp only
    split
    · next hsame =>
      -- the batch that was taken is the one in flight
      obtain ⟨hb, hversion⟩ := h.pending b hpending
      obtain rfl := h.ids b hb batch hbuilt hsame
      have hmarked : s.marked = some b.request.version := by
        unfold BackupMachine.backupVersion at hversion
        obtain ⟨p, hp, hpversion⟩ := Option.map_eq_some_iff.mp hversion
        obtain ⟨key, version⟩ := p
        rw [(h.enabled key version hp).2, ← hpversion]
      exact
        { published := h.published
          enabled := h.enabled
          pending := by
            intro b' hb'
            cases hb'
          ids := h.ids
          sealedFor := h.sealedFor
          covers := h.covers
          accepted := h.accepted
          server := h.server
          marks := by
            intro session hsession
            simp only [Bool.or_eq_true, List.contains_iff_mem] at hsession
            rcases hsession with hsession | hsession
            · exact h.marks session hsession
            · obtain ⟨k, raw, hk, hmem⟩ := h.covers b hb session hsession
              exact ⟨_, k, hmarked, hk, hstored _ hmem⟩
          filed := h.filed }
    · exact h

/-- A key arrives, marked only where the homeserver has it. -/
theorem Safe.arrived (h : s.Safe contents) {k : ExportedRoomKey B.BackedUpRoomKey} (hk : s.Fits k)
    {backedUp : Bool} {marked : Option String}
    (hbackedUp : backedUp = true → ∃ version, marked = some version ∧
      (s.server version k.roomId k.sessionId).isSome = true)
    (hmarked : (∃ x, s.machine.backedUp x = true) → marked = s.marked)
    (henabled : ∀ key version, s.machine.backupKey = some (key, version) →
      marked = some version) :
    Safe contents { s.arrived k backedUp with marked := marked } where
  published := h.published
  enabled := by
    intro key version hkey
    exact ⟨(h.enabled key version hkey).1, henabled key version hkey⟩
  pending := h.pending
  ids := h.ids
  sealedFor := h.sealedFor
  covers := by
    intro b hb session hsession
    obtain ⟨k', raw, hk', hmem⟩ := h.covers b hb session hsession
    by_cases hsame : session = k.sessionId
    · subst hsame
      refine ⟨k, raw, OrdMap.get?_insert_self .., ?_⟩
      rw [← hk k' hk']
      exact hmem
    · exact ⟨k', raw, (OrdMap.get?_insert_of_ne _ _ hsame).trans hk', hmem⟩
  accepted := h.accepted
  server := h.server
  marks := by
    intro session hsession
    simp only [Custody.arrived] at hsession ⊢
    split at hsession
    · next hsame =>
      obtain ⟨version, hversion, hserver⟩ := hbackedUp hsession
      subst hsame
      exact ⟨version, k, hversion, OrdMap.get?_insert_self .., hserver⟩
    · next hne =>
      obtain ⟨version, k', hversion, hk', hserver⟩ := h.marks session hsession
      exact ⟨version, k', (hmarked ⟨session, hsession⟩).trans hversion,
        (OrdMap.get?_insert_of_ne _ _ hne).trans hk', hserver⟩
  filed := by
    intro session k' hk'
    simp only [Custody.arrived] at hk'
    rw [OrdMap.get?_insert] at hk'
    split at hk'
    · next hsame =>
      obtain rfl := Option.some.inj hk'
      exact hsame.symm
    · exact h.filed session k' hk'

theorem Safe.disables (h : s.Safe contents) {trip : Option Reset}
    (hmarks : ∀ x, (s.machine.disableBackup trip).2.backedUp x = true →
      s.machine.backedUp x = true) :
    Safe contents { s with machine := (s.machine.disableBackup trip).2 } := by
  rcases s.machine.disableBackup_eq_or trip with heq | ⟨hkey, hpending⟩
  · rw [heq]
    exact h
  · exact h.of_none hkey hpending hmarks

theorem Safe.step (h : s.Safe contents) (hkeeps : s.Keeping op)
    (hst : CustodyStep contents s op t) : t.Safe contents := by
  cases hst with
  | publishes hversion hnew => exact h.publishes _ hnew
  | enables hkey hmarks =>
    exact h.enables (s.machine.enables_enableBackup _ _ _ _) hkey (hkeeps.enables _ _ _ rfl) hmarks
  | disables hmarks => exact h.disables hmarks
  | takes hbuilt => exact h.takes hbuilt
  | uploads hbatch hput => exact h.uploads hbatch hput
  | marks hid => exact h.marksSent hid
  | arrives hk =>
    apply h.arrived hk
    · intro hfalse
      cases hfalse
    · intro _
      rfl
    · intro key version hkey
      exact (h.enabled key version hkey).2
  | @restores version k hk hserver =>
    obtain ⟨henabled, hmarked⟩ := hkeeps.restores version k rfl
    apply h.arrived hk
    · intro _
      exact ⟨version, rfl, hserver⟩
    · intro hmarks
      exact (hmarked hmarks).symm
    · intro key current hkey
      have hcurrent : s.machine.backupVersion = some current := by
        simp [BackupMachine.backupVersion, hkey]
      rw [henabled current hcurrent]
  | restarts => exact h.of_none rfl rfl fun _ hx => hx

theorem safe_of_reachable (h : ((custody contents).restrict Keeping).Reachable s) :
    s.Safe contents := by
  apply h.invariant (I := Safe contents)
  · intro s hs
    rw [hs]
    exact safe_initial
  · rintro s op t hs ⟨hkeeps, hst⟩
    exact hs.step hkeeps hst

/-! ### Restoring -/

/-- What the store counts of the marks. -/
def counts (s : Custody B) : RoomKeyCounts where
  total := s.held.entries.length
  backedUp := s.held.entries.countP fun e => s.machine.backedUp e.1

/-- A key that is marked is on the homeserver, under its room, sealed for the version the marks
are about. -/
theorem Safe.stored_of_backedUp (h : s.Safe contents) {session : String}
    {k : ExportedRoomKey B.BackedUpRoomKey} (hk : s.held.get? session = some k)
    (hmarked : s.machine.backedUp session = true) : ∃ version key raw,
      s.marked = some version ∧ (version, key) ∈ s.published ∧
        s.server version k.roomId session = some raw ∧ B.SealedFor key raw := by
  obtain ⟨version, k', hversion, hk', hserver⟩ := h.marks session hmarked
  obtain rfl := Option.some.inj (hk'.symm.trans hk)
  obtain ⟨raw, hraw⟩ := Option.isSome_iff_exists.mp hserver
  obtain ⟨key, hkey, hsealed⟩ := h.server _ _ _ _ hraw
  exact ⟨version, key, raw, hversion, hkey, hraw, hsealed⟩

/-- What is stored and sealed for a key, its private half decrypts. -/
theorem mem_opened_of_stored {d : OrdMap String (OrdMap String B.Raw)} {secret : B.Key}
    {room session : String} {sessions : OrdMap String B.Raw} {raw : B.Raw}
    (hroom : d.get? room = some sessions) (hsession : sessions.get? session = some raw)
    (hsealed : B.SealedFor (B.megolmV1PublicKey secret) raw) :
    ∃ k ∈ B.opened secret d, k.roomId = room ∧ k.sessionId = session := by
  obtain ⟨data, roomKey, hdata, hroomKey⟩ := hsealed secret rfl
  refine ⟨⟨room, session, roomKey⟩, ?_, rfl, rfl⟩
  apply List.mem_filterMap.mpr
  refine ⟨(room, session, raw), KeyBackup.mem_entries.mpr ⟨sessions, hroom, hsession⟩, ?_⟩
  simp [KeyBackup.opens, hdata, hroomKey]

/-- **A device that counts every key as backed up is restored whole.**  However the steps
interleaved, if it kept to the version of its marks: where the state it tells says that as many
keys are backed up as there are, a restore key that matches the enabled version's description
restores, from what the homeserver stores of that version, a key of every session the device
holds — or the store of the device that restores fails. -/
theorem restore_of_backedUp (h : ((custody contents).restrict Keeping).Reachable s)
    {state : BackupState} {version restoreKey versionInfo : String} {body : B.Raw} {secret : B.Key}
    {d : OrdMap String (OrdMap String B.Raw)}
    {machine : Option (List (ExportedRoomKey B.BackedUpRoomKey) → String → Except Unit ℕ)}
    (hstate : backupState (some (s.machine, .ok s.counts)) = .ok state)
    (hversion : state.version = some version) (hall : state.backedUp = state.total)
    (hfew : s.held.entries.length < 2 ^ 32)
    (hinfo : ∃ key, (version, key) ∈ s.published ∧ B.readInfo versionInfo =
      some (.megolmBackupV1Curve25519AesSha2 key))
    (hmatch : B.restoreKeyMatches restoreKey versionInfo = .ok true)
    (hread : B.Reads restoreKey version body secret d)
    (hbody : ∀ room session, (d.get? room).bind (fun sessions => sessions.get? session) =
      s.server version room session)
    (hmachine : machine ≠ none) :
    (∀ session k, s.held.get? session = some k →
        ∃ k' ∈ (B.restoreBackup restoreKey version body machine).2,
          k'.roomId = k.roomId ∧ k'.sessionId = session) ∨
      (B.restoreBackup restoreKey version body machine).1 = .error (.backup .failed) := by
  have hs := safe_of_reachable h
  by_cases hfailed : (B.restoreBackup restoreKey version body machine).1 =
      .error (.backup .failed)
  · exact Or.inr hfailed
  refine Or.inl ?_
  intro session k hk
  -- every key is marked, and the marks are about this version
  have hle : s.counts.backedUp ≤ s.counts.total := List.countP_le_length
  have hcount := (backedUp_eq_total_iff hstate hle hfew).mp hall
  have hmarked : s.machine.backedUp session = true := by
    have hevery := List.countP_eq_length.mp hcount
    exact hevery (session, k) (OrdMap.get?_eq_some.mp hk)
  have henabled : s.marked = some version := by
    obtain rfl := Except.ok.inj hstate
    obtain ⟨p, hp, hpversion⟩ := Option.map_eq_some_iff.mp hversion
    rw [(hs.enabled p.1 p.2 hp).2, hpversion]
  obtain ⟨version', key, raw, hversion', hkey, hraw, hsealed⟩ :=
    hs.stored_of_backedUp hk hmarked
  obtain rfl := Option.some.inj (hversion'.symm.trans henabled)
  -- the restore key is the private half of the version's key
  obtain ⟨key', hkey', hread'⟩ := hinfo
  obtain rfl := hs.published _ _ _ hkey hkey'
  obtain ⟨secret', info, hsecret, hreadInfo, hmatches⟩ :=
    BackupKeys.restoreKeyMatches_eq_ok.mp hmatch
  obtain rfl := Option.some.inj (hsecret.symm.trans hread.fromBase58)
  obtain rfl := Option.some.inj (hreadInfo.symm.trans hread')
  have hpublic := BackupKeys.backupKeyMatches_iff.mp hmatches
  obtain rfl := RoomKeyBackupInfo.megolmBackupV1Curve25519AesSha2.inj hpublic
  -- so it decrypts the entry, and what is decrypted is imported
  have hentry := (hbody k.roomId session).trans hraw
  obtain ⟨sessions, hroom, hsession⟩ := Option.bind_eq_some_iff.mp hentry
  obtain ⟨k', hk', hroom', hsession'⟩ := mem_opened_of_stored hroom hsession hsealed
  have himported := KeyBackup.imported_of_opened hread hmachine hk'
  exact ⟨k', himported.resolve_right hfailed, hroom', hsession'⟩

/-! ### One device, restored -/

namespace Example

/-- The keys of a backup that hides nothing: a public half is its private half. -/
def plainKeys : BackupKeys where
  toKeyBackup := plainBackup
  PublicKey := String
  megolmV1PublicKey := fun key => key
  display := fun key => key
  toBase64 := fun key => key
  fromBase64 := some
  writeInfo := fun
    | .megolmBackupV1Curve25519AesSha2 key => String.ofList ('1' :: key.toList)
    | .other => ""
  readInfo := fun text =>
    match text.toList with
    | '1' :: key => some (.megolmBackupV1Curve25519AesSha2 (String.ofList key))
    | _ => some .other

/-- The key of one session, and the entry it is sealed into. -/
def heldKey : ExportedRoomKey plainKeys.BackedUpRoomKey := ⟨"!one:example.org", "s1", "AAAA"⟩

def sealedEntry : plainKeys.Raw :=
  .obj [("session_data", .obj [("ephemeral", .str "EsT"), ("ciphertext", .str "AAAA")])]

def carried (_ : KeysBackupRequest) : List (String × String × plainKeys.Raw) :=
  [("!one:example.org", "s1", sealedEntry)]

def batch : PendingBackup := ⟨"id", ⟨"1", some .null⟩, ["s1"]⟩

/-- The homeserver, once it took the batch. -/
def stored (version room session : String) : Option plainKeys.Raw :=
  if version = "1" ∧ room = "!one:example.org" ∧ session = "s1" then some sealedEntry else none

/-- The device, once the batch was reported sent. -/
def backedUp : Custody plainKeys where
  machine := ⟨some ("EsT", "1"), none, fun session => session = "s1"⟩
  held := OrdMap.empty.insert "s1" heldKey
  marked := some "1"
  published := [("1", "EsT")]
  built := [batch]
  accepted := [batch]
  server := stored

/-- What is downloaded of it. -/
def body : plainKeys.Raw :=
  .obj [("rooms", .obj [("!one:example.org", .obj [("sessions", .obj [("s1", sealedEntry)])])])]

theorem sealedFor_entry : plainKeys.SealedFor "EsT" sealedEntry := by
  intro key hkey
  obtain rfl : key = "EsT" := hkey
  exact ⟨("EsT", "AAAA"), "AAAA", rfl, rfl⟩

theorem backedUp_reachable : ((custody carried).restrict Keeping).Reachable backedUp := by
  let s₁ : Custody plainKeys := { initial with published := [("1", "EsT")] }
  let s₂ : Custody plainKeys := s₁.arrived heldKey false
  let s₃ : Custody plainKeys :=
    { s₂ with machine := ⟨some ("EsT", "1"), none, s₂.machine.backedUp⟩, marked := some "1" }
  let s₄ : Custody plainKeys :=
    { s₃ with machine := ⟨some ("EsT", "1"), some batch, s₂.machine.backedUp⟩, built := [batch] }
  let s₅ : Custody plainKeys := { s₄ with server := stored, accepted := [batch] }
  have h₁ : CustodyStep carried (initial : Custody plainKeys) (.publish "EsT" "1") s₁ :=
    .publishes (by decide) (by simp [initial])
  have h₂ : CustodyStep carried s₁ (.arrive heldKey) s₂ := .arrives (by simp [Fits, s₁, initial])
  have h₃ : CustodyStep carried s₂ (.enable "EsT" "1" (some (.taken, true))) s₃ := by
    refine .enables ?_ fun x hx => hx
    intro key hkey
    obtain rfl : "EsT" = key := Option.some.inj hkey
    exact List.mem_cons_self
  have hbuilt : s₃.Builds carried (.ok (some batch)) := by
    constructor
    · intro b hb
      obtain rfl := Option.some.inj (Except.ok.inj hb)
      refine ⟨"EsT", rfl, ?_⟩
      intro e he
      obtain rfl := List.mem_singleton.mp he
      exact sealedFor_entry
    · intro b hb session hsession
      obtain rfl := Option.some.inj (Except.ok.inj hb)
      obtain rfl := List.mem_singleton.mp hsession
      exact ⟨heldKey, sealedEntry, rfl, List.mem_singleton_self _⟩
    · intro b _ b' hb'
      cases hb'
  have h₄ : CustodyStep carried s₃ (.take (.ok []) (.ok (some batch))) s₄ := .takes hbuilt
  have hput : Put carried batch s₄.server stored := by
    constructor
    · intro e he
      obtain rfl := List.mem_singleton.mp he
      rfl
    · intro version room session hsome
      cases hsome
    · intro version room session raw hraw
      simp only [stored] at hraw
      split at hraw
      · next hsame =>
        obtain ⟨rfl, rfl, rfl⟩ := hsame
        obtain rfl := Option.some.inj hraw
        exact Or.inr ⟨rfl, List.mem_singleton_self _⟩
      · cases hraw
  have h₅ : CustodyStep carried s₄ (.upload batch) s₅ := .uploads (List.mem_singleton_self _) hput
  have h₆ : CustodyStep carried s₅ (.markSent "id") backedUp := by
    have hmarks : (fun session => s₅.machine.backedUp session || batch.sessions.contains session) =
        backedUp.machine.backedUp := by
      funext session
      simp [s₅, s₄, s₂, s₁, Custody.arrived, initial, batch, backedUp]
    have hmark : backedUp =
        { s₅ with machine := s₅.machine.markAsSent .roomKeyBackup "id" } := by
      show _ = { s₅ with machine := ⟨some ("EsT", "1"), none,
        fun session => s₅.machine.backedUp session || batch.sessions.contains session⟩ }
      rw [hmarks]
      rfl
    rw [hmark]
    exact .marks ⟨batch, List.mem_singleton_self _, rfl⟩
  have hkeeps : s₂.Keeping (.enable "EsT" "1" (some (.taken, true))) := by
    refine ⟨?_, by simp⟩
    rintro - - - - - ⟨x, hx⟩
    simp [s₂, s₁, Custody.arrived, initial] at hx
  refine ⟨initial, _, rfl, (((((TransitionSystem.Run.single (keeping_step h₁ ?_)).snoc
    (keeping_step h₂ ?_)).snoc (keeping_step h₃ hkeeps)).snoc (keeping_step h₄ ?_)).snoc
      (keeping_step h₅ ?_)).snoc (keeping_step h₆ ?_)⟩
  -- the other steps neither enable a version nor restore from one
  all_goals exact ⟨by simp, by simp⟩

/-- The body, as it is read. -/
def downloaded : OrdMap String (OrdMap String plainKeys.Raw) :=
  OrdMap.empty.insert "!one:example.org" (OrdMap.empty.insert "s1" sealedEntry)

theorem downloaded_eq (room session : String) :
    (downloaded.get? room).bind (fun sessions => sessions.get? session) =
      backedUp.server "1" room session := by
  have hserver : backedUp.server "1" room session = stored "1" room session := rfl
  rw [hserver]
  unfold downloaded stored
  by_cases hroom : room = "!one:example.org" <;> by_cases hsession : session = "s1" <;>
    simp [hroom, hsession, OrdMap.get?_insert]

end Example

open Example in
/-- What the device held is restored, with the key it was sealed with. -/
theorem restore_of_backedUp_example :
    ∃ k ∈ (plainKeys.restoreBackup "EsT" "1" body (some takesAll)).2,
      k.roomId = "!one:example.org" ∧ k.sessionId = "s1" := by
  have hread : plainKeys.Reads "EsT" "1" body "EsT" downloaded := ⟨by decide, rfl, rfl⟩
  have hstate : backupState (some (backedUp.machine, .ok backedUp.counts)) =
      .ok ⟨true, some "1", 1, 1⟩ := rfl
  have hmatch : plainKeys.restoreKeyMatches "EsT" "1EsT" = .ok true := rfl
  have hheld : backedUp.held.get? "s1" = some heldKey := rfl
  have hrestored := restore_of_backedUp backedUp_reachable hstate rfl rfl (by decide)
    ⟨"EsT", List.mem_singleton_self _, rfl⟩ hmatch hread downloaded_eq
    (Option.some_ne_none takesAll)
  rcases hrestored with hrestored | hfailed
  · exact hrestored "s1" heldKey hheld
  · cases hfailed

open Example in
/-- **The marks outlive a restart.**  The version that is enabled after one is another than the
marks are about, and the state tells that every key is backed up under it; the homeserver has none
of them for that version. -/
theorem marks_outlive_restart : ∃ s : Custody plainKeys, (custody carried).Reachable s ∧
    backupState (some (s.machine, .ok s.counts)) = .ok ⟨true, some "2", 1, 1⟩ ∧
      ∀ room session, s.server "2" room session = none := by
  let s₁ : Custody plainKeys := backedUp.restarted
  let s₂ : Custody plainKeys := { s₁ with published := [("1", "EsT"), ("2", "EsU")] }
  let s₃ : Custody plainKeys :=
    { s₂ with machine := ⟨some ("EsU", "2"), none, backedUp.machine.backedUp⟩, marked := some "2" }
  have h₁ : CustodyStep carried backedUp .restart s₁ := .restarts
  have h₂ : CustodyStep carried s₁ (.publish "EsU" "2") s₂ :=
    .publishes (by decide) (by simp [s₁, restarted, backedUp])
  have h₃ : CustodyStep carried s₂ (.enable "EsU" "2" (some (.taken, true))) s₃ := by
    refine .enables ?_ fun x hx => hx
    intro key hkey
    obtain rfl : "EsU" = key := Option.some.inj hkey
    exact List.mem_cons_of_mem _ List.mem_cons_self
  obtain ⟨s₀, ops, hinit, hrun⟩ := backedUp_reachable.of_restrict
  refine ⟨s₃, ⟨s₀, _, hinit, ((hrun.snoc h₁).snoc h₂).snoc h₃⟩, rfl, fun room session => ?_⟩
  show stored "2" room session = none
  simp [stored]

end Custody
end MatrixCrypto

