import MatrixCrypto.Backup.Machine
import MatrixCrypto.Session.Pump

/-!
# Batches follow the enabled version

`enable_backup`, `disable_backup`, `take_outgoing_requests`, `mark_request_sent` and
`mark_request_failed` as calls in flight over one machine: each trip and each section
under the registry lock is one atomic step, and any number of calls run at once.  Other
calls write to the registry, and scope keys come and go, at any moment.

## Main definitions

* `BackupCall`, `BackupNext`, `backups` — the sections of the five calls.
* `Named` — a key some enable of a version named.
* `Traced` — the key and the batch in flight come from enables of their version.
* `Follows` — what one enable makes of the machine until the next.
* `CarriedOver` — a batch in flight when its version was enabled again.
* `BatchesFollow` — what a run hands out.

## Main results

* `traced_run` — **the batch in flight is for the enabled version**, always.
* `follows_run` — what an enable establishes holds until the next.
* `batchesFollow_of_initial` — **batches follow the enabled version**, and the key with it,
  a batch carried over apart.
* `batches_sealedUnderAnother` — a run that hands out a batch sealed under another key.
-/

namespace MatrixCrypto

open Lib

/-! ### The calls -/

/-- What every call reads and writes. -/
structure BackupProcess (K : Type) where
  requests : RequestState
  store : Store
  machine : BackupMachine K

/-- A call in flight: what it is about to do, with what it holds. -/
inductive BackupCall
  | enable (sealingKey version : String)
  | disable
  | take
  /-- The trip is over; the batch prepared from it is at hand. -/
  | taking (prepared : List Fresh)
  | mark (id body : String)
  /-- The id was looked up and the body not refused. -/
  | marking (id body : String) (kind : PendingKind)
  /-- Upstream has taken the response. -/
  | settling (id : String) (answer : AnswerAboutAccount)
  | markFailed (id : String) (status : ℕ)

/-- What a call returns. -/
inductive BackupResult
  | enabled (out : Except BackupError Unit)
  | disabled (out : Except BackupError Unit)
  | took (out : Except SessionError (List OutgoingRequest))
  | marked (out : Except SessionError Unit)

/-- One section of a call. -/
inductive BackupNext {K : Type} (S : Sealing K) (P : Parsers) (account : String)
    (s : BackupProcess K) : BackupCall → BackupProcess K → BackupCall ⊕ BackupResult → Prop
  | enables {sealingKey version : String} (trip : Option (Reset × Bool)) :
      BackupNext S P account s (.enable sealingKey version)
        { s with machine := (s.machine.enableBackup S sealingKey version trip).2 }
        (.inr (.enabled (s.machine.enableBackup S sealingKey version trip).1))
  | disables (trip : Option Reset) :
      BackupNext S P account s .disable
        { s with machine := (s.machine.disableBackup trip).2 }
        (.inr (.disabled (s.machine.disableBackup trip).1))
  | takeTrip {upstream : Except Unit (List UpstreamOutgoingRequest)}
      {built : Except Unit (Option PendingBackup)} {prepared : List Fresh}
      (hbuilt : s.machine.Builds S built)
      (h : prepare account (s.machine.offers upstream built).1 = .ok prepared) :
      BackupNext S P account s .take
        { s with machine := (s.machine.offers upstream built).2 } (.inl (.taking prepared))
  | takeTripFails {upstream : Except Unit (List UpstreamOutgoingRequest)}
      {built : Except Unit (Option PendingBackup)} {e : SessionError}
      (hbuilt : s.machine.Builds S built)
      (h : prepare account (s.machine.offers upstream built).1 = .error e) :
      BackupNext S P account s .take
        { s with machine := (s.machine.offers upstream built).2 } (.inr (.took (.error e)))
  | takeNoMachine : BackupNext S P account s .take s (.inr (.took (.error .notInitialised)))
  | takeSection {prepared : List Fresh} :
      BackupNext S P account s (.taking prepared)
        { s with requests := (s.requests.takeSection account prepared).2 }
        (.inr (.took (s.requests.takeSection account prepared).1))
  | markLookup {id body : String} {entry : Pending}
      (hp : s.requests.pending.get? id = some entry)
      (hr : refuseANonResponse P entry.kind body = .ok ()) :
      BackupNext S P account s (.mark id body) s (.inl (.marking id body entry.kind))
  | markUnknown {id body : String} (hp : s.requests.pending.get? id = none) :
      BackupNext S P account s (.mark id body) s (.inr (.marked (.error .unknownRequest)))
  | markRefused {id body : String} {entry : Pending} {e : SessionError}
      (hp : s.requests.pending.get? id = some entry)
      (hr : refuseANonResponse P entry.kind body = .error e) :
      BackupNext S P account s (.mark id body) s (.inr (.marked (.error e)))
  | markTrip {id body : String} {kind : PendingKind} {up : Consumed}
      {answer : AnswerAboutAccount} {store : Store}
      (h : markSent P account kind body s.store up = (.ok answer, store)) :
      BackupNext S P account s (.marking id body kind)
        { s with store := store, machine := s.machine.markAsSent kind id }
        (.inl (.settling id answer))
  | markTripFails {id body : String} {kind : PendingKind} {up : Consumed} {e : SessionError}
      {store : Store} (h : markSent P account kind body s.store up = (.error e, store)) :
      BackupNext S P account s (.marking id body kind) { s with store := store }
        (.inr (.marked (.error e)))
  | markNoMachine {id body : String} {kind : PendingKind} :
      BackupNext S P account s (.marking id body kind) s
        (.inr (.marked (.error .notInitialised)))
  | markSection {id : String} {answer : AnswerAboutAccount} :
      BackupNext S P account s (.settling id answer)
        { s with requests := s.requests.settle id answer } (.inr (.marked (.ok ())))
  | fails {id : String} {status : ℕ} :
      BackupNext S P account s (.markFailed id status) s
        (.inr (.marked (markRequestFailed ⟨s.requests, s.store⟩ id status).1))

/-- A call begins before its first section. -/
inductive BackupStart : BackupCall → Prop
  | enable (sealingKey version : String) : BackupStart (.enable sealingKey version)
  | disable : BackupStart .disable
  | take : BackupStart .take
  | mark (id body : String) : BackupStart (.mark id body)
  | markFailed (id : String) (status : ℕ) : BackupStart (.markFailed id status)

/-- What else may happen between two sections. -/
inductive BackupMove
  /-- Another call writes to the registry. -/
  | registers (requests : RequestState)
  /-- The store changes for any other reason. -/
  | stores (store : Store)
  /-- Scope keys arrive, or are replaced by better copies. -/
  | keys (backedUp : String → Bool)

abbrev BackupEvent := Event BackupCall BackupResult BackupMove

/-- The process after such a move. -/
def BackupProcess.moved {K : Type} (s : BackupProcess K) : BackupMove → BackupProcess K
  | .registers requests => { s with requests := requests }
  | .stores store => { s with store := store }
  | .keys backedUp => { s with machine := { s.machine with backedUp := backedUp } }

/-- Nothing but a call touches the key or the batch in flight. -/
theorem BackupProcess.moved_backupKey {K : Type} (s : BackupProcess K) (move : BackupMove) :
    (s.moved move).machine.backupKey = s.machine.backupKey := by
  cases move <;> rfl

theorem BackupProcess.moved_pendingBackup {K : Type} (s : BackupProcess K) (move : BackupMove) :
    (s.moved move).machine.pendingBackup = s.machine.pendingBackup := by
  cases move <;> rfl

/-- The five calls over one registry and one machine. -/
def backups {K : Type} (S : Sealing K) (P : Parsers) (account : String) :
    Calls (BackupProcess K) BackupCall BackupResult BackupMove where
  start := fun _ c => BackupStart c
  next := BackupNext S P account
  world := fun s e t => t = s.moved e

/-- A process that has just started: no backup is enabled and none is in flight. -/
def BackupProcess.Initial {K : Type} (s : BackupProcess K) : Prop :=
  s.requests = .initial ∧ s.machine.backupKey = none ∧ s.machine.pendingBackup = none

/-- All interleavings of the calls from there. -/
def backingUp {K : Type} (S : Sealing K) (P : Parsers) (account : String) :
    TransitionSystem (Pool (BackupProcess K) BackupCall) BackupEvent :=
  (backups S P account).system BackupProcess.Initial

/-! ### What a run hands out -/

/-- Some enable of the version that succeeded named the key. -/
def Named {K : Type} (S : Sealing K) (es : List BackupEvent) (version : String) (key : K) :
    Prop :=
  ∃ sealingKey, .section (.enable sealingKey version) (.inr (.enabled (.ok ()))) ∈ es ∧
    S.fromBase64 sealingKey = some key

/-- No backup is enabled or disabled in between. -/
def Quiet (es : List BackupEvent) : Prop :=
  (∀ sealingKey version r, .section (.enable sealingKey version) r ∉ es) ∧
    ∀ r, .section .disable r ∉ es

theorem Quiet.left {es fs : List BackupEvent} (h : Quiet (es ++ fs)) : Quiet es :=
  ⟨fun _ _ _ hmem => h.1 _ _ _ (List.mem_append_left fs hmem),
    fun _ hmem => h.2 _ (List.mem_append_left fs hmem)⟩

theorem Quiet.right {es fs : List BackupEvent} (h : Quiet (es ++ fs)) : Quiet fs :=
  ⟨fun _ _ _ hmem => h.1 _ _ _ (List.mem_append_right es hmem),
    fun _ hmem => h.2 _ (List.mem_append_right es hmem)⟩

theorem quiet_take (r : BackupCall ⊕ BackupResult) : Quiet [.section .take r] := by
  constructor
  · intro sealingKey version r hmem
    cases List.mem_singleton.mp hmem
  · intro r hmem
    cases List.mem_singleton.mp hmem

/-- The batch was in flight when the version it is for, enabled already, was enabled
once more; an earlier enable of that version named what it is sealed under. -/
def CarriedOver {K : Type} (S : Sealing K) (es : List BackupEvent) (m : BackupMachine K)
    (id : String) (r : KeysBackupRequest) : Prop :=
  m.backupVersion = some r.version ∧
    (∃ b, m.pendingBackup = some b ∧ b.requestId = id ∧ b.request = r) ∧
      ∃ key, Named S es r.version key ∧ S.sealedUnder r key

/-- What runs hand out, when a batch handed out after an enable is to be `carried` by
the key it named: it is for the version enabled, and carried; with no backup enabled
there is none; and enabling the version already enabled unmarks nothing. -/
structure BatchesFollow {K : Type} (S : Sealing K) (P : Parsers) (account : String)
    (carried : List BackupEvent → BackupMachine K → String → KeysBackupRequest → K → Prop)
    (p : Pool (BackupProcess K) BackupCall) : Prop where
  follows : ∀ before s sealingKey version t between u prepared v after q out w o,
    (backingUp S P account).Run p before s →
    (backingUp S P account).step s
      (.section (.enable sealingKey version) (.inr (.enabled (.ok ())))) t →
    (backingUp S P account).Run t between u → Quiet between →
    (backingUp S P account).step u (.section .take (.inl (.taking prepared))) v →
    (backingUp S P account).Run v after q →
    (backingUp S P account).step q (.section (.taking prepared) (.inr (.took (.ok out)))) w →
    o ∈ out → o.kind = "room_key_backup" →
      ∃ key r, S.fromBase64 sealingKey = some key ∧ describeBackup r = .ok o.body ∧
        r.version = version ∧ carried before s.shared.machine o.id r key
  idle : ∀ before s prepared t after q out w o,
    (backingUp S P account).Run p before s → s.shared.machine.enabled = false →
    (backingUp S P account).step s (.section .take (.inl (.taking prepared))) t →
    (backingUp S P account).Run t after q →
    (backingUp S P account).step q (.section (.taking prepared) (.inr (.took (.ok out)))) w →
    o ∈ out → o.kind ≠ "room_key_backup"
  kept : ∀ before s sealingKey version r t session,
    (backingUp S P account).Run p before s →
    (backingUp S P account).step s (.section (.enable sealingKey version) r) t →
    s.shared.machine.backupVersion = some version →
    s.shared.machine.backedUp session = true → t.shared.machine.backedUp session = true

section

variable {K : Type} {S : Sealing K} {P : Parsers} {account : String}

/-! ### The batch in flight is for the enabled version -/

theorem Named.append {es : List BackupEvent} {version : String} {key : K}
    (h : Named S es version key) (fs : List BackupEvent) : Named S (es ++ fs) version key := by
  obtain ⟨sealingKey, hmem, hkey⟩ := h
  exact ⟨sealingKey, List.mem_append_left fs hmem, hkey⟩

/-- The enabled key was named by an enable of its version, and so was the key the
batch in flight is sealed under; that batch is for the enabled version. -/
structure Traced (S : Sealing K) (es : List BackupEvent) (m : BackupMachine K) : Prop where
  key : ∀ key version, m.backupKey = some (key, version) → Named S es version key
  pending : ∀ b, m.pendingBackup = some b → m.backupVersion = some b.request.version ∧
    ∃ key, Named S es b.request.version key ∧ S.sealedUnder b.request key

namespace Traced

variable {es : List BackupEvent} {m n : BackupMachine K}

/-- Nothing else of the machine is read. -/
theorem of_eq (h : Traced S es m) (hkey : n.backupKey = m.backupKey)
    (hpending : n.pendingBackup = m.pendingBackup ∨ n.pendingBackup = none)
    (fs : List BackupEvent) : Traced S (es ++ fs) n where
  key := by
    intro key version hn
    rw [hkey] at hn
    exact (h.key key version hn).append fs
  pending := by
    intro b hb
    rcases hpending with hsame | hnone
    · rw [hsame] at hb
      obtain ⟨hversion, key, hnamed, hsealed⟩ := h.pending b hb
      refine ⟨?_, key, hnamed.append fs, hsealed⟩
      unfold BackupMachine.backupVersion at hversion ⊢
      rw [hkey, hversion]
    · rw [hnone] at hb
      cases hb

theorem mono (h : Traced S es m) (fs : List BackupEvent) : Traced S (es ++ fs) m :=
  h.of_eq rfl (Or.inl rfl) fs

/-- A machine with no backup enabled and none in flight. -/
theorem of_none (hkey : m.backupKey = none) (hpending : m.pendingBackup = none) :
    Traced S es m where
  key := by
    intro key version hm
    rw [hkey] at hm
    cases hm
  pending := by
    intro b hb
    rw [hpending] at hb
    cases hb

theorem enables {sealingKey version : String} {out : Except BackupError Unit}
    (h : Traced S es m) (hm : m.Enables S sealingKey version out n) :
    Traced S (es ++ [.section (.enable sealingKey version) (.inr (.enabled out))]) n := by
  cases hm with
  | fails e => exact h.mono _
  | empties e marks _ _ => exact of_none rfl rfl
  | @moves key current hkey _ _ =>
    refine ⟨fun key' version' hn => ?_, fun b hb => by cases hb⟩
    obtain ⟨rfl, rfl⟩ := Prod.mk.inj (Option.some.inj hn)
    exact ⟨sealingKey, List.mem_append_right es (List.mem_singleton_self _), hkey⟩
  | @writes key hkey hstays =>
    refine ⟨fun key' version' hn => ?_, fun b hb => ?_⟩
    · obtain ⟨rfl, rfl⟩ := Prod.mk.inj (Option.some.inj hn)
      exact ⟨sealingKey, List.mem_append_right es (List.mem_singleton_self _), hkey⟩
    · -- what is in flight was for the version enabled before, which is this one
      obtain ⟨hversion, key', hnamed, hsealed⟩ := h.pending b hb
      exact ⟨congrArg some (hstays _ hversion).symm, key', hnamed.append _, hsealed⟩

theorem offers {upstream : Except Unit (List UpstreamOutgoingRequest)}
    {built : Except Unit (Option PendingBackup)} (h : Traced S es m)
    (hbuilt : m.Builds S built) (fs : List BackupEvent) :
    Traced S (es ++ fs) (m.offers upstream built).2 := by
  rcases m.offers_eq_or upstream built with heq | ⟨-, b, hb, heq⟩
  · rw [heq]
    exact h.mono fs
  · rw [heq]
    obtain ⟨key, hkey, hsealed⟩ := hbuilt b hb
    refine ⟨fun key' version hn => (h.key key' version hn).append fs, fun b' hb' => ?_⟩
    obtain rfl := Option.some.inj hb'
    exact ⟨congrArg (Option.map Prod.snd) hkey, key, (h.key key _ hkey).append fs, hsealed⟩

end Traced

theorem traced_next {es : List BackupEvent} {s t : BackupProcess K} {c : BackupCall}
    {r : BackupCall ⊕ BackupResult} (h : Traced S es s.machine)
    (hnext : BackupNext S P account s c t r) :
    Traced S (es ++ [.section c r]) t.machine := by
  cases hnext with
  | enables trip => exact h.enables (s.machine.enables_enableBackup S _ _ trip)
  | disables trip =>
    rcases s.machine.disableBackup_eq_or trip with heq | ⟨hkey, hpending⟩
    · show Traced S _ (s.machine.disableBackup trip).2
      rw [heq]
      exact h.mono _
    · exact .of_none hkey hpending
  | takeTrip hbuilt _ => exact h.offers hbuilt _
  | takeTripFails hbuilt _ => exact h.offers hbuilt _
  | @markTrip id body kind _ _ _ _ =>
    obtain ⟨hkey, hpending⟩ := s.machine.markAsSent_eq_or kind id
    exact h.of_eq hkey (hpending.imp_right And.left) _
  | _ => exact h.mono _

/-- **The batch in flight is for the enabled version**, in every run. -/
theorem traced_run {p q : Pool (BackupProcess K) BackupCall} {es : List BackupEvent}
    (hp : (backingUp S P account).init p) (hrun : (backingUp S P account).Run p es q) :
    Traced S es q.shared.machine := by
  have hinit : Traced S [] p.shared.machine := .of_none hp.1.2.1 hp.1.2.2
  refine hrun.invariant_history (I := fun es q => Traced S es q.shared.machine) ?_ hinit
  intro es s e t h hstep
  cases e with
  | start c =>
    obtain ⟨-, rfl⟩ := hstep
    exact h.mono _
  | «section» c r =>
    obtain ⟨_, _, -, hnext, -⟩ := hstep
    exact traced_next h hnext
  | world move =>
    obtain ⟨hmove, -⟩ := hstep
    rw [show t.shared = s.shared.moved move from hmove]
    exact h.of_eq (s.shared.moved_backupKey move) (Or.inl (s.shared.moved_pendingBackup move)) _

/-! ### From one enable to the next -/

/-- What an enable makes of the machine until the next: its key is enabled, and what
is in flight is for its version and sealed under its key, or was carried over. -/
structure Follows (S : Sealing K) (before : List BackupEvent) (m : BackupMachine K)
    (version : String) (key : K) (n : BackupMachine K) : Prop where
  enabled : n.backupKey = some (key, version)
  pending : ∀ b, n.pendingBackup = some b → b.request.version = version ∧
    (S.sealedUnder b.request key ∨ CarriedOver S before m b.requestId b.request)

/-- An enable that succeeds sets out on it. -/
theorem Traced.follows {es : List BackupEvent} {m n : BackupMachine K}
    {sealingKey version : String} (h : Traced S es m)
    (hm : m.Enables S sealingKey version (.ok ()) n) :
    ∃ key, S.fromBase64 sealingKey = some key ∧ Follows S es m version key n := by
  cases hm with
  | @moves key current hkey _ _ => exact ⟨key, hkey, rfl, fun b hb => by cases hb⟩
  | @writes key hkey hstays =>
    refine ⟨key, hkey, rfl, fun b hb => ?_⟩
    have hpending : m.pendingBackup = some b := hb
    obtain ⟨hversion, hsealed⟩ := h.pending b hpending
    exact ⟨hstays _ hversion, Or.inr ⟨hversion, ⟨b, hpending, rfl, rfl⟩, hsealed⟩⟩

section

variable {before : List BackupEvent} {m n n' : BackupMachine K} {version : String} {key : K}

theorem Follows.of_eq (h : Follows S before m version key n)
    (hkey : n'.backupKey = n.backupKey)
    (hpending : n'.pendingBackup = n.pendingBackup ∨ n'.pendingBackup = none) :
    Follows S before m version key n' where
  enabled := hkey.trans h.enabled
  pending := by
    intro b hb
    rcases hpending with hsame | hnone
    · exact h.pending b (hsame.symm.trans hb)
    · rw [hnone] at hb
      cases hb

theorem Follows.offers {upstream : Except Unit (List UpstreamOutgoingRequest)}
    {built : Except Unit (Option PendingBackup)} (h : Follows S before m version key n)
    (hbuilt : n.Builds S built) : Follows S before m version key (n.offers upstream built).2 := by
  rcases n.offers_eq_or upstream built with heq | ⟨-, b, hb, heq⟩
  · rw [heq]
    exact h
  · rw [heq]
    refine ⟨h.enabled, fun b' hb' => ?_⟩
    obtain rfl := Option.some.inj hb'
    -- it was built under the enabled key, which is the one named
    obtain ⟨key', hkey', hsealed⟩ := hbuilt b hb
    obtain ⟨rfl, hversion⟩ := Prod.mk.inj (Option.some.inj (h.enabled.symm.trans hkey'))
    exact ⟨hversion.symm, Or.inl hsealed⟩

theorem follows_next {s t : BackupProcess K} {c : BackupCall} {r : BackupCall ⊕ BackupResult}
    (h : Follows S before m version key s.machine) (hnext : BackupNext S P account s c t r)
    (hquiet : Quiet [.section c r]) : Follows S before m version key t.machine := by
  cases hnext with
  | enables trip => exact absurd (List.mem_singleton_self _) (hquiet.1 _ _ _)
  | disables trip => exact absurd (List.mem_singleton_self _) (hquiet.2 _)
  | takeTrip hbuilt _ => exact h.offers hbuilt
  | takeTripFails hbuilt _ => exact h.offers hbuilt
  | @markTrip id body kind _ _ _ _ =>
    obtain ⟨hkey, hpending⟩ := s.machine.markAsSent_eq_or kind id
    exact h.of_eq hkey (hpending.imp_right And.left)
  | _ => exact h

theorem follows_step {p q : Pool (BackupProcess K) BackupCall} {e : BackupEvent}
    (h : Follows S before m version key p.shared.machine)
    (hstep : (backingUp S P account).step p e q) (hquiet : Quiet [e]) :
    Follows S before m version key q.shared.machine := by
  cases e with
  | start c =>
    obtain ⟨-, rfl⟩ := hstep
    exact h
  | «section» c r =>
    obtain ⟨_, _, -, hnext, -⟩ := hstep
    exact follows_next h hnext hquiet
  | world move =>
    obtain ⟨hmove, -⟩ := hstep
    rw [show q.shared = p.shared.moved move from hmove]
    exact h.of_eq (p.shared.moved_backupKey move) (Or.inl (p.shared.moved_pendingBackup move))

theorem follows_enable {p q : Pool (BackupProcess K) BackupCall} {sealingKey : String}
    (h : Traced S before p.shared.machine)
    (hstep : (backingUp S P account).step p
      (.section (.enable sealingKey version) (.inr (.enabled (.ok ())))) q) :
    ∃ key, S.fromBase64 sealingKey = some key ∧
      Follows S before p.shared.machine version key q.shared.machine := by
  obtain ⟨_, _, -, hnext, -⟩ := hstep
  generalize hr : (.inr (.enabled (.ok ())) : BackupCall ⊕ BackupResult) = r at hnext
  generalize q.shared = q' at hnext
  cases hnext with
  | enables trip =>
    have hok := BackupResult.enabled.inj (Sum.inr.inj hr)
    have hcases := p.shared.machine.enables_enableBackup S sealingKey version trip
    rw [← hok] at hcases
    exact h.follows hcases

/-- **What an enable establishes holds until the next.** -/
theorem follows_run {p q : Pool (BackupProcess K) BackupCall} {es : List BackupEvent}
    (hrun : (backingUp S P account).Run p es q) (hquiet : Quiet es)
    (h : Follows S before m version key p.shared.machine) :
    Follows S before m version key q.shared.machine := by
  induction hrun with
  | nil => exact h
  | @snoc q t es e hrun hstep ih =>
    exact follows_step (ih hquiet.left) hstep hquiet.right

end

/-! ### What a drain hands out -/

theorem eq_roomKeyBackup_of_tag {kind : PendingKind} (h : kind.tag = "room_key_backup") :
    kind = .roomKeyBackup := by
  cases kind <;> first | rfl | (revert h; decide)

/-- Nothing that waits in a queue is a backup. -/
theorem RequestState.Contributes.ne_roomKeyBackup {s : RequestState} {f : Fresh}
    (h : s.Contributes account f) : f.kind ≠ .roomKeyBackup := by
  cases h with
  | action _ hf =>
    rw [(freshOf_eq hf).2.2]
    exact (kindFor_ne account _).2.2.2
  | _ => simp

/-- **A backup that is handed out was prepared in the trip.** -/
theorem RequestState.exists_prepared_of_taken {s : RequestState} {prepared : List Fresh}
    {out : List OutgoingRequest} (h : (s.takeSection account prepared).1 = .ok out)
    {o : OutgoingRequest} (ho : o ∈ out) (hkind : o.kind = "room_key_backup") :
    ∃ f ∈ prepared, f.kind = .roomKeyBackup ∧ f.id = o.id ∧ f.body = o.body := by
  obtain ⟨fresh, hfresh, rfl, -⟩ := takeSection_ok h
  obtain ⟨e, he, rfl⟩ := List.mem_map.mp ho
  obtain ⟨f, hf, hid, hfkind, hbody, -⟩ := mem_stamp (mem_handOut.mp he)
  have hbackup : f.kind = .roomKeyBackup := hfkind.trans (eq_roomKeyBackup_of_tag hkind)
  rcases (mem_collect hfresh f).mp hf with hprepared | hwaits
  · exact ⟨f, hprepared, hbackup, hid, hbody⟩
  · exact absurd hbackup hwaits.ne_roomKeyBackup

/-- **A backup prepared in the trip is what is in flight after it.** -/
theorem exists_pending_of_prepared {m : BackupMachine K}
    {upstream : Except Unit (List UpstreamOutgoingRequest)}
    {built : Except Unit (Option PendingBackup)} {prepared : List Fresh}
    (h : prepare account (m.offers upstream built).1 = .ok prepared) {f : Fresh}
    (hf : f ∈ prepared) (hkind : f.kind = .roomKeyBackup) :
    m.enabled = true ∧ ∃ b, (m.offers upstream built).2.pendingBackup = some b ∧
      b.requestId = f.id ∧ describeBackup b.request = .ok f.body := by
  rcases (mem_prepare h hf).2 with ⟨_, _, r, _, hr⟩ | ⟨r, hbatch, -, hbody⟩
  · rw [(freshOf_eq hr).2.2] at hkind
    exact absurd hkind (kindFor_ne account r).2.2.2
  · obtain ⟨henabled, b, hb, heq⟩ := BackupMachine.offers_backupBatch hbatch
    obtain ⟨hid, rfl⟩ := Prod.mk.inj heq
    exact ⟨henabled, b, hb, hid.symm, hbody⟩

/-- What one drain hands out: a backup is what was in flight after its trip. -/
theorem exists_pending_of_drained {u v q w : Pool (BackupProcess K) BackupCall}
    {prepared : List Fresh} {out : List OutgoingRequest} {o : OutgoingRequest}
    (htrip : (backingUp S P account).step u (.section .take (.inl (.taking prepared))) v)
    (hsection : (backingUp S P account).step q
      (.section (.taking prepared) (.inr (.took (.ok out)))) w)
    (ho : o ∈ out) (hkind : o.kind = "room_key_backup") :
    u.shared.machine.enabled = true ∧ ∃ b, v.shared.machine.pendingBackup = some b ∧
      b.requestId = o.id ∧ describeBackup b.request = .ok o.body := by
  obtain ⟨_, _, -, htrip, -⟩ := htrip
  obtain ⟨_, _, -, hsection, -⟩ := hsection
  have htaken : (q.shared.requests.takeSection account prepared).1 = .ok out := by
    generalize hr : (.inr (.took (.ok out)) : BackupCall ⊕ BackupResult) = r at hsection
    generalize w.shared = w' at hsection
    cases hsection with
    | takeSection => exact (BackupResult.took.inj (Sum.inr.inj hr)).symm
  obtain ⟨f, hf, hfkind, hid, hbody⟩ := RequestState.exists_prepared_of_taken htaken ho hkind
  rw [← hid, ← hbody]
  generalize v.shared = v' at htrip
  cases htrip with
  | takeTrip _ hprepare => exact exists_pending_of_prepared hprepare hf hfkind

/-- **Batches follow the enabled version**, in every run: what is handed out after an
enable is for its version and sealed under its key, or was carried over; with no backup
enabled nothing is; and enabling the version already enabled unmarks nothing. -/
theorem batchesFollow_of_initial {p : Pool (BackupProcess K) BackupCall}
    (hp : (backingUp S P account).init p) :
    BatchesFollow S P account
      (fun before m id r key => S.sealedUnder r key ∨ CarriedOver S before m id r) p where
  follows := by
    intro before s sealingKey version t between u prepared v after q out w o hbefore henable
      hbetween hquiet htrip _ hsection ho hkind
    obtain ⟨key, hkey, hfollows⟩ := follows_enable (traced_run hp hbefore) henable
    have hv : Follows S before s.shared.machine version key v.shared.machine :=
      follows_step (follows_run hbetween hquiet hfollows) htrip (quiet_take _)
    obtain ⟨-, b, hb, hid, hbody⟩ := exists_pending_of_drained htrip hsection ho hkind
    obtain ⟨hversion, hcarried⟩ := hv.pending b hb
    exact ⟨key, b.request, hkey, hbody, hversion, hid ▸ hcarried⟩
  idle := by
    intro before s prepared t after q out w o _ hidle htrip _ hsection ho hkind
    obtain ⟨henabled, -⟩ := exists_pending_of_drained htrip hsection ho hkind
    rw [hidle] at henabled
    cases henabled
  kept := by
    intro before s sealingKey version r t session _ henable hversion hmarked
    obtain ⟨_, _, -, hnext, -⟩ := henable
    generalize t.shared = t' at hnext
    cases hnext with
    | enables trip =>
      show (s.shared.machine.enableBackup S sealingKey version trip).2.backedUp session = true
      rw [BackupMachine.backedUp_enableBackup hversion]
      exact hmarked

end

/-! ### A version enabled under two keys

A backup is enabled, one drain builds a batch, and the same version is enabled under
another key before the batch is reported. -/

/-- The rooms of a batch of one scope key, which say what they are sealed under. -/
def roomsUnder (key : String) : Json := .obj [("!scope:example.org", .str key)]

/-- A sealing key is 32 bytes in base64, and names itself. -/
def statedSealing : Sealing String where
  fromBase64 := fun text => if text.length = 43 then some text else none
  sealedUnder := fun r key => r.rooms = some (roomsUnder key)

/-- The two sealing keys. -/
def firstKey : String := "AAAAAAAAAAAAAAAAAAAAAAAAAAAAAAAAAAAAAAAAAAA"

def secondKey : String := "BAAAAAAAAAAAAAAAAAAAAAAAAAAAAAAAAAAAAAAAAAA"

/-- The batch, sealed under the first key. -/
def firstBatch : PendingBackup :=
  ⟨"b1", ⟨"947281", some (roomsUnder firstKey)⟩, ["!scope:example.org"]⟩

/-- What it is handed out as. -/
def firstBody : Json := .obj [("version", .str "947281"), ("rooms", roomsUnder firstKey)]

/-- The process while the batch, or nothing, is in flight. -/
def backingUnder (key : Option (String × String)) (batch : Option PendingBackup) :
    BackupProcess String :=
  ⟨.initial, ⟨none, none, false⟩, ⟨key, batch, fun _ => false⟩⟩

/-- What the drains prepare. -/
def firstPrepared : List Fresh := [⟨none, "b1", .roomKeyBackup, firstBody⟩]

/-- Runs of the five calls over such keys. -/
def keeping : TransitionSystem (Pool (BackupProcess String) BackupCall) BackupEvent :=
  backingUp statedSealing emptyObjectParsers "@me:example.org"

theorem keeping_start (s : BackupProcess String) (calls : List BackupCall) {c : BackupCall}
    (h : BackupStart c) : keeping.step ⟨s, calls⟩ (.start c) ⟨s, calls ++ [c]⟩ :=
  ⟨h, rfl⟩

theorem keeping_section (before after : List BackupCall) {s t : BackupProcess String}
    {c : BackupCall} {r : BackupCall ⊕ BackupResult}
    (h : BackupNext statedSealing emptyObjectParsers "@me:example.org" s c t r) :
    keeping.step ⟨s, before ++ c :: after⟩ (.section c r)
      ⟨t, before ++ (remaining r ++ after)⟩ :=
  (backups statedSealing emptyObjectParsers "@me:example.org").step_section before after h

/-- The first enable, and a drain that builds the batch. -/
theorem run_first : ∃ es, keeping.Run ⟨backingUnder none none, []⟩ es
    ⟨backingUnder (some (firstKey, "947281")) (some firstBatch), [.taking firstPrepared]⟩ := by
  have henable : keeping.step ⟨backingUnder none none, [.enable firstKey "947281"]⟩
      (.section (.enable firstKey "947281") (.inr (.enabled (.ok ()))))
      ⟨backingUnder (some (firstKey, "947281")) none, []⟩ :=
    keeping_section [] [] (.enables (some (.taken, true)))
  have htrip : keeping.step ⟨backingUnder (some (firstKey, "947281")) none, [.take]⟩
      (.section .take (.inl (.taking firstPrepared)))
      ⟨backingUnder (some (firstKey, "947281")) (some firstBatch), [.taking firstPrepared]⟩ := by
    refine keeping_section [] []
      (@BackupNext.takeTrip _ _ _ _ _ (.ok []) (.ok (some firstBatch)) _ ?_ rfl)
    intro batch hbatch
    obtain rfl := Option.some.inj (Except.ok.inj hbatch)
    exact ⟨firstKey, rfl, rfl⟩
  exact ⟨_, .cons (keeping_start _ [] (.enable _ _)) (.cons henable
    (.cons (keeping_start _ [] .take) (.single htrip)))⟩

/-- The second enable, of the same version under another key. -/
theorem step_second : keeping.step
    ⟨backingUnder (some (firstKey, "947281")) (some firstBatch),
      [.taking firstPrepared, .enable secondKey "947281"]⟩
    (.section (.enable secondKey "947281") (.inr (.enabled (.ok ()))))
    ⟨backingUnder (some (secondKey, "947281")) (some firstBatch), [.taking firstPrepared]⟩ :=
  keeping_section [.taking firstPrepared] [] (.enables (some (.taken, true)))

/-- The trip of the drain after it. -/
theorem step_tripAgain : keeping.step
    ⟨backingUnder (some (secondKey, "947281")) (some firstBatch), [.taking firstPrepared, .take]⟩
    (.section .take (.inl (.taking firstPrepared)))
    ⟨backingUnder (some (secondKey, "947281")) (some firstBatch),
      [.taking firstPrepared, .taking firstPrepared]⟩ := by
  refine keeping_section [.taking firstPrepared] []
    (@BackupNext.takeTrip _ _ _ _ _ (.ok []) (.ok none) _ ?_ rfl)
  intro batch hbatch
  cases Except.ok.inj hbatch

/-- Its section: the batch is handed out. -/
theorem step_handsOut : ∃ w, keeping.step
    ⟨backingUnder (some (secondKey, "947281")) (some firstBatch),
      [.taking firstPrepared, .taking firstPrepared]⟩
    (.section (.taking firstPrepared)
      (.inr (.took (.ok [⟨"b1", "room_key_backup", firstBody⟩])))) w :=
  ⟨_, keeping_section [] [.taking firstPrepared] .takeSection⟩

/-- What follows of a drain after the second enable. -/
theorem follows_second
    {carried : List BackupEvent → BackupMachine String → String → KeysBackupRequest → String → Prop}
    (h : BatchesFollow statedSealing emptyObjectParsers "@me:example.org" carried
      ⟨backingUnder none none, []⟩) :
    ∃ before r, describeBackup r = .ok firstBody ∧ r.version = "947281" ∧
      carried before (backingUnder (some (firstKey, "947281")) (some firstBatch)).machine "b1" r
        secondKey := by
  obtain ⟨es, hfirst⟩ := run_first
  obtain ⟨w, hout⟩ := step_handsOut
  have hbefore := hfirst.snoc (keeping_start _ [.taking firstPrepared] (.enable secondKey "947281"))
  have hbetween : keeping.Run
      ⟨backingUnder (some (secondKey, "947281")) (some firstBatch), [.taking firstPrepared]⟩
      [.start .take]
      ⟨backingUnder (some (secondKey, "947281")) (some firstBatch),
        [.taking firstPrepared, .take]⟩ :=
    .single (keeping_start _ [.taking firstPrepared] .take)
  have hquiet : Quiet [.start .take] := by constructor <;> simp
  obtain ⟨key, r, hkey, hbody, hversion, hcarried⟩ := h.follows _ _ _ _ _ _ _ _ _ [] _ _ _ _
    hbefore step_second hbetween hquiet step_tripAgain (.nil _) hout
    (List.mem_singleton_self _) rfl
  obtain rfl : secondKey = key := Option.some.inj hkey
  exact ⟨_, r, hbody, hversion, hcarried⟩

/-- The drain hands the batch out for its version, carried over from the first key. -/
theorem batchesFollow_carriedOver : ∃ before r, describeBackup r = .ok firstBody ∧
    r.version = "947281" ∧ (statedSealing.sealedUnder r secondKey ∨
      CarriedOver statedSealing before
        (backingUnder (some (firstKey, "947281")) (some firstBatch)).machine "b1" r) :=
  follows_second (batchesFollow_of_initial ⟨⟨rfl, rfl, rfl⟩, rfl⟩)

/-- **A run that hands out a batch sealed under another key**: the version was
enabled under it, after an enable of the same version under the first. -/
theorem batches_sealedUnderAnother : ∃ p, keeping.init p ∧
    ¬ BatchesFollow statedSealing emptyObjectParsers "@me:example.org"
      (fun _ _ _ r key => statedSealing.sealedUnder r key) p := by
  refine ⟨⟨backingUnder none none, []⟩, ⟨⟨rfl, rfl, rfl⟩, rfl⟩, fun h => ?_⟩
  obtain ⟨_, r, hbody, -, hsealed⟩ := follows_second h
  -- the rooms handed out are those sealed under the first key
  have hrooms : r.rooms = some (roomsUnder secondKey) := hsealed
  obtain ⟨version, rooms⟩ := r
  obtain rfl := hrooms
  have hne : describeBackup ⟨version, some (roomsUnder secondKey)⟩ ≠ .ok firstBody := by
    intro heq
    injection heq with heq
    injection heq with heq
    simp [roomsUnder, firstKey, secondKey] at heq
  exact hne hbody

end MatrixCrypto
