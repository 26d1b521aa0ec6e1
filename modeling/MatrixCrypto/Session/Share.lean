import MatrixCrypto.Process

/-!
# What a share keeps

`share_scope_key`: its identifiers are parsed, one trip makes three calls to upstream, and what
they returned is queued under one lock, each before the next is looked at.  A failure of the
first returns before the second is looked at.

## Main definitions

* `ScopeParsers`, `ShareTrip` — the parsers, and what the three calls of a trip came to.
* `shareScopeKey` — the whole call.
* `KeepsProgress` — everything that upstream returned waits in a queue, and a failure is told.
* `LosesNothing` — what the trip came to, when nothing of it is lost.

## Main results

* `get?_queueToDeviceRequests_iff` — when queueing leaves every request under its own id.
* `keepsProgress_iff` — **a share keeps its progress exactly where it loses nothing.**
-/

namespace MatrixCrypto

open Lib Relation

/-- The parsers of room and user identifiers. -/
structure ScopeParsers where
  isRoomId : String → Bool
  isUserId : String → Bool

/-- What the calls of one trip came to: `get_missing_sessions`, `share_room_key` and
`update_tracked_users`. -/
structure ShareTrip where
  missing : Except Unit (Option (String × KeysClaimRequest))
  shared : Except Unit (List ToDeviceRequest)
  tracked : Except Unit Unit

/-- `share_scope_key`; the trip is `none` when there is no machine. -/
def shareScopeKey (P : ScopeParsers) (s : RequestState) (scope : String) (users : List String)
    (trip : Option ShareTrip) : Except SessionError Unit × RequestState :=
  if !P.isRoomId scope then (.error .malformedIdentifier, s)
  else if !users.all P.isUserId then (.error .malformedIdentifier, s)
  else match trip with
    | none => (.error .notInitialised, s)
    | some t => s.shareQueues t.missing t.shared t.tracked

/-- Everything that the calls of the trip returned waits in a queue, and the failure of any is
told. -/
structure KeepsProgress (t : ShareTrip) (out : Except SessionError Unit × RequestState) : Prop where
  claim : ∀ c, t.missing = .ok (some c) → out.2.pendingClaim = some c
  shared : ∀ rs, t.shared = .ok rs → ∀ r ∈ rs, out.2.queuedToDevice.get? r.txnId = some r
  told : t.missing = .error () ∨ t.shared = .error () ∨ t.tracked = .error () →
    ∃ e, out.1 = .error e

/-- The requests of a successful sharing are told apart by their transaction ids; and where the
missing sessions could not be had, each of them waits already. -/
structure LosesNothing (s : RequestState) (t : ShareTrip) : Prop where
  apart : ∀ rs, t.shared = .ok rs → ∀ r ∈ rs, ∀ r' ∈ rs, r.txnId = r'.txnId → r = r'
  waits : t.missing = .error () → ∀ rs, t.shared = .ok rs →
    ∀ r ∈ rs, s.queuedToDevice.get? r.txnId = some r

/-! ### What queueing leaves -/

namespace RequestState

/-- What no request that came has the id of stays as it was. -/
theorem get?_queueToDeviceRequests_of_ne {rs : List ToDeviceRequest} {i : String} :
    ∀ {s : RequestState}, (∀ r ∈ rs, r.txnId ≠ i) →
      (s.queueToDeviceRequests rs).queuedToDevice.get? i = s.queuedToDevice.get? i := by
  induction rs with
  | nil =>
    intro s _
    rfl
  | cons r rs ih =>
    intro s h
    have hne : i ≠ r.txnId := Ne.symm (h r List.mem_cons_self)
    have hrest := ih (s := s.queueToDevice r) fun r' hr' => h r' (List.mem_cons_of_mem _ hr')
    have hfirst : (s.queueToDevice r).queuedToDevice.get? i = s.queuedToDevice.get? i := by
      rw [queueToDevice, OrdMap.get?_insert_of_ne _ _ hne]
    exact hrest.trans hfirst

/-- Under the id of a request that came, a request that came is left: the last. -/
theorem exists_get?_queueToDeviceRequests {rs : List ToDeviceRequest} {i : String} :
    ∀ {s : RequestState}, (∃ r ∈ rs, r.txnId = i) →
      ∃ r ∈ rs, r.txnId = i ∧ (s.queueToDeviceRequests rs).queuedToDevice.get? i = some r := by
  induction rs with
  | nil =>
    intro s h
    obtain ⟨r, hr, -⟩ := h
    cases hr
  | cons r rs ih =>
    intro s h
    by_cases hlater : ∃ r' ∈ rs, r'.txnId = i
    · obtain ⟨r', hr', hid, hget⟩ := ih (s := s.queueToDevice r) hlater
      exact ⟨r', List.mem_cons_of_mem _ hr', hid, hget⟩
    · -- it is the first, and nothing after it overwrites it
      have hid : r.txnId = i := by
        obtain ⟨r', hr', hid⟩ := h
        rcases List.mem_cons.mp hr' with heq | hr'
        · rw [← heq, hid]
        · exact absurd ⟨r', hr', hid⟩ hlater
      refine ⟨r, List.mem_cons_self, hid, ?_⟩
      have hlast : ((s.queueToDevice r).queueToDeviceRequests rs).queuedToDevice.get? i =
          (s.queueToDevice r).queuedToDevice.get? i :=
        get?_queueToDeviceRequests_of_ne fun r' hr' heq => hlater ⟨r', hr', heq⟩
      refine hlast.trans ?_
      rw [queueToDevice, ← hid]
      exact OrdMap.get?_insert_self ..

/-- **Every request that came waits**, where their transaction ids tell them apart. -/
theorem get?_queueToDeviceRequests_iff {s : RequestState} {rs : List ToDeviceRequest} :
    (∀ r ∈ rs, (s.queueToDeviceRequests rs).queuedToDevice.get? r.txnId = some r) ↔
      ∀ r ∈ rs, ∀ r' ∈ rs, r.txnId = r'.txnId → r = r' := by
  constructor
  · intro h r hr r' hr' hid
    have hget := h r hr
    rw [hid, h r' hr'] at hget
    exact (Option.some.inj hget).symm
  · intro h r hr
    obtain ⟨r', hr', hid, hget⟩ := exists_get?_queueToDeviceRequests (s := s) ⟨r, hr, rfl⟩
    rw [hget, h r' hr' r hr hid]

theorem queueToDeviceRequests_pendingClaim (s : RequestState) (rs : List ToDeviceRequest) :
    (s.queueToDeviceRequests rs).pendingClaim = s.pendingClaim := by
  rw [queueToDeviceRequests_eq]

end RequestState

/-! ### What a share keeps -/

section

variable {P : ScopeParsers} {s : RequestState} {scope : String} {users : List String}
  {t : ShareTrip}

/-- A share whose identifiers parse takes its trip. -/
theorem shareScopeKey_of_parsed (hscope : P.isRoomId scope = true)
    (husers : users.all P.isUserId = true) : shareScopeKey P s scope users (some t) =
      s.shareQueues t.missing t.shared t.tracked := by
  unfold shareScopeKey
  rw [hscope, husers]
  rfl

/-- Whatever a share comes to, it only queues. -/
theorem queueing_shareScopeKey (trip : Option ShareTrip) :
    ReflTransGen Queueing s (shareScopeKey P s scope users trip).2 := by
  unfold shareScopeKey
  split
  · exact .refl
  · split
    · exact .refl
    · cases trip with
      | none => exact .refl
      | some t => exact queueing_shareQueues s t.missing t.shared t.tracked

/-- A failure of any of the three calls is told. -/
theorem shareQueues_told
    (h : t.missing = .error () ∨ t.shared = .error () ∨ t.tracked = .error ()) :
    (s.shareQueues t.missing t.shared t.tracked).1 = .error .failed := by
  unfold RequestState.shareQueues
  rcases h with h | h | h
  · rw [h]
  · rw [h]
    cases t.missing with
    | error _ => rfl
    | ok _ => rfl
  · rw [h]
    cases t.missing with
    | error _ => rfl
    | ok _ =>
      cases t.shared with
      | error _ => rfl
      | ok _ => rfl

/-- The claim of a successful call waits, whatever the other two came to. -/
theorem shareQueues_claim {c : String × KeysClaimRequest} (h : t.missing = .ok (some c)) :
    (s.shareQueues t.missing t.shared t.tracked).2.pendingClaim = some c := by
  unfold RequestState.shareQueues
  rw [h]
  cases t.shared with
  | error _ => rfl
  | ok rs =>
    cases t.tracked with
    | error _ => exact RequestState.queueToDeviceRequests_pendingClaim _ rs
    | ok _ => exact RequestState.queueToDeviceRequests_pendingClaim _ rs

/-- What the to-device queue is once the sharing succeeded. -/
theorem shareQueues_queuedToDevice {rs : List ToDeviceRequest} (h : t.shared = .ok rs)
    (i : String) : (s.shareQueues t.missing t.shared t.tracked).2.queuedToDevice.get? i =
      match t.missing with
      | .error _ => s.queuedToDevice.get? i
      | .ok c => ((s.withClaim c).queueToDeviceRequests rs).queuedToDevice.get? i := by
  unfold RequestState.shareQueues
  rw [h]
  cases t.missing with
  | error _ => rfl
  | ok c =>
    cases t.tracked with
    | error _ => rfl
    | ok _ => rfl

/-- **A share keeps its progress exactly where it loses nothing**: the requests of a successful
sharing are dropped where the missing sessions could not be had, the rest is always kept. -/
theorem keepsProgress_iff (hscope : P.isRoomId scope = true)
    (husers : users.all P.isUserId = true) :
    KeepsProgress t (shareScopeKey P s scope users (some t)) ↔ LosesNothing s t := by
  rw [shareScopeKey_of_parsed hscope husers]
  constructor
  · intro h
    have hget : ∀ rs, t.shared = .ok rs → ∀ r ∈ rs,
        (s.shareQueues t.missing t.shared t.tracked).2.queuedToDevice.get? r.txnId = some r :=
      h.shared
    constructor
    · intro rs hrs r hr r' hr' hid
      have hfirst := hget rs hrs r hr
      have hsecond := hget rs hrs r' hr'
      rw [hid, hsecond] at hfirst
      exact (Option.some.inj hfirst).symm
    · intro hmissing rs hrs r hr
      have hwaits := hget rs hrs r hr
      rw [shareQueues_queuedToDevice hrs, hmissing] at hwaits
      exact hwaits
  · intro h
    refine ⟨fun c hc => shareQueues_claim hc, ?_, fun hfailed => ⟨_, shareQueues_told hfailed⟩⟩
    intro rs hrs r hr
    rw [shareQueues_queuedToDevice hrs]
    cases hmissing : t.missing with
    | error _ => exact h.waits hmissing rs hrs r hr
    | ok c => exact RequestState.get?_queueToDeviceRequests_iff.mpr (h.apart rs hrs) r hr

end

/-! ### A message that is dropped -/

/-- Parsers that take every identifier. -/
def anyIdentifier : ScopeParsers := ⟨fun _ => true, fun _ => true⟩

/-- A room key, on its way to a device. -/
def roomKeyMessage : ToDeviceRequest := ⟨"m.room.encrypted", "k1", some (.obj [])⟩

/-- The sharing succeeds, and the claim is to be sent. -/
theorem keepsProgress_roomKey : LosesNothing .initial ⟨.ok none, .ok [roomKeyMessage], .ok ()⟩ ∧
    KeepsProgress ⟨.ok none, .ok [roomKeyMessage], .ok ()⟩
      (shareScopeKey anyIdentifier .initial "!room:example.org" ["@bob:example.org"]
        (some ⟨.ok none, .ok [roomKeyMessage], .ok ()⟩)) := by
  have hloses : LosesNothing .initial ⟨.ok none, .ok [roomKeyMessage], .ok ()⟩ := by
    constructor
    · intro rs hrs r hr r' hr' _
      cases hrs
      rw [List.mem_singleton.mp hr, List.mem_singleton.mp hr']
    · intro hmissing
      cases hmissing
  exact ⟨hloses, (keepsProgress_iff rfl rfl).mpr hloses⟩

/-- **The room key is dropped**: the missing sessions could not be had, and the call returns
before it looks at what the sharing returned. -/
theorem room_key_dropped : ¬ KeepsProgress ⟨.error (), .ok [roomKeyMessage], .ok ()⟩
    (shareScopeKey anyIdentifier .initial "!room:example.org" ["@bob:example.org"]
      (some ⟨.error (), .ok [roomKeyMessage], .ok ()⟩)) := by
  intro h
  have hget := h.shared [roomKeyMessage] rfl roomKeyMessage (List.mem_singleton_self _)
  cases hget

end MatrixCrypto
