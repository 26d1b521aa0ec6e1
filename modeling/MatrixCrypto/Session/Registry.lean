import MatrixCrypto.Session.Requests

/-!
# The request registry

`RequestState`: every request waiting to be handed out, every id handed out and
not yet resolved, and the two facts `signing` reads.  The functions here are
the ones that queue; handing out is `MatrixCrypto.Session.Take`, resolving is
`MatrixCrypto.Session.Mark`.

## Main definitions

* `RequestState` — six queues, the pending map, the two flags and the counter.
* `queueActionRequest`, `queueToDeviceRequests`, `queueSigningKeysRequest`,
  `queueAccountKeyQuery`, `queuePeerKeyQuery` — the queueing functions.
* `shareQueues` — what `share_scope_key` writes under its one lock.
* `QueuedAt s n i` — the id `i` waits in a queue with the stamp `n`.
* `Carries s i` — the id `i` waits in some queue.

## Main results

* `queuedAt_queueActionRequest`, `queued_queueActionRequest` — what an action
  request is queued as.
* `carries_shareQueues` — where what `share_scope_key` leaves waiting comes from.
-/

namespace MatrixCrypto

open Lib

/-- One request handed out and waiting to be resolved. -/
structure Pending where
  kind : PendingKind
  sequence : ℕ
  deriving DecidableEq, Repr

/-- Process-wide outbound-request bookkeeping. -/
structure RequestState where
  /-- To-device requests not yet handed out, by transaction id. -/
  queuedToDevice : OrdMap String ToDeviceRequest
  /-- At most one claim not yet handed out. -/
  pendingClaim : Option (String × KeysClaimRequest)
  /-- Requests upstream handed back to its caller, each with its stamp. -/
  queuedAction : List (ℕ × UpstreamOutgoingRequest)
  /-- At most one publication of the signing identity, with its stamp. -/
  queuedSigningKeys : Option (ℕ × String × UploadSigningKeysRequest)
  /-- At most one out-of-band query about this account, with its stamp. -/
  queuedAccountQuery : Option (ℕ × String × KeysQueryRequest)
  /-- Out-of-band queries about other people; stamped at hand-out. -/
  queuedPeerQueries : List (String × KeysQueryRequest)
  /-- Every id handed out and not yet resolved. -/
  pending : OrdMap String Pending
  accountKeysAnswered : Bool
  accountKeysAnswerUnsettled : Bool
  nextSequence : ℕ

namespace RequestState

/-- The registry of a process that has just started. -/
def initial : RequestState where
  queuedToDevice := .empty
  pendingClaim := none
  queuedAction := []
  queuedSigningKeys := none
  queuedAccountQuery := none
  queuedPeerQueries := []
  pending := .empty
  accountKeysAnswered := false
  accountKeysAnswerUnsettled := false
  nextSequence := 0

instance : Inhabited RequestState := ⟨initial⟩

/-- Whether an id is in the action queue or handed out and unresolved. -/
def repeats (s : RequestState) (id : String) : Bool :=
  s.queuedAction.any (fun q => q.2.requestId == id) || s.pending.contains id

/-- `queue_action_request`: a repeated id is dropped. -/
def queueActionRequest (s : RequestState) (r : UpstreamOutgoingRequest) : RequestState :=
  if s.repeats r.requestId then s
  else { s with
    queuedAction := s.queuedAction ++ [(s.nextSequence, r)]
    nextSequence := s.nextSequence + 1 }

/-- One insertion into the to-device queue. -/
def queueToDevice (s : RequestState) (r : ToDeviceRequest) : RequestState :=
  { s with queuedToDevice := s.queuedToDevice.insert r.txnId r }

/-- `queue_to_device_requests`. -/
def queueToDeviceRequests (s : RequestState) (rs : List ToDeviceRequest) : RequestState :=
  rs.foldl queueToDevice s

/-- The stamp a single slot is filled with: the one it had, or the next. -/
def slotStamp {α : Type} (s : RequestState) : Option (ℕ × α) → ℕ × ℕ
  | some (n, _) => (n, s.nextSequence)
  | none => (s.nextSequence, s.nextSequence + 1)

/-- `queue_signing_keys_request`, with the id minted for it. -/
def queueSigningKeysRequest (s : RequestState) (id : String) (r : UploadSigningKeysRequest) :
    RequestState :=
  { s with
    queuedSigningKeys := some ((s.slotStamp s.queuedSigningKeys).1, id, r)
    nextSequence := (s.slotStamp s.queuedSigningKeys).2 }

/-- `queue_account_key_query`. -/
def queueAccountKeyQuery (s : RequestState) (id : String) (r : KeysQueryRequest) : RequestState :=
  { s with
    queuedAccountQuery := some ((s.slotStamp s.queuedAccountQuery).1, id, r)
    nextSequence := (s.slotStamp s.queuedAccountQuery).2 }

/-- `queue_peer_key_query`. -/
def queuePeerKeyQuery (s : RequestState) (id : String) (r : KeysQueryRequest) : RequestState :=
  { s with queuedPeerQueries := s.queuedPeerQueries ++ [(id, r)] }

/-- The claim slot keeps what it holds unless a claim comes. -/
def withClaim (s : RequestState) : Option (String × KeysClaimRequest) → RequestState
  | some c => { s with pendingClaim := some c }
  | none => s

/-- What `share_scope_key` does with its three results, under one lock: the
claim first, then the to-device requests, each kept whatever comes after it. -/
def shareQueues (s : RequestState) (missing : Except Unit (Option (String × KeysClaimRequest)))
    (shared : Except Unit (List ToDeviceRequest)) (tracked : Except Unit Unit) :
    Except SessionError Unit × RequestState :=
  match missing with
  | .error _ => (.error .failed, s)
  | .ok claim =>
    match shared with
    | .error _ => (.error .failed, s.withClaim claim)
    | .ok rs =>
      match tracked with
      | .error _ => (.error .failed, (s.withClaim claim).queueToDeviceRequests rs)
      | .ok _ => (.ok (), (s.withClaim claim).queueToDeviceRequests rs)

/-! ### What waits where -/

/-- The id waits in a queue that stamps its entries when they are queued. -/
inductive QueuedAt (s : RequestState) : ℕ → String → Prop
  | action {n : ℕ} {r : UpstreamOutgoingRequest} (h : (n, r) ∈ s.queuedAction) :
      QueuedAt s n r.requestId
  | signingKeys {n : ℕ} {i : String} {r : UploadSigningKeysRequest}
      (h : s.queuedSigningKeys = some (n, i, r)) : QueuedAt s n i
  | accountQuery {n : ℕ} {i : String} {r : KeysQueryRequest}
      (h : s.queuedAccountQuery = some (n, i, r)) : QueuedAt s n i

/-- The id waits in some queue. -/
inductive Carries (s : RequestState) : String → Prop
  | toDevice {i : String} {r : ToDeviceRequest} (h : s.queuedToDevice.get? i = some r) :
      Carries s i
  | claim {i : String} {r : KeysClaimRequest} (h : s.pendingClaim = some (i, r)) : Carries s i
  | stamped {n : ℕ} {i : String} (h : QueuedAt s n i) : Carries s i
  | peerQuery {i : String} {r : KeysQueryRequest} (h : (i, r) ∈ s.queuedPeerQueries) :
      Carries s i

/-! ### What each queueing function adds -/

theorem queueActionRequest_of_repeats {s : RequestState} {r : UpstreamOutgoingRequest}
    (h : s.repeats r.requestId = true) : s.queueActionRequest r = s := by
  rw [queueActionRequest, if_pos h]

theorem queueActionRequest_of_not_repeats {s : RequestState} {r : UpstreamOutgoingRequest}
    (h : s.repeats r.requestId = false) :
    s.queueActionRequest r = { s with
      queuedAction := s.queuedAction ++ [(s.nextSequence, r)]
      nextSequence := s.nextSequence + 1 } := by
  rw [queueActionRequest, if_neg (by simp [h])]

theorem repeats_eq_false {s : RequestState} {id : String} :
    s.repeats id = false ↔
      (∀ n r, (n, r) ∈ s.queuedAction → r.requestId ≠ id) ∧ s.pending.get? id = none := by
  rw [repeats, Bool.or_eq_false_iff, List.any_eq_false]
  refine and_congr ⟨fun h n r hr => ?_, fun h q hq => ?_⟩ ?_
  · simpa using h (n, r) hr
  · simpa using h q.1 q.2 hq
  · rw [OrdMap.contains]
    cases s.pending.get? id <;> simp

/-- What waits with a stamp after one request is queued. -/
theorem queuedAt_queueActionRequest {s : RequestState} {r : UpstreamOutgoingRequest} {m : ℕ}
    {i : String} (h : (s.queueActionRequest r).QueuedAt m i) :
    s.QueuedAt m i ∨ (m = s.nextSequence ∧ i = r.requestId) := by
  cases hrep : s.repeats r.requestId with
  | true =>
    rw [queueActionRequest_of_repeats hrep] at h
    exact Or.inl h
  | false =>
    rw [queueActionRequest_of_not_repeats hrep] at h
    cases h with
    | action h =>
      rcases List.mem_append.mp h with h | h
      · exact Or.inl (.action h)
      · rw [List.mem_singleton, Prod.mk.injEq] at h
        exact Or.inr ⟨h.1, by rw [h.2]⟩
    | signingKeys h => exact Or.inl (.signingKeys h)
    | accountQuery h => exact Or.inl (.accountQuery h)

theorem mem_queueActionRequest {s : RequestState} {q : ℕ × UpstreamOutgoingRequest}
    (h : q ∈ s.queuedAction) (r : UpstreamOutgoingRequest) :
    q ∈ (s.queueActionRequest r).queuedAction := by
  cases hrep : s.repeats r.requestId with
  | true => rwa [queueActionRequest_of_repeats hrep]
  | false =>
    rw [queueActionRequest_of_not_repeats hrep]
    exact List.mem_append_left _ h

/-- What was queued is in the queue, or was handed out and is unresolved. -/
theorem queued_queueActionRequest (s : RequestState) (r : UpstreamOutgoingRequest) :
    (∃ n r', (n, r') ∈ (s.queueActionRequest r).queuedAction ∧ r'.requestId = r.requestId) ∨
      s.pending.get? r.requestId ≠ none := by
  cases hrep : s.repeats r.requestId with
  | true =>
    by_contra hnot
    simp only [not_or, not_exists, not_and, not_not] at hnot
    rw [queueActionRequest_of_repeats hrep] at hnot
    have hfalse := repeats_eq_false.mpr ⟨hnot.1, hnot.2⟩
    rw [hrep] at hfalse
    cases hfalse
  | false =>
    rw [queueActionRequest_of_not_repeats hrep]
    exact Or.inl ⟨_, r, List.mem_append_right _ (List.mem_singleton_self _), rfl⟩

section frame

variable (s : RequestState)

@[simp] theorem queueActionRequest_pending (r : UpstreamOutgoingRequest) :
    (s.queueActionRequest r).pending = s.pending := by
  unfold queueActionRequest; split <;> rfl

@[simp] theorem queueActionRequest_queuedSigningKeys (r : UpstreamOutgoingRequest) :
    (s.queueActionRequest r).queuedSigningKeys = s.queuedSigningKeys := by
  unfold queueActionRequest; split <;> rfl

@[simp] theorem queueActionRequest_queuedAccountQuery (r : UpstreamOutgoingRequest) :
    (s.queueActionRequest r).queuedAccountQuery = s.queuedAccountQuery := by
  unfold queueActionRequest; split <;> rfl

@[simp] theorem queueActionRequest_queuedToDevice (r : UpstreamOutgoingRequest) :
    (s.queueActionRequest r).queuedToDevice = s.queuedToDevice := by
  unfold queueActionRequest; split <;> rfl

@[simp] theorem queueActionRequest_pendingClaim (r : UpstreamOutgoingRequest) :
    (s.queueActionRequest r).pendingClaim = s.pendingClaim := by
  unfold queueActionRequest; split <;> rfl

@[simp] theorem queueActionRequest_queuedPeerQueries (r : UpstreamOutgoingRequest) :
    (s.queueActionRequest r).queuedPeerQueries = s.queuedPeerQueries := by
  unfold queueActionRequest; split <;> rfl

@[simp] theorem queueActionRequest_accountKeysAnswered (r : UpstreamOutgoingRequest) :
    (s.queueActionRequest r).accountKeysAnswered = s.accountKeysAnswered := by
  unfold queueActionRequest; split <;> rfl

theorem queueActionRequest_nextSequence_le (r : UpstreamOutgoingRequest) :
    s.nextSequence ≤ (s.queueActionRequest r).nextSequence := by
  unfold queueActionRequest
  split
  · exact Nat.le_refl _
  · exact Nat.le_succ _

end frame

theorem slotStamp_le {α : Type} (s : RequestState) (slot : Option (ℕ × α)) :
    s.nextSequence ≤ (s.slotStamp slot).2 := by
  cases slot with
  | none => exact Nat.le_succ _
  | some _ => exact Nat.le_refl _

/-- Queueing to-device requests touches nothing but their queue. -/
theorem queueToDeviceRequests_eq (rs : List ToDeviceRequest) : ∀ s : RequestState,
    s.queueToDeviceRequests rs =
      { s with queuedToDevice := (s.queueToDeviceRequests rs).queuedToDevice } := by
  induction rs with
  | nil => intro s; rfl
  | cons r rs ih =>
    intro s
    have h := ih (s.queueToDevice r)
    simp only [queueToDeviceRequests, List.foldl_cons] at h ⊢
    rw [h]
    rfl

/-- What the to-device queue holds after queueing: what it held, and what came. -/
theorem get?_queueToDeviceRequests {rs : List ToDeviceRequest} {i : String} {r : ToDeviceRequest} :
    ∀ {s : RequestState}, (s.queueToDeviceRequests rs).queuedToDevice.get? i = some r →
      s.queuedToDevice.get? i = some r ∨ (r ∈ rs ∧ r.txnId = i) := by
  induction rs with
  | nil => intro s h; exact Or.inl h
  | cons r' rs ih =>
    intro s h
    rcases ih (s := s.queueToDevice r') h with h | h
    · rw [queueToDevice, OrdMap.get?_insert] at h
      split at h
      · next hi => exact Or.inr ⟨by simp [Option.some.inj h], by rw [hi, Option.some.inj h]⟩
      · exact Or.inl h
    · exact Or.inr ⟨List.mem_cons_of_mem _ h.1, h.2⟩

/-- `share_scope_key` writes at most the claim slot and the to-device queue. -/
theorem shareQueues_eq (s : RequestState)
    (missing : Except Unit (Option (String × KeysClaimRequest)))
    (shared : Except Unit (List ToDeviceRequest)) (tracked : Except Unit Unit) :
    (s.shareQueues missing shared tracked).2 = { s with
      queuedToDevice := (s.shareQueues missing shared tracked).2.queuedToDevice
      pendingClaim := (s.shareQueues missing shared tracked).2.pendingClaim } := by
  cases missing with
  | error _ => rfl
  | ok claim =>
    cases shared with
    | error _ => cases claim <;> rfl
    | ok rs =>
      cases claim <;> cases tracked <;>
        (simp only [shareQueues, withClaim]; rw [queueToDeviceRequests_eq])

/-- What waits with a stamp depends on three queues alone. -/
theorem QueuedAt.of_queues {s t : RequestState} {n : ℕ} {i : String} (h : QueuedAt t n i)
    (hact : t.queuedAction = s.queuedAction) (hkeys : t.queuedSigningKeys = s.queuedSigningKeys)
    (hacc : t.queuedAccountQuery = s.queuedAccountQuery) : QueuedAt s n i := by
  cases h with
  | action h => exact .action (hact ▸ h)
  | signingKeys h => exact .signingKeys (hkeys ▸ h)
  | accountQuery h => exact .accountQuery (hacc ▸ h)

/-- What waits depends on the queues alone. -/
theorem carries_of_queues {s t : RequestState} {i : String} (h : Carries t i)
    (htd : ∀ r, t.queuedToDevice.get? i = some r → s.queuedToDevice.get? i = some r ∨ Carries s i)
    (hclaim : ∀ r, t.pendingClaim = some (i, r) → Carries s i)
    (hact : t.queuedAction = s.queuedAction) (hkeys : t.queuedSigningKeys = s.queuedSigningKeys)
    (hacc : t.queuedAccountQuery = s.queuedAccountQuery)
    (hpeer : t.queuedPeerQueries = s.queuedPeerQueries) : Carries s i := by
  cases h with
  | toDevice h =>
    rcases htd _ h with h | h
    · exact .toDevice h
    · exact h
  | claim h => exact hclaim _ h
  | stamped h => exact .stamped (h.of_queues hact hkeys hacc)
  | peerQuery h => exact .peerQuery (hpeer ▸ h)

theorem carries_withClaim {s : RequestState} {claim : Option (String × KeysClaimRequest)}
    {i : String} (h : Carries (s.withClaim claim) i) :
    Carries s i ∨ ∃ r, claim = some (i, r) := by
  cases claim with
  | none => exact Or.inl h
  | some c =>
    by_cases hi : c.1 = i
    · subst hi
      exact Or.inr ⟨c.2, rfl⟩
    · refine Or.inl (carries_of_queues h (fun _ h => Or.inl h) (fun r hr => ?_) rfl rfl rfl rfl)
      have hc : c = (i, r) := Option.some.inj hr
      exact absurd (congrArg Prod.fst hc) hi

theorem carries_queueToDeviceRequests {s : RequestState} {rs : List ToDeviceRequest}
    {i : String} (h : Carries (s.queueToDeviceRequests rs) i) :
    Carries s i ∨ ∃ r ∈ rs, r.txnId = i := by
  by_cases hi : ∃ r ∈ rs, r.txnId = i
  · exact Or.inr hi
  rw [queueToDeviceRequests_eq] at h
  refine Or.inl (carries_of_queues h (fun r hr => ?_) (fun _ hr => .claim hr) rfl rfl rfl rfl)
  rcases get?_queueToDeviceRequests hr with hr | hr
  · exact Or.inl hr
  · exact absurd ⟨r, hr⟩ hi

/-- What `share_scope_key` leaves waiting was waiting, or is what upstream
returned to it. -/
theorem carries_shareQueues {s : RequestState}
    {missing : Except Unit (Option (String × KeysClaimRequest))}
    {shared : Except Unit (List ToDeviceRequest)} {tracked : Except Unit Unit} {i : String}
    (h : Carries (s.shareQueues missing shared tracked).2 i) :
    Carries s i ∨ (∃ r, missing = .ok (some (i, r))) ∨
      ∃ rs, shared = .ok rs ∧ ∃ r ∈ rs, r.txnId = i := by
  cases missing with
  | error _ => exact Or.inl h
  | ok c =>
    have claimed : Carries (s.withClaim c) i →
        Carries s i ∨ ∃ r, (.ok c : Except Unit _) = .ok (some (i, r)) := by
      intro h
      rcases carries_withClaim h with h | ⟨r, rfl⟩
      · exact Or.inl h
      · exact Or.inr ⟨r, rfl⟩
    cases shared with
    | error _ =>
      rcases claimed h with h | h
      · exact Or.inl h
      · exact Or.inr (Or.inl h)
    | ok rs =>
      have h' : Carries ((s.withClaim c).queueToDeviceRequests rs) i := by
        cases tracked <;> exact h
      rcases carries_queueToDeviceRequests h' with h | h
      · rcases claimed h with h | h
        · exact Or.inl h
        · exact Or.inr (Or.inl h)
      · exact Or.inr (Or.inr ⟨rs, rfl, h⟩)

end RequestState

end MatrixCrypto
