import MatrixCrypto.Lib.Transition
import MatrixCrypto.Signing.Publication
import Mathlib.Logic.Relation

/-!
# The process as a step relation

One process, one machine, whole calls one after another.  What upstream returns
to a call, and what it does to its store, is part of the call's label, so a run
ranges over everything upstream may do.

## Main definitions

* `Call`, `Call.after` — the calls and their effect.
* `process` — the step relation.
* `Queueing` — one write to the registry that adds and drains nothing.
* `Call.Drains` — a take that succeeds.

## Main results

* `after_requests` — **everything a call can do to the registry.**
* `Stamped`, `SlotsPaired` — the registry's two invariants, with
  `stamped_of_reachable` and `slotsPaired_of_reachable`.
-/

namespace MatrixCrypto

open Lib Relation

/-- A call, with what upstream does while it is served. -/
inductive Call
  | take (trip : Option Offered)
  | markSent (id body : String) (trip : Option Consumed)
  | markFailed (id : String) (status : ℕ)
  | bootstrap (trip : Option Publishing)
  | create (trip : Option Publishing)
  /-- Any other call that queues what upstream handed back to it. -/
  | queueAction (r : UpstreamOutgoingRequest)
  | queueToDevice (rs : List ToDeviceRequest)
  /-- Any other call refused for want of the account's keys. -/
  | queueAccountQuery (id : String) (r : KeysQueryRequest)
  | queuePeerQuery (id : String) (r : KeysQueryRequest)
  | share (missing : Except Unit (Option (String × KeysClaimRequest)))
      (shared : Except Unit (List ToDeviceRequest)) (tracked : Except Unit Unit)
  /-- Upstream's store changes for any other reason. -/
  | upstream (store : Store)

/-- The process after a call. -/
def Call.after (P : Parsers) (account : String) (p : Process) : Call → Process
  | take trip => { p with requests := (p.requests.takeOutgoingRequests account trip).2 }
  | markSent id body trip => (markRequestSent P account p id body trip).2
  | markFailed id status => (markRequestFailed p id status).2
  | bootstrap trip => (bootstrapIdentity p trip).2
  | create trip => (createIdentity p trip).2
  | queueAction r => { p with requests := p.requests.queueActionRequest r }
  | queueToDevice rs => { p with requests := p.requests.queueToDeviceRequests rs }
  | queueAccountQuery id r => { p with requests := p.requests.queueAccountKeyQuery id r }
  | queuePeerQuery id r => { p with requests := p.requests.queuePeerKeyQuery id r }
  | share missing shared tracked =>
    { p with requests := (p.requests.shareQueues missing shared tracked).2 }
  | upstream store => { p with store := store }

/-- The process: any calls in any order, from an empty registry and any store. -/
def process (P : Parsers) (account : String) : TransitionSystem Process Call where
  init := fun p => p.requests = .initial
  step := fun p c q => q = c.after P account p

/-- The call is a take that hands a batch out. -/
def Call.Drains (account : String) (p : Process) : Call → Prop
  | take trip => ∃ out, (p.requests.takeOutgoingRequests account trip).1 = .ok out
  | _ => False

/-- One write that adds to the registry, the publication of the signing keys
apart. -/
inductive Queueing (s : RequestState) : RequestState → Prop
  | action (r : UpstreamOutgoingRequest) : Queueing s (s.queueActionRequest r)
  | toDevice (rs : List ToDeviceRequest) : Queueing s (s.queueToDeviceRequests rs)
  | claim (c : Option (String × KeysClaimRequest)) : Queueing s (s.withClaim c)
  | accountQuery (id : String) (r : KeysQueryRequest) : Queueing s (s.queueAccountKeyQuery id r)
  | peerQuery (id : String) (r : KeysQueryRequest) : Queueing s (s.queuePeerKeyQuery id r)

/-! ### What a call does to the registry -/

theorem queueing_queueDeviceKeys (s : RequestState) (r : Option UpstreamOutgoingRequest) :
    ReflTransGen Queueing s (s.queueDeviceKeys r) := by
  cases r with
  | none => exact .refl
  | some r => exact .single (.action r)

theorem queueing_shareQueues (s : RequestState)
    (missing : Except Unit (Option (String × KeysClaimRequest)))
    (shared : Except Unit (List ToDeviceRequest)) (tracked : Except Unit Unit) :
    ReflTransGen Queueing s (s.shareQueues missing shared tracked).2 := by
  cases missing with
  | error _ => exact .refl
  | ok claim =>
    have hclaim : ReflTransGen Queueing s (s.withClaim claim) := .single (.claim claim)
    cases shared with
    | error _ => exact hclaim
    | ok rs => cases tracked <;> exact hclaim.tail (.toDevice rs)

/-- Everything a call can do to the registry. -/
inductive Effect (account : String) (s : RequestState) : Call → RequestState → Prop
  /-- It queues, or does nothing. -/
  | queues {c : Call} {t : RequestState} (h : ReflTransGen Queueing s t) : Effect account s c t
  /-- It is a create that queued a publication and the query after it. -/
  | publishes {trip : Option Publishing} (up : Publishing) (requests : BootstrapRequests) :
      Effect account s (.create trip)
        ((s.queuePublication up requests).queueAccountKeyQuery up.queryId up.query)
  /-- It is a take that handed a batch out. -/
  | drains {trip : Option Offered} {out : List OutgoingRequest} (fresh : List Fresh)
      (h : (s.takeOutgoingRequests account trip).1 = .ok out) :
      Effect account s (.take trip) (s.handedOut fresh)
  /-- It is a mark that succeeded. -/
  | settles {id body : String} {trip : Option Consumed} (answer : AnswerAboutAccount) :
      Effect account s (.markSent id body trip) (s.settle id answer)

/-- **Everything a call can do to the registry.** -/
theorem after_requests (P : Parsers) (account : String) (p : Process) (c : Call) :
    Effect account p.requests c (c.after P account p).requests := by
  cases c with
  | take trip =>
    cases hres : (p.requests.takeOutgoingRequests account trip).1 with
    | error e =>
      have hsame := RequestState.takeOutgoingRequests_error hres
      rw [Call.after, hsame]
      exact .queues .refl
    | ok out =>
      obtain ⟨o, prepared, rfl, -, hsec, heq⟩ := RequestState.takeOutgoingRequests_ok hres
      obtain ⟨fresh, -, -, hleft⟩ := RequestState.takeSection_ok hsec
      rw [Call.after, heq, hleft]
      exact .drains fresh hres
  | markSent id body trip =>
    cases hres : (markRequestSent P account p id body trip).1 with
    | error e =>
      rw [Call.after, markRequestSent_error hres]
      exact .queues .refl
    | ok _ =>
      obtain ⟨_, _, answer, -, -, -, -, heq⟩ := markRequestSent_ok hres
      rw [Call.after, heq]
      exact .settles answer
  | markFailed id status =>
    rw [Call.after, markRequestFailed_process]
    exact .queues .refl
  | bootstrap trip =>
    rw [Call.after]
    rcases bootstrapIdentity_requests p trip with h | ⟨id, r, h⟩ | ⟨up, requests, h⟩ <;> rw [h]
    · exact .queues .refl
    · exact .queues (.single (.accountQuery id r))
    · exact .queues ((queueing_queueDeviceKeys _ _).tail (.action _))
  | create trip =>
    rw [Call.after]
    rcases createIdentity_requests p trip with h | ⟨id, r, h⟩ | ⟨up, requests, h⟩ <;> rw [h]
    · exact .queues .refl
    · exact .queues (.single (.accountQuery id r))
    · exact .publishes up requests
  | queueAction r => exact .queues (.single (.action r))
  | queueToDevice rs => exact .queues (.single (.toDevice rs))
  | queueAccountQuery id r => exact .queues (.single (.accountQuery id r))
  | queuePeerQuery id r => exact .queues (.single (.peerQuery id r))
  | share missing shared tracked => exact .queues (queueing_shareQueues _ missing shared tracked)
  | upstream store => exact .queues .refl

/-! ### What the writes keep, the calls keep -/

/-- A property of the registry that no write breaks. -/
structure KeptByWrites (I : RequestState → Prop) : Prop where
  queue : ∀ {s t}, I s → Queueing s t → I t
  keys : ∀ {s} (id r), I s → I (s.queueSigningKeysRequest id r)
  settle : ∀ {s} (id answer), I s → I (s.settle id answer)

namespace KeptByWrites

variable {I : RequestState → Prop}

theorem queues (h : KeptByWrites I) {s t : RequestState} (hs : I s)
    (hst : ReflTransGen Queueing s t) : I t := by
  induction hst with
  | refl => exact hs
  | tail _ hstep ih => exact h.queue ih hstep

theorem publishes (h : KeptByWrites I) {s : RequestState} (hs : I s) (up : Publishing)
    (requests : BootstrapRequests) :
    I ((s.queuePublication up requests).queueAccountKeyQuery up.queryId up.query) := by
  have hdevice : I (s.queueDeviceKeys requests.uploadKeysReq) :=
    h.queues hs (queueing_queueDeviceKeys s _)
  have hkeys := h.keys up.signingKeysId requests.uploadSigningKeysReq hdevice
  exact h.queue (h.queue hkeys (.action (up.signatures requests))) (.accountQuery _ _)

/-- **What the writes keep, every call that drains nothing keeps**; a call that
drains keeps it too when handing out does. -/
theorem after (h : KeptByWrites I) {P : Parsers} {account : String} {p : Process} {c : Call}
    (hdrain : c.Drains account p → ∀ fresh, I (p.requests.handedOut fresh))
    (hp : I p.requests) : I (c.after P account p).requests := by
  have heffect := after_requests P account p c
  generalize (c.after P account p).requests = t at heffect
  cases heffect with
  | queues hq => exact h.queues hp hq
  | publishes up requests => exact h.publishes hp up requests
  | drains fresh hout => exact hdrain ⟨_, hout⟩ fresh
  | settles answer => exact h.settle _ _ hp

end KeptByWrites

/-! ### The registry's invariants -/

namespace RequestState

/-- Every stamp was given by the counter. -/
def Stamped (s : RequestState) : Prop := ∀ n i, QueuedAt s n i → n < s.nextSequence

/-- A publication waits only with a query behind it. -/
def SlotsPaired (s : RequestState) : Prop :=
  s.queuedSigningKeys ≠ none → s.queuedAccountQuery ≠ none

/-- Filling a slot keeps its stamp, or takes the counter's. -/
theorem slotStamp_lt {α : Type} {s : RequestState} {slot : Option (ℕ × α)}
    (h : ∀ n a, slot = some (n, a) → n < s.nextSequence) :
    (s.slotStamp slot).1 < (s.slotStamp slot).2 := by
  cases slot with
  | none => exact Nat.lt_succ_self _
  | some a => exact h a.1 a.2 rfl

theorem stamped_of_queues {s t : RequestState} (hs : s.Stamped)
    (hact : t.queuedAction = s.queuedAction) (hkeys : t.queuedSigningKeys = s.queuedSigningKeys)
    (hacc : t.queuedAccountQuery = s.queuedAccountQuery)
    (hnext : t.nextSequence = s.nextSequence) : t.Stamped := by
  intro n i h
  rw [hnext]
  exact hs n i (h.of_queues hact hkeys hacc)

theorem stamped_queueActionRequest {s : RequestState} (hs : s.Stamped)
    (r : UpstreamOutgoingRequest) : (s.queueActionRequest r).Stamped := by
  cases hrep : s.repeats r.requestId with
  | true => rw [queueActionRequest_of_repeats hrep]; exact hs
  | false =>
    rw [queueActionRequest_of_not_repeats hrep]
    intro n i h
    show n < s.nextSequence + 1
    cases h with
    | action h =>
      rcases List.mem_append.mp h with h | h
      · have := hs _ _ (.action h); omega
      · rw [List.mem_singleton, Prod.mk.injEq] at h
        omega
    | signingKeys h => have := hs _ _ (.signingKeys h); omega
    | accountQuery h => have := hs _ _ (.accountQuery h); omega

theorem stamped_queueSigningKeysRequest {s : RequestState} (hs : s.Stamped) (id : String)
    (r : UploadSigningKeysRequest) : (s.queueSigningKeysRequest id r).Stamped := by
  have hle := s.slotStamp_le s.queuedSigningKeys
  have hlt : (s.slotStamp s.queuedSigningKeys).1 < (s.slotStamp s.queuedSigningKeys).2 :=
    slotStamp_lt fun n a h => hs n a.1 (.signingKeys h)
  intro n i h
  show n < (s.slotStamp s.queuedSigningKeys).2
  cases h with
  | action h => have := hs _ _ (.action h); omega
  | signingKeys h =>
    have h' : some ((s.slotStamp s.queuedSigningKeys).1, id, r) = some (n, i, _) := h
    rw [Option.some.injEq, Prod.mk.injEq] at h'
    omega
  | accountQuery h => have := hs _ _ (.accountQuery h); omega

theorem stamped_queueAccountKeyQuery {s : RequestState} (hs : s.Stamped) (id : String)
    (r : KeysQueryRequest) : (s.queueAccountKeyQuery id r).Stamped := by
  have hle := s.slotStamp_le s.queuedAccountQuery
  have hlt : (s.slotStamp s.queuedAccountQuery).1 < (s.slotStamp s.queuedAccountQuery).2 :=
    slotStamp_lt fun n a h => hs n a.1 (.accountQuery h)
  intro n i h
  show n < (s.slotStamp s.queuedAccountQuery).2
  cases h with
  | action h => have := hs _ _ (.action h); omega
  | signingKeys h => have := hs _ _ (.signingKeys h); omega
  | accountQuery h =>
    have h' : some ((s.slotStamp s.queuedAccountQuery).1, id, r) = some (n, i, _) := h
    rw [Option.some.injEq, Prod.mk.injEq] at h'
    omega

theorem keptByWrites_stamped : KeptByWrites Stamped where
  queue := by
    intro s t hs h
    cases h with
    | action r => exact stamped_queueActionRequest hs r
    | toDevice rs =>
      rw [queueToDeviceRequests_eq]
      exact stamped_of_queues hs rfl rfl rfl rfl
    | claim c => cases c <;> exact stamped_of_queues hs rfl rfl rfl rfl
    | accountQuery id r => exact stamped_queueAccountKeyQuery hs id r
    | peerQuery id r => exact stamped_of_queues hs rfl rfl rfl rfl
  keys := fun id r hs => stamped_queueSigningKeysRequest hs id r
  settle := by
    intro s id answer hs
    rw [settle_eq]
    exact stamped_of_queues hs rfl rfl rfl rfl

theorem stamped_handedOut (s : RequestState) (fresh : List Fresh) : (s.handedOut fresh).Stamped :=
  fun _ _ h => absurd (.stamped h) not_carries_handedOut

theorem slotsPaired_of_queueing {s t : RequestState} (hs : s.SlotsPaired) (h : Queueing s t) :
    t.SlotsPaired := by
  unfold SlotsPaired at hs ⊢
  cases h with
  | action r =>
    rw [queueActionRequest_queuedSigningKeys, queueActionRequest_queuedAccountQuery]
    exact hs
  | toDevice rs => rw [queueToDeviceRequests_eq]; exact hs
  | claim c => cases c <;> exact hs
  | accountQuery id r => exact fun _ h => by cases h
  | peerQuery id r => exact hs

end RequestState

theorem stamped_of_reachable {P : Parsers} {account : String} {p : Process}
    (h : (process P account).Reachable p) : p.requests.Stamped := by
  refine h.invariant (I := fun p => p.requests.Stamped) ?_ ?_
  · intro p (hp : p.requests = .initial)
    rw [hp]
    intro n i h
    cases h with
    | action h => cases h
    | signingKeys h => cases h
    | accountQuery h => cases h
  · rintro p c q hp rfl
    exact RequestState.keptByWrites_stamped.after
      (fun _ fresh => RequestState.stamped_handedOut _ fresh) hp

theorem slotsPaired_of_reachable {P : Parsers} {account : String} {p : Process}
    (h : (process P account).Reachable p) : p.requests.SlotsPaired := by
  refine h.invariant (I := fun p => p.requests.SlotsPaired) ?_ ?_
  · intro p (hp : p.requests = .initial)
    rw [hp]
    exact fun h => absurd rfl h
  · rintro p c q hp rfl
    have heffect := after_requests P account p c
    show (c.after P account p).requests.SlotsPaired
    generalize (c.after P account p).requests = t at heffect
    cases heffect with
    | queues hq =>
      induction hq with
      | refl => exact hp
      | tail _ hstep ih => exact RequestState.slotsPaired_of_queueing ih hstep
    | publishes up requests => exact fun _ h => by cases h
    | drains fresh _ => exact fun h => absurd rfl h
    | settles answer => rw [RequestState.settle_eq]; exact hp

end MatrixCrypto
