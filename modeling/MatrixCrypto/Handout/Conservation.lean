import MatrixCrypto.Handout.Order

/-!
# The pump loses nothing, doubles nothing and adds nothing

What waits in the six queues, as one list; what each queueing section adds to it
and what it replaces; and the batch, which is what upstream offered and what
waited, each once.

## Main definitions

* `Queued`, `waits` — what waits, in the order a batch is built of it.
* `queues`, `fills` — what a section queues, and the single slots it fills.
* `Source`, `Sourced` — where an id comes from.
* `Conserved` — what a batch is, and what it leaves.

## Main results

* `mem_waits_after` — what waits after a section.
* `map_collect`, `perm_handOut` — **a batch is what was offered and what waited.**
* `nodup_offered_waits` — no id twice, when ids of different sources differ.
* `take_conserves` — the whole, for every run that queues and then hands out.
-/

namespace MatrixCrypto

open Lib

/-! ### What waits -/

/-- The queues that hold one entry at most. -/
inductive Slot
  | claim
  | signingKeys
  | accountQuery
  deriving DecidableEq, Repr

/-- Something that waits, or is queued: its slot if it has one, its id and its
kind. -/
structure Queued where
  slot : Option Slot
  id : String
  kind : PendingKind
  deriving DecidableEq, Repr

/-- The id and the kind. -/
def Queued.label (q : Queued) : String × PendingKind := (q.id, q.kind)

/-- The id and the kind. -/
def Entry.label (e : Entry) : String × PendingKind := (e.id, e.kind)

/-- The id and the kind. -/
def Fresh.label (f : Fresh) : String × PendingKind := (f.id, f.kind)

namespace Queued

/-- A to-device request. -/
def toDevice (id : String) : Queued := ⟨none, id, .toDevice⟩

/-- A claim. -/
def claim (id : String) : Queued := ⟨some .claim, id, .keysClaim⟩

/-- An out-of-band query about the account. -/
def accountQuery (id : String) : Queued := ⟨some .accountQuery, id, .accountKeysQueryOutOfBand⟩

/-- A publication of the signing keys. -/
def signingKeys (id : String) : Queued := ⟨some .signingKeys, id, .signingKeysUpload⟩

/-- An out-of-band query about another person. -/
def peerQuery (id : String) : Queued := ⟨none, id, .peerKeysQueryOutOfBand⟩

/-- A request upstream handed back to its caller. -/
def action (account : String) (r : UpstreamOutgoingRequest) : Queued :=
  ⟨none, r.requestId, r.kindFor account⟩

@[simp] theorem toDevice_slot (i : String) : (toDevice i).slot = none := rfl

@[simp] theorem claim_slot (i : String) : (claim i).slot = some .claim := rfl

@[simp] theorem accountQuery_slot (i : String) : (accountQuery i).slot = some .accountQuery := rfl

@[simp] theorem signingKeys_slot (i : String) : (signingKeys i).slot = some .signingKeys := rfl

@[simp] theorem peerQuery_slot (i : String) : (peerQuery i).slot = none := rfl

@[simp] theorem action_slot (account : String) (r : UpstreamOutgoingRequest) :
    (action account r).slot = none := rfl

end Queued

/-- What waits, in the order a batch is built of it. -/
def RequestState.waits (account : String) (s : RequestState) : List Queued :=
  s.queuedToDevice.entries.map (fun e => .toDevice e.1) ++
    (s.pendingClaim.toList.map (fun e => .claim e.1) ++
      (s.queuedAccountQuery.toList.map (fun e => .accountQuery e.2.1) ++
        (s.queuedSigningKeys.toList.map (fun e => .signingKeys e.2.1) ++
          (s.queuedPeerQueries.map (fun e => .peerQuery e.1) ++
            s.queuedAction.map fun e => .action account e.2))))

namespace RegistrySection

/-- What a section queues; an action that repeats an id is not queued again. -/
def queues (account : String) (s : RequestState) : RegistrySection → List Queued
  | queueAction r => if s.repeats r.requestId then [] else [.action account r]
  | queueToDevice rs => rs.map fun r => .toDevice r.txnId
  | queueSigningKeys id _ => [.signingKeys id]
  | queueAccountQuery id _ => [.accountQuery id]
  | queuePeerQuery id _ => [.peerQuery id]
  | share missing shared _ =>
    match missing with
    | .error _ => []
    | .ok claim => claim.toList.map (fun c => .claim c.1) ++
      match shared with
      | .error _ => []
      | .ok rs => rs.map fun r => .toDevice r.txnId
  | take _ | mark _ _ => []

/-- The single slots a section fills, over what they held. -/
def fills : RegistrySection → List Slot
  | queueSigningKeys _ _ => [.signingKeys]
  | queueAccountQuery _ _ => [.accountQuery]
  | share (.ok (some _)) _ _ => [.claim]
  | _ => []

/-- The section is one of the six that queue. -/
def isQueueing : RegistrySection → Bool
  | take _ | mark _ _ => false
  | _ => true

/-- The section fills the slot this waits in. -/
def Replaces (c : RegistrySection) (q : Queued) : Prop := ∃ slot ∈ c.fills, q.slot = some slot

end RegistrySection

namespace RequestState

variable {s t : RequestState} {account : String} {q : Queued}

/-! ### What waits after a section -/

theorem mem_waits_queueActionRequest {r : UpstreamOutgoingRequest} :
    q ∈ (s.queueActionRequest r).waits account ↔
      (s.repeats r.requestId = false ∧ q = .action account r) ∨ q ∈ s.waits account := by
  cases hrep : s.repeats r.requestId with
  | true =>
    rw [queueActionRequest_of_repeats hrep]
    simp
  | false =>
    rw [queueActionRequest_of_not_repeats hrep]
    simp only [waits, List.map_append, List.mem_append, List.map_cons, List.map_nil,
      List.mem_singleton, true_and]
    tauto

theorem mem_queueToDeviceRequests {rs : List ToDeviceRequest} {i : String} :
    ∀ {s : RequestState}, (∃ r, (s.queueToDeviceRequests rs).queuedToDevice.get? i = some r) ↔
      (∃ r ∈ rs, r.txnId = i) ∨ ∃ r, s.queuedToDevice.get? i = some r := by
  induction rs with
  | nil => intro s; simp [queueToDeviceRequests]
  | cons r rs ih =>
    intro s
    have h := @ih (s.queueToDevice r)
    rw [queueToDeviceRequests, List.foldl_cons]
    rw [queueToDeviceRequests] at h
    rw [h, queueToDevice, List.exists_mem_cons_iff, or_assoc, or_left_comm]
    refine or_congr_right ?_
    rw [OrdMap.get?_insert]
    split
    · next hi => simp [hi]
    · next hi => simp [Ne.symm hi]

theorem mem_waits_queueToDeviceRequests {rs : List ToDeviceRequest} :
    q ∈ (s.queueToDeviceRequests rs).waits account ↔
      (∃ r ∈ rs, Queued.toDevice r.txnId = q) ∨ q ∈ s.waits account := by
  have hkeys : ∀ m : OrdMap String ToDeviceRequest,
      q ∈ m.entries.map (fun e => Queued.toDevice e.1) ↔
        ∃ i, Queued.toDevice i = q ∧ ∃ r, m.get? i = some r := by
    intro m
    simp only [List.mem_map, Prod.exists, OrdMap.get?_eq_some]
    exact ⟨fun ⟨i, r, h, hq⟩ => ⟨i, hq, r, h⟩, fun ⟨i, hq, r, h⟩ => ⟨i, r, h, hq⟩⟩
  rw [queueToDeviceRequests_eq]
  simp only [waits, List.mem_append]
  rw [hkeys, hkeys]
  refine Iff.trans (or_congr_left ?_) or_assoc
  simp only [mem_queueToDeviceRequests]
  constructor
  · rintro ⟨i, hq, ⟨r, hr, rfl⟩ | h⟩
    · exact Or.inl ⟨r, hr, hq⟩
    · exact Or.inr ⟨i, hq, h⟩
  · rintro (⟨r, hr, hq⟩ | ⟨i, hq, h⟩)
    · exact ⟨_, hq, Or.inl ⟨r, hr, rfl⟩⟩
    · exact ⟨i, hq, Or.inr h⟩

/-- Filling a slot puts its entry in the place of the one that was there. -/
theorem mem_fill {before old behind : List Queued} {x : Queued} {slot : Slot}
    (hbefore : ∀ y ∈ before, y.slot ≠ some slot) (hold : ∀ y ∈ old, y.slot = some slot)
    (hbehind : ∀ y ∈ behind, y.slot ≠ some slot) :
    q ∈ before ++ ([x] ++ behind) ↔
      q = x ∨ (q ∈ before ++ (old ++ behind) ∧ q.slot ≠ some slot) := by
  simp only [List.mem_append, List.mem_singleton]
  constructor
  · rintro (h | h | h)
    · exact Or.inr ⟨Or.inl h, hbefore q h⟩
    · exact Or.inl h
    · exact Or.inr ⟨Or.inr (Or.inr h), hbehind q h⟩
  · rintro (h | ⟨h | h | h, hne⟩)
    · exact Or.inr (Or.inl h)
    · exact Or.inl h
    · exact absurd (hold q h) hne
    · exact Or.inr (Or.inr h)

theorem mem_waits_withClaim {c : String × KeysClaimRequest} :
    q ∈ (s.withClaim (some c)).waits account ↔
      q = .claim c.1 ∨ (q ∈ s.waits account ∧ q.slot ≠ some .claim) := by
  refine mem_fill ?_ ?_ ?_
  · simp only [List.forall_mem_map]
    simp
  · simp only [List.forall_mem_map]
    simp
  · simp only [List.forall_mem_append, List.forall_mem_map]
    simp

theorem mem_waits_queueAccountKeyQuery {id : String} {r : KeysQueryRequest} :
    q ∈ (s.queueAccountKeyQuery id r).waits account ↔
      q = .accountQuery id ∨ (q ∈ s.waits account ∧ q.slot ≠ some .accountQuery) := by
  have h := @mem_fill q (s.queuedToDevice.entries.map (fun e => .toDevice e.1) ++
      s.pendingClaim.toList.map fun e => .claim e.1)
    (s.queuedAccountQuery.toList.map fun e => .accountQuery e.2.1)
    (s.queuedSigningKeys.toList.map (fun e => .signingKeys e.2.1) ++
      (s.queuedPeerQueries.map (fun e => .peerQuery e.1) ++
        s.queuedAction.map fun e => .action account e.2)) (.accountQuery id) .accountQuery
    (by simp only [List.forall_mem_append, List.forall_mem_map]; simp)
    (by simp only [List.forall_mem_map]; simp)
    (by simp only [List.forall_mem_append, List.forall_mem_map]; simp)
  rw [List.append_assoc, List.append_assoc] at h
  exact h

theorem mem_waits_queueSigningKeysRequest {id : String} {r : UploadSigningKeysRequest} :
    q ∈ (s.queueSigningKeysRequest id r).waits account ↔
      q = .signingKeys id ∨ (q ∈ s.waits account ∧ q.slot ≠ some .signingKeys) := by
  have h := @mem_fill q (s.queuedToDevice.entries.map (fun e => .toDevice e.1) ++
      (s.pendingClaim.toList.map (fun e => .claim e.1) ++
        s.queuedAccountQuery.toList.map fun e => .accountQuery e.2.1))
    (s.queuedSigningKeys.toList.map fun e => .signingKeys e.2.1)
    (s.queuedPeerQueries.map (fun e => .peerQuery e.1) ++
      s.queuedAction.map fun e => .action account e.2) (.signingKeys id) .signingKeys
    (by simp only [List.forall_mem_append, List.forall_mem_map]; simp)
    (by simp only [List.forall_mem_map]; simp)
    (by simp only [List.forall_mem_append, List.forall_mem_map]; simp)
  rw [List.append_assoc, List.append_assoc, List.append_assoc, List.append_assoc] at h
  exact h

theorem mem_waits_queuePeerKeyQuery {id : String} {r : KeysQueryRequest} :
    q ∈ (s.queuePeerKeyQuery id r).waits account ↔
      q = .peerQuery id ∨ q ∈ s.waits account := by
  simp only [waits, queuePeerKeyQuery, List.map_append, List.mem_append, List.map_cons,
    List.map_nil, List.mem_singleton]
  tauto

/-- **What waits after a section that queues**: what it queues, and what waited
and is not replaced. -/
theorem mem_waits_after {c : RegistrySection} (hc : c.isQueueing = true) :
    q ∈ (c.after account s).waits account ↔
      q ∈ c.queues account s ∨ (q ∈ s.waits account ∧ ¬ c.Replaces q) := by
  have hfree : c.fills = [] → ¬ c.Replaces q := by
    rintro h ⟨slot, hslot, -⟩
    rw [h] at hslot
    cases hslot
  cases c with
  | queueAction r =>
    rw [RegistrySection.after, mem_waits_queueActionRequest, RegistrySection.queues,
      and_iff_left (hfree rfl)]
    refine or_congr_left ?_
    cases s.repeats r.requestId <;> simp
  | queueToDevice rs =>
    rw [RegistrySection.after, mem_waits_queueToDeviceRequests, RegistrySection.queues,
      and_iff_left (hfree rfl), List.mem_map]
  | queueSigningKeys id r =>
    rw [RegistrySection.after, mem_waits_queueSigningKeysRequest]
    simp [RegistrySection.queues, RegistrySection.Replaces, RegistrySection.fills]
  | queueAccountQuery id r =>
    rw [RegistrySection.after, mem_waits_queueAccountKeyQuery]
    simp [RegistrySection.queues, RegistrySection.Replaces, RegistrySection.fills]
  | queuePeerQuery id r =>
    rw [RegistrySection.after, mem_waits_queuePeerKeyQuery, RegistrySection.queues,
      and_iff_left (hfree rfl), List.mem_singleton]
  | share missing shared tracked =>
    -- the claim is queued first, then the to-device requests, as far as it got
    have hclaim : ∀ claim : Option (String × KeysClaimRequest),
        q ∈ (s.withClaim claim).waits account ↔ q ∈ claim.toList.map (fun c => .claim c.1) ∨
          (q ∈ s.waits account ∧
            ¬ (RegistrySection.share (.ok claim) shared tracked).Replaces q) := by
      intro claim
      cases claim with
      | none => simp [withClaim, RegistrySection.Replaces, RegistrySection.fills]
      | some c =>
        rw [mem_waits_withClaim]
        simp [RegistrySection.Replaces, RegistrySection.fills]
    cases missing with
    | error _ =>
      rw [and_iff_left (hfree rfl)]
      simp [RegistrySection.after, shareQueues, RegistrySection.queues]
    | ok claim =>
      cases shared with
      | error _ =>
        simp only [RegistrySection.after, shareQueues, RegistrySection.queues, List.append_nil]
        exact hclaim claim
      | ok rs =>
        have hboth : (RegistrySection.share (.ok claim) (.ok rs) tracked).after account s =
            (s.withClaim claim).queueToDeviceRequests rs := by
          cases tracked <;> rfl
        rw [hboth, mem_waits_queueToDeviceRequests, hclaim]
        simp only [RegistrySection.queues, List.mem_append, List.mem_map]
        exact or_left_comm.trans or_assoc.symm
  | take trip => cases hc
  | mark id settled => cases hc

/-- No section leaves anything waiting that it did not queue and that did not wait. -/
theorem mem_waits_of_after {c : RegistrySection}
    (h : q ∈ (c.after account s).waits account) : q ∈ c.queues account s ∨ q ∈ s.waits account := by
  cases hc : c.isQueueing with
  | true =>
    rcases (mem_waits_after hc).mp h with h | h
    · exact Or.inl h
    · exact Or.inr h.1
  | false =>
    cases c with
    | take trip =>
      rcases RegistrySection.after_take account s trip with ⟨_, _, fresh, -, -, -, hleft⟩ | hsame
      · rw [hleft] at h
        simp [waits, handedOut] at h
      · rw [hsame] at h
        exact Or.inr h
    | mark id settled =>
      cases settled with
      | error _ => exact Or.inr h
      | ok answer =>
        rw [RegistrySection.after, settle_eq] at h
        exact Or.inr h
    | _ => cases hc

/-! ### The batch -/

variable {prepared fresh : List Fresh}

/-- **What is collected is what was prepared and what waited**, in that order. -/
theorem map_collect (h : s.collect account prepared = .ok fresh) :
    fresh.map Fresh.label = prepared.map Fresh.label ++ (s.waits account).map Queued.label := by
  obtain ⟨toDevice, claim, accountQuery, signingKeys, peerQueries, action, h₁, h₂, h₃, h₄, h₅, h₆,
    rfl⟩ := collect_eq_ok h
  -- each queue's entries carry its ids and its kind
  have rendered : ∀ {α β : Type} {l : List α} {ys : List Fresh} {d : α → Except SessionError β}
      {k : α → β → Fresh} {g : α → Queued}, (l.mapM fun x => (d x).map (k x)) = .ok ys →
        (∀ x b, (k x b).label = (g x).label) → ys.map Fresh.label = (l.map g).map Queued.label := by
    intro α β l ys d k g h hk
    rw [List.map_map]
    refine map_of_mapM h fun x y hxy => ?_
    obtain ⟨b, -, rfl⟩ := map_eq_ok.mp hxy
    exact hk x b
  simp only [waits, List.map_append, List.append_assoc]
  rw [rendered h₁ (g := fun e => .toDevice e.1) fun _ _ => rfl,
    rendered h₂ (g := fun e => .claim e.1) fun _ _ => rfl,
    rendered h₃ (g := fun e => .accountQuery e.2.1) fun _ _ => rfl,
    rendered h₄ (g := fun e => .signingKeys e.2.1) fun _ _ => rfl,
    rendered h₅ (g := fun e => .peerQuery e.1) fun _ _ => rfl]
  have haction : action.map Fresh.label =
      (s.queuedAction.map fun e => Queued.action account e.2).map Queued.label := by
    rw [List.map_map]
    refine map_of_mapM h₆ fun q f hf => ?_
    obtain ⟨-, hid, hkind⟩ := freshOf_eq hf
    exact Prod.ext hid hkind
  rw [haction]

theorem map_stamp {pending : OrdMap String Pending} (fs : List Fresh) : ∀ n,
    (stamp pending n fs).1.map Entry.label = fs.map Fresh.label := by
  induction fs with
  | nil => intro n; rfl
  | cons f fs ih =>
    intro n
    simp only [stamp]
    split
    · rw [List.map_cons, ih, List.map_cons]
      rfl
    · rw [List.map_cons, ih, List.map_cons]
      rfl

/-- **A batch is what was prepared and what waited, each once.** -/
theorem perm_handOut (h : s.collect account prepared = .ok fresh) :
    ((s.handOut fresh).map Entry.label).Perm
      (prepared.map Fresh.label ++ (s.waits account).map Queued.label) := by
  have hperm := (perm_sortByKey Entry.sequence (stamp s.pending s.nextSequence fresh).1).map
    Entry.label
  rw [map_stamp, map_collect h] at hperm
  exact hperm

end RequestState

/-- What a trip offers, as it is handed out. -/
def Offered.labels (account : String) (o : Offered) : List (String × PendingKind) :=
  (o.upstream.toOption.getD []).map (fun r => (r.requestId, r.kindFor account)) ++
    o.backupBatch.toList.map fun b => (b.1, .roomKeyBackup)

/-- What is prepared is what was offered. -/
theorem map_prepare {account : String} {o : Offered} {prepared : List Fresh}
    (h : prepare account o = .ok prepared) : prepared.map Fresh.label = o.labels account := by
  obtain ⟨rs, upstream, backup, hrs, h₁, h₂, rfl⟩ := prepare_eq_ok h
  rw [List.map_append, Offered.labels, hrs]
  have hupstream : upstream.map Fresh.label =
      rs.map fun r => (r.requestId, r.kindFor account) := by
    refine map_of_mapM h₁ fun r f hf => ?_
    obtain ⟨-, hid, hkind⟩ := freshOf_eq hf
    exact Prod.ext hid hkind
  have hbackup : backup.map Fresh.label =
      o.backupBatch.toList.map fun b => (b.1, .roomKeyBackup) := by
    refine map_of_mapM h₂ fun b f hf => ?_
    obtain ⟨_, _, rfl⟩ := map_eq_ok.mp hf
    rfl
  rw [hupstream, hbackup]
  rfl

/-! ### Where ids come from -/

/-- The sources of ids. -/
inductive Source
  /-- `outgoing_requests`. -/
  | outgoing
  /-- The pending backup batch. -/
  | backup
  /-- `share_room_key`, and what history is shared with. -/
  | toDevice
  /-- `get_missing_sessions`. -/
  | claim
  /-- `query_keys_for_users`, about the account. -/
  | accountQuery
  /-- `TransactionId::new`, for a publication. -/
  | signingKeys
  /-- `query_keys_for_users`, about another person. -/
  | peerQuery
  /-- What upstream returns to its caller. -/
  | action
  deriving DecidableEq, Repr

/-- Every id a section is given comes from the section's source, and one answer
of `outgoing_requests` names no id twice. -/
def RegistrySection.Sourced (src : String → Source) : RegistrySection → Prop
  | queueAction r => src r.requestId = .action
  | queueToDevice rs => ∀ r ∈ rs, src r.txnId = .toDevice
  | queueSigningKeys id _ => src id = .signingKeys
  | queueAccountQuery id _ => src id = .accountQuery
  | queuePeerQuery id _ => src id = .peerQuery
  | share missing shared _ => (∀ c, missing = .ok (some c) → src c.1 = .claim) ∧
      ∀ rs, shared = .ok rs → ∀ r ∈ rs, src r.txnId = .toDevice
  | take trip => ∀ o, trip = some o →
      (∀ rs, o.upstream = .ok rs →
        (∀ r ∈ rs, src r.requestId = .outgoing) ∧ (rs.map (·.requestId)).Nodup) ∧
      ∀ b, o.backupBatch = some b → src b.1 = .backup
  | mark _ _ => True

namespace RequestState

/-- What waits comes from its queue's source, each once. -/
structure Known (src : String → Source) (s : RequestState) : Prop where
  toDevice : ∀ e ∈ s.queuedToDevice.entries, src e.1 = .toDevice
  claim : ∀ e ∈ s.pendingClaim, src e.1 = .claim
  accountQuery : ∀ e ∈ s.queuedAccountQuery, src e.2.1 = .accountQuery
  signingKeys : ∀ e ∈ s.queuedSigningKeys, src e.2.1 = .signingKeys
  peers : ∀ e ∈ s.queuedPeerQueries, src e.1 = .peerQuery
  peersNodup : (s.queuedPeerQueries.map Prod.fst).Nodup
  action : ∀ e ∈ s.queuedAction, src e.2.requestId = .action
  actionNodup : (s.queuedAction.map fun e => e.2.requestId).Nodup

variable {src : String → Source} {s : RequestState} {account : String}

theorem known_initial (src : String → Source) : initial.Known src := by
  constructor <;> simp [initial]

theorem known_handedOut (src : String → Source) (s : RequestState) (fresh : List Fresh) :
    (s.handedOut fresh).Known src := by
  constructor <;> simp [handedOut]

theorem Known.queueToDeviceRequests (hs : s.Known src) {rs : List ToDeviceRequest}
    (hrs : ∀ r ∈ rs, src r.txnId = .toDevice) : (s.queueToDeviceRequests rs).Known src := by
  have hkeys : ∀ e ∈ (s.queueToDeviceRequests rs).queuedToDevice.entries,
      src e.1 = .toDevice := by
    intro e he
    rcases get?_queueToDeviceRequests (OrdMap.get?_eq_some.mpr he) with h | ⟨hr, hid⟩
    · exact hs.toDevice e (OrdMap.get?_eq_some.mp h)
    · exact hid ▸ hrs _ hr
  rw [queueToDeviceRequests_eq]
  exact { hs with toDevice := hkeys }

theorem Known.withClaim (hs : s.Known src) {claim : Option (String × KeysClaimRequest)}
    (hc : ∀ c, claim = some c → src c.1 = .claim) : (s.withClaim claim).Known src := by
  cases claim with
  | none => exact hs
  | some c => exact { hs with claim := fun e he => hc e he }

/-- A list of waiting requests whose ids differ, with one more whose id is new. -/
theorem nodup_map_append {α : Type} {l : List α} {id : α → String} (h : (l.map id).Nodup) {a : α}
    (ha : ∀ b ∈ l, id b ≠ id a) : ((l ++ [a]).map id).Nodup := by
  rw [List.map_append, List.nodup_append]
  refine ⟨h, List.nodup_singleton _, fun i hi j hj heq => ?_⟩
  obtain ⟨b, hb, rfl⟩ := List.mem_map.mp hi
  rw [List.map_cons, List.map_nil, List.mem_singleton] at hj
  exact ha b hb (heq.trans hj)

theorem Known.queueActionRequest (hs : s.Known src) {r : UpstreamOutgoingRequest}
    (hr : src r.requestId = .action) : (s.queueActionRequest r).Known src := by
  cases hrep : s.repeats r.requestId with
  | true =>
    rw [queueActionRequest_of_repeats hrep]
    exact hs
  | false =>
    rw [queueActionRequest_of_not_repeats hrep]
    have hfresh := (repeats_eq_false.mp hrep).1
    refine { hs with
      action := fun e he => ?_
      actionNodup := nodup_map_append hs.actionNodup fun e he => hfresh e.1 e.2 he }
    rcases List.mem_append.mp he with he | he
    · exact hs.action e he
    · rw [List.mem_singleton.mp he]
      exact hr

theorem Known.queuePeerKeyQuery (hs : s.Known src) {id : String} {r : KeysQueryRequest}
    (hid : src id = .peerQuery) (hnew : ¬ s.Carries id) : (s.queuePeerKeyQuery id r).Known src := by
  have hfresh : ∀ e ∈ s.queuedPeerQueries, e.1 ≠ id := fun e he heq =>
    hnew (heq ▸ Carries.peerQuery he)
  refine { hs with
    peers := fun e he => ?_
    peersNodup := nodup_map_append hs.peersNodup hfresh }
  rcases List.mem_append.mp he with he | he
  · exact hs.peers e he
  · rw [List.mem_singleton.mp he]
    exact hid

theorem known_after {c : RegistrySection} (hs : s.Known src) (hnew : MintsNew s c)
    (hc : c.Sourced src) : (c.after account s).Known src := by
  cases c with
  | queueAction r => exact hs.queueActionRequest hc
  | queueToDevice rs => exact hs.queueToDeviceRequests hc
  | queueSigningKeys id r =>
    refine { hs with signingKeys := fun e he => ?_ }
    rw [← Option.some.inj he]
    exact hc
  | queueAccountQuery id r =>
    refine { hs with accountQuery := fun e he => ?_ }
    rw [← Option.some.inj he]
    exact hc
  | queuePeerQuery id r =>
    exact hs.queuePeerKeyQuery hc (hnew id (List.mem_singleton_self id)).1
  | share missing shared tracked =>
    cases missing with
    | error _ => exact hs
    | ok claim =>
      have hclaim : (s.withClaim claim).Known src :=
        hs.withClaim fun c h => hc.1 c (by rw [h])
      cases shared with
      | error _ => exact hclaim
      | ok rs => cases tracked <;> exact hclaim.queueToDeviceRequests (hc.2 rs rfl)
  | take trip =>
    rcases RegistrySection.after_take account s trip with ⟨_, _, fresh, -, -, -, hleft⟩ | hsame
    · rw [hleft]
      exact known_handedOut src s fresh
    · rw [hsame]
      exact hs
  | mark id settled =>
    cases settled with
    | error _ => exact hs
    | ok answer =>
      rw [RegistrySection.after, settle_eq]
      exact { hs with }

/-! ### No id twice -/

/-- The ids a batch is built of, source by source. -/
def idsOf (o : Offered) (s : RequestState) : Source → List String
  | .outgoing => (o.upstream.toOption.getD []).map (·.requestId)
  | .backup => o.backupBatch.toList.map Prod.fst
  | .toDevice => s.queuedToDevice.entries.map Prod.fst
  | .claim => s.pendingClaim.toList.map Prod.fst
  | .accountQuery => s.queuedAccountQuery.toList.map fun e => e.2.1
  | .signingKeys => s.queuedSigningKeys.toList.map fun e => e.2.1
  | .peerQuery => s.queuedPeerQueries.map Prod.fst
  | .action => s.queuedAction.map fun e => e.2.requestId

variable {o : Offered}

theorem source_of_mem_idsOf (hs : s.Known src)
    (ho : RegistrySection.Sourced src (.take (some o))) {k : Source} {i : String}
    (hi : i ∈ idsOf o s k) : src i = k := by
  obtain ⟨hout, hbackup⟩ := ho o rfl
  cases k with
  | outgoing =>
    obtain ⟨r, hr, rfl⟩ := List.mem_map.mp hi
    cases hu : o.upstream with
    | error _ => rw [hu] at hr; cases hr
    | ok rs => rw [hu] at hr; exact (hout rs hu).1 r hr
  | backup =>
    obtain ⟨b, hb, rfl⟩ := List.mem_map.mp hi
    exact hbackup b (Option.mem_toList.mp hb)
  | toDevice =>
    obtain ⟨e, he, rfl⟩ := List.mem_map.mp hi
    exact hs.toDevice e he
  | claim =>
    obtain ⟨e, he, rfl⟩ := List.mem_map.mp hi
    exact hs.claim e (Option.mem_toList.mp he)
  | accountQuery =>
    obtain ⟨e, he, rfl⟩ := List.mem_map.mp hi
    exact hs.accountQuery e (Option.mem_toList.mp he)
  | signingKeys =>
    obtain ⟨e, he, rfl⟩ := List.mem_map.mp hi
    exact hs.signingKeys e (Option.mem_toList.mp he)
  | peerQuery =>
    obtain ⟨e, he, rfl⟩ := List.mem_map.mp hi
    exact hs.peers e he
  | action =>
    obtain ⟨e, he, rfl⟩ := List.mem_map.mp hi
    exact hs.action e he

theorem nodup_idsOf (hs : s.Known src) (ho : RegistrySection.Sourced src (.take (some o)))
    (k : Source) : (idsOf o s k).Nodup := by
  have slot : ∀ {α : Type} (x : Option α) (f : α → String), (x.toList.map f).Nodup := by
    intro α x f
    cases x <;> simp
  cases k with
  | outgoing =>
    cases hu : o.upstream with
    | error _ => simp [idsOf, hu, Except.toOption]
    | ok rs =>
      have hnodup := (((ho o rfl).1) rs hu).2
      simpa only [idsOf, hu, Except.toOption, Option.getD_some] using hnodup
  | backup => exact slot _ _
  | toDevice =>
    exact List.pairwise_map.mpr (s.queuedToDevice.sorted.imp fun hlt => ne_of_lt hlt)
  | claim => exact slot _ _
  | accountQuery => exact slot _ _
  | signingKeys => exact slot _ _
  | peerQuery => exact hs.peersNodup
  | action => exact hs.actionNodup

/-- **No id twice**, where ids of different sources differ. -/
theorem nodup_offered_waits (hs : s.Known src)
    (ho : RegistrySection.Sourced src (.take (some o))) :
    ((o.labels account ++ (s.waits account).map Queued.label).map Prod.fst).Nodup := by
  have hids : (o.labels account ++ (s.waits account).map Queued.label).map Prod.fst =
      [Source.outgoing, .backup, .toDevice, .claim, .accountQuery, .signingKeys, .peerQuery,
        .action].flatMap (idsOf o s) := by
    simp only [Offered.labels, waits, List.map_append, List.map_map, List.flatMap_cons,
      List.flatMap_nil, List.append_nil, List.append_assoc]
    rfl
  rw [hids, List.nodup_flatMap]
  have hsources : [Source.outgoing, .backup, .toDevice, .claim, .accountQuery, .signingKeys,
      .peerQuery, .action].Nodup := by decide
  refine ⟨fun k _ => nodup_idsOf hs ho k, hsources.imp fun hne => ?_⟩
  intro i hi hj
  exact hne ((source_of_mem_idsOf hs ho hi).symm.trans (source_of_mem_idsOf hs ho hj))

/-- Recording a batch with no id twice gives every id its own kind and number. -/
theorem get?_record_of_nodup {batch : List Entry} (hnodup : (batch.map Entry.id).Nodup) {e : Entry}
    (he : e ∈ batch) (pending : OrdMap String Pending) :
    (record batch pending).get? e.id = some ⟨e.kind, e.sequence⟩ := by
  obtain ⟨p, hp⟩ := Option.ne_none_iff_exists'.mp
    (record_isSome pending (Or.inr ⟨e, he, rfl⟩))
  rcases get?_record pending hp with ⟨e', he', hid, rfl⟩ | ⟨-, hnot⟩
  · have heq : e' = e := List.inj_on_of_nodup_map hnodup he' he hid
    rw [hp, heq]
  · exact absurd rfl (hnot e he)

end RequestState

/-! ### Queueing, and then handing out -/

/-- The registry when ids come from their sources and minted ones are new. -/
abbrev sourcedRegistry (account : String) (src : String → Source) :
    TransitionSystem RequestState RegistrySection :=
  (registry account).restrict fun s c => MintsNew s c ∧ c.Sourced src

/-- The section queued this at that point of the run. -/
def QueuedIn (account : String) (s : RequestState) (cs₁ : List RegistrySection)
    (c : RegistrySection) (q : Queued) : Prop :=
  ∃ t, (registry account).Run s cs₁ t ∧ q ∈ c.queues account t

/-- What a batch is, and what it leaves, when the sections `cs` queued after the
sections `cs₀` had led to the registry `s`. -/
structure Conserved (account : String) (cs₀ : List RegistrySection) (s : RequestState)
    (cs : List RegistrySection) (o : Offered) (after : RequestState) (batch : List Entry) :
    Prop where
  /-- No id appears twice. -/
  nodup : (batch.map Entry.id).Nodup
  /-- What the sections queued and did not replace appears once. -/
  queued : ∀ cs₁ c cs₂ q, cs = cs₁ ++ c :: cs₂ → QueuedIn account s cs₁ c q →
    (∀ c' ∈ cs₂, ¬ c'.Replaces q) → (batch.map Entry.label).count q.label = 1
  /-- So does what waited before and was not replaced. -/
  waited : ∀ q ∈ s.waits account, (∀ c ∈ cs, ¬ c.Replaces q) →
    (batch.map Entry.label).count q.label = 1
  /-- An action whose id repeats one is that one: it appears once, or it was handed
  out before and is unresolved. -/
  actions : ∀ r, .queueAction r ∈ cs →
    (batch.map Entry.id).count r.requestId = 1 ∨ s.pending.get? r.requestId ≠ none
  /-- What upstream offered appears once. -/
  offered : ∀ l ∈ o.labels account, (batch.map Entry.label).count l = 1
  /-- There is nothing else. -/
  nothingElse : ∀ e ∈ batch, e.label ∈ o.labels account ∨
    ∃ cs₁ c cs₂ q, cs₀ ++ cs = cs₁ ++ c :: cs₂ ∧ QueuedIn account .initial cs₁ c q ∧
      q.label = e.label
  /-- Nothing waits any more. -/
  drained : after.queuedToDevice = .empty ∧ after.pendingClaim = none ∧ after.queuedAction = [] ∧
    after.queuedSigningKeys = none ∧ after.queuedAccountQuery = none ∧
      after.queuedPeerQueries = []
  /-- Every id is pending, under the kind its response is parsed as. -/
  pending : ∀ e ∈ batch, after.pending.get? e.id = some ⟨e.kind, e.sequence⟩

theorem known_of_run {account : String} {src : String → Source} {s t : RequestState}
    {cs : List RegistrySection} (h : (sourcedRegistry account src).Run s cs t)
    (hs : s.Known src) : t.Known src := by
  refine h.invariant (I := RequestState.Known src) ?_ hs
  rintro s c t hs ⟨⟨hnew, hc⟩, rfl⟩
  exact RequestState.known_after hs hnew hc

/-- What waits and is not replaced waits on. -/
theorem mem_waits_of_run {account : String} {s t : RequestState} {cs : List RegistrySection}
    {q : Queued} (h : (registry account).Run s cs t)
    (hcs : ∀ c ∈ cs, c.isQueueing = true ∧ ¬ c.Replaces q) (hq : q ∈ s.waits account) :
    q ∈ t.waits account := by
  induction h with
  | nil => exact hq
  | @snoc t u as c hrun hstep ih =>
    obtain ⟨hc, hkept⟩ := hcs c (List.mem_append_right _ (List.mem_singleton_self c))
    have hu : u = c.after account t := hstep
    subst hu
    have hq := ih fun c' hc' => hcs c' (List.mem_append_left _ hc')
    exact (RequestState.mem_waits_after hc).mpr (Or.inr ⟨hq, hkept⟩)

/-- Queueing leaves the pending map alone. -/
theorem pending_of_run {account : String} {s t : RequestState} {cs : List RegistrySection}
    (h : (registry account).Run s cs t) (hcs : ∀ c ∈ cs, c.isQueueing = true) :
    t.pending = s.pending := by
  induction h with
  | nil => rfl
  | @snoc t u as c hrun hstep ih =>
    have hc := hcs c (List.mem_append_right _ (List.mem_singleton_self c))
    have ih := ih fun c' hc' => hcs c' (List.mem_append_left _ hc')
    have hu : u = c.after account t := hstep
    rw [hu, ← ih]
    cases c with
    | queueAction r => exact RequestState.queueActionRequest_pending t r
    | queueToDevice rs => rw [RegistrySection.after, RequestState.queueToDeviceRequests_eq]
    | share missing shared tracked => rw [RegistrySection.after, RequestState.shareQueues_eq]
    | take trip => cases hc
    | mark id settled => cases hc
    | _ => rfl

/-- A run through a section splits there. -/
theorem registry_split {account : String} {s t : RequestState} {cs₁ cs₂ : List RegistrySection}
    {c : RegistrySection} (h : (registry account).Run s (cs₁ ++ c :: cs₂) t) :
    ∃ u, (registry account).Run s cs₁ u ∧ (registry account).Run (c.after account u) cs₂ t := by
  obtain ⟨u, hrun₁, hrest⟩ := h.split
  obtain ⟨v, hv, hrun₂⟩ := hrest.uncons
  have hv : v = c.after account u := hv
  exact ⟨u, hrun₁, hv ▸ hrun₂⟩

/-- **An action a section queued waits**, itself or one under its id, or that id was
pending before. -/
theorem action_waits_or_pending {account : String} {s t : RequestState}
    {cs : List RegistrySection} (h : (registry account).Run s cs t)
    (hcs : ∀ c ∈ cs, c.isQueueing = true) {r : UpstreamOutgoingRequest}
    (hr : .queueAction r ∈ cs) :
    (∃ r', r'.requestId = r.requestId ∧ Queued.action account r' ∈ t.waits account) ∨
      s.pending.get? r.requestId ≠ none := by
  obtain ⟨cs₁, cs₂, rfl⟩ := List.append_of_mem hr
  obtain ⟨u, hrun₁, hrun₂⟩ := registry_split h
  rcases u.queued_queueActionRequest r with ⟨n, r', hmem, hid⟩ | hpending
  · -- it waits, and an action is never replaced
    have hq : Queued.action account r' ∈
        ((RegistrySection.queueAction r).after account u).waits account := by
      refine List.mem_append_right _ (List.mem_append_right _ (List.mem_append_right _
        (List.mem_append_right _ (List.mem_append_right _ ?_))))
      exact List.mem_map.mpr ⟨(n, r'), hmem, rfl⟩
    refine Or.inl ⟨r', hid, mem_waits_of_run hrun₂ (fun c' hc' => ⟨?_, ?_⟩) hq⟩
    · exact hcs c' (List.mem_append_right _ (List.mem_cons_of_mem _ hc'))
    · rintro ⟨slot, -, hslot⟩
      cases hslot
  · rw [pending_of_run hrun₁ fun c hc => hcs c (List.mem_append_left _ hc)] at hpending
    exact Or.inr hpending

/-- **What waits was queued by some section of the run.** -/
theorem queuedIn_of_mem_waits {account : String} {t : RequestState} {cs : List RegistrySection}
    (h : (registry account).Run .initial cs t) {q : Queued} (hq : q ∈ t.waits account) :
    ∃ cs₁ c cs₂, cs = cs₁ ++ c :: cs₂ ∧ QueuedIn account .initial cs₁ c q := by
  generalize hs₀ : RequestState.initial = s₀ at h
  induction h with
  | nil =>
    subst hs₀
    simp [RequestState.waits, RequestState.initial] at hq
  | @snoc t u as c hrun hstep ih =>
    have hu : u = c.after account t := hstep
    subst hu
    rcases RequestState.mem_waits_of_after hq with hq | hq
    · exact ⟨as, c, [], rfl, t, hs₀ ▸ hrun, hq⟩
    · obtain ⟨cs₁, c', cs₂, heq, hin⟩ := ih hq
      exact ⟨cs₁, c', cs₂ ++ [c], by rw [heq, List.append_assoc, List.cons_append], hin⟩

/-- **The pump loses nothing, doubles nothing and adds nothing.**  Sections queue
in a registry that is reached, and then a batch is handed out: it is what was
offered and what waited, each once; or it fails, and nothing has changed. -/
theorem take_conserves {account : String} {src : String → Source} {s t : RequestState}
    {cs₀ cs : List RegistrySection} {o : Offered}
    (hs : (sourcedRegistry account src).Run .initial cs₀ s)
    (hrun : (sourcedRegistry account src).Run s cs t) (hcs : ∀ c ∈ cs, c.isQueueing = true)
    (ho : RegistrySection.Sourced src (.take (some o))) :
    (∀ e, (t.takeOutgoingRequests account (some o)).1 = .error e →
      (t.takeOutgoingRequests account (some o)).2 = t) ∧
    ∀ out, (t.takeOutgoingRequests account (some o)).1 = .ok out →
      ∃ batch, out = batch.map Entry.outgoing ∧
        Conserved account cs₀ s cs o (t.takeOutgoingRequests account (some o)).2 batch := by
  refine ⟨fun e => RequestState.takeOutgoingRequests_error, fun out hout => ?_⟩
  rw [RequestState.takeOutgoingRequests_fst] at hout
  obtain ⟨batch, hbatch, rfl⟩ := map_eq_ok.mp hout
  refine ⟨batch, rfl, ?_⟩
  obtain ⟨_, prepared, fresh, ho', hprep, hfresh, rfl, hleft⟩ :=
    RequestState.takeBatch_leaves hbatch
  obtain rfl := Option.some.inj ho'
  rw [hleft]
  -- the batch is what was offered and what waits, with no id twice
  have hknown : t.Known src := known_of_run (hs.append hrun) (RequestState.known_initial src)
  have hperm := RequestState.perm_handOut hfresh
  rw [map_prepare hprep] at hperm
  have hids : ((t.handOut fresh).map Entry.id).Nodup := by
    have h := (hperm.map Prod.fst).nodup_iff.mpr
      (RequestState.nodup_offered_waits hknown ho)
    rwa [List.map_map] at h
  have hlabels : ((t.handOut fresh).map Entry.label).Nodup := by
    refine List.Nodup.of_map Prod.fst ?_
    rw [List.map_map]
    exact hids
  have honce : ∀ l ∈ o.labels account ++ (t.waits account).map Queued.label,
      ((t.handOut fresh).map Entry.label).count l = 1 :=
    fun l hl => List.count_eq_one_of_mem hlabels (hperm.mem_iff.mpr hl)
  have hwaits : ∀ q ∈ t.waits account, ((t.handOut fresh).map Entry.label).count q.label = 1 :=
    fun q hq => honce _ (List.mem_append_right _ (List.mem_map_of_mem hq))
  refine ⟨hids, ?_, ?_, ?_, fun l hl => honce l (List.mem_append_left _ hl), ?_,
    ⟨rfl, rfl, rfl, rfl, rfl, rfl⟩,
    fun e he => RequestState.get?_record_of_nodup hids he _⟩
  · rintro cs₁ c cs₂ q rfl ⟨t₁, hrun₁, hq⟩ hkept
    obtain ⟨u, hu, hrun₂⟩ := registry_split hrun.of_restrict
    obtain rfl := TransitionSystem.Run.unique (registry_unique account) hu hrun₁
    have hc := hcs c (List.mem_append_right _ List.mem_cons_self)
    refine hwaits q (mem_waits_of_run hrun₂ (fun c' hc' => ⟨?_, hkept c' hc'⟩) ?_)
    · exact hcs c' (List.mem_append_right _ (List.mem_cons_of_mem _ hc'))
    · exact (RequestState.mem_waits_after hc).mpr (Or.inl hq)
  · intro q hq hkept
    exact hwaits q (mem_waits_of_run hrun.of_restrict (fun c hc => ⟨hcs c hc, hkept c hc⟩) hq)
  · intro r hr
    refine (action_waits_or_pending hrun.of_restrict hcs hr).imp_left ?_
    rintro ⟨r', hid, hwaiting⟩
    have hlabel := hwaits _ hwaiting
    have hin : (Queued.action account r').label ∈ (t.handOut fresh).map Entry.label :=
      List.count_pos_iff.mp (by omega)
    obtain ⟨e, he, hel⟩ := List.mem_map.mp hin
    have hei : e.id = r.requestId := (congrArg Prod.fst hel).trans hid
    exact List.count_eq_one_of_mem hids (hei ▸ List.mem_map_of_mem he)
  · intro e he
    have hmem := hperm.mem_iff.mp (List.mem_map_of_mem he)
    rcases List.mem_append.mp hmem with h | h
    · exact Or.inl h
    · obtain ⟨q, hq, hlabel⟩ := List.mem_map.mp h
      obtain ⟨cs₁, c, cs₂, heq, hin⟩ :=
        queuedIn_of_mem_waits (hs.append hrun).of_restrict hq
      exact Or.inr ⟨cs₁, c, cs₂, q, heq, hin, hlabel⟩

/-! ### The scanned verification's batch again -/

/-- The sources of the four ids. -/
def scannedSource (id : String) : Source :=
  if id = "k1" then .peerQuery else if id = "c1" then .action else .outgoing

/-- Each of the four is handed out once. -/
theorem scanned_conserved : ∃ batch out,
    (scanned.takeOutgoingRequests "@alice:example.org" (offers [upload "s2", upload "s1"])).1 =
        .ok out ∧ out.map OutgoingRequest.id = ["s1", "c1", "s2", "k1"] ∧
      Conserved "@alice:example.org" [.take (offers [upload "s1"])] uploadTaken
        [.queuePeerQuery "k1" bobQuery, .queueAction closing]
        ⟨.ok [upload "s2", upload "s1"], none⟩
        (scanned.takeOutgoingRequests "@alice:example.org"
          (offers [upload "s2", upload "s1"])).2 batch := by
  have hnone : ∀ c : RegistrySection, c.minted = [] → ∀ s, MintsNew s c := by
    intro c hc s id hid
    rw [hc] at hid
    cases hid
  have hoffers : ∀ ids : List String, (∀ id ∈ ids, scannedSource id = .outgoing) → ids.Nodup →
      RegistrySection.Sourced scannedSource (.take (offers (ids.map upload))) := by
    rintro ids hids hnodup o ⟨⟩
    refine ⟨?_, by simp [Offered.backupBatch]⟩
    rintro rs ⟨⟩
    refine ⟨fun r hr => ?_, by simpa [List.map_map, upload, Function.comp_def] using hnodup⟩
    obtain ⟨id, hid, rfl⟩ := List.mem_map.mp hr
    exact hids id hid
  have htake : (sourcedRegistry "@alice:example.org" scannedSource).Run .initial
      [.take (offers [upload "s1"])] uploadTaken :=
    .single ⟨⟨hnone _ rfl _, hoffers ["s1"] (by decide) (by decide)⟩, rfl⟩
  have hpeer : MintsNew uploadTaken (.queuePeerQuery "k1" bobQuery) := by
    intro id hid
    obtain rfl := List.mem_singleton.mp hid
    exact ⟨RequestState.not_carries_handedOut, rfl⟩
  have hqueue : (sourcedRegistry "@alice:example.org" scannedSource).Run uploadTaken
      [.queuePeerQuery "k1" bobQuery, .queueAction closing] scanned :=
    .cons ⟨⟨hpeer, rfl⟩, rfl⟩ (.single ⟨⟨hnone _ rfl _, rfl⟩, rfl⟩)
  have h := take_conserves htake hqueue (by simp [RegistrySection.isQueueing])
    (hoffers ["s2", "s1"] (by decide) (by decide))
  obtain ⟨out, hout, hids⟩ : ∃ out, (scanned.takeOutgoingRequests "@alice:example.org"
      (offers [upload "s2", upload "s1"])).1 = .ok out ∧
        out.map OutgoingRequest.id = ["s1", "c1", "s2", "k1"] := ⟨_, rfl, by decide⟩
  obtain ⟨batch, -, hbatch⟩ := h.2 out hout
  exact ⟨batch, out, hout, hids, hbatch⟩

end MatrixCrypto
