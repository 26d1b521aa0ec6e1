import MatrixCrypto.Signing.Gate

/-!
# The order a creation is handed out in

`create_identity` queues a publication and, after it, the query that confirms
it.  Both single slots keep the stamp of what was in them, so the order of the
batch that hands them out depends on what waited before the call.

## Main definitions

* `InPublicationOrder` — device keys, signing keys, signatures, confirming query.
* `AwaitsAt` — the publication waits under four given stamps.
* `Overtaken` — the query waits under a stamp older than the signatures.

## Main results

* `inPublicationOrder_of_awaitsAt`, `not_inPublicationOrder_of_overtaken` — what
  either means for the next batch.
* `inPublicationOrder_iff` — **the order is kept exactly when no query about the
  account was waiting.**
-/

namespace MatrixCrypto

open Lib Relation

/-- The batch holds, in this order, the device-key upload if one is asked for,
the signing keys, the signatures of the given id, and the confirming query. -/
def InPublicationOrder (deviceKeys : Option UpstreamOutgoingRequest) (signaturesId : String)
    (batch : List Entry) : Prop :=
  ∃ device keys signatures query,
    device.map Entry.id = deviceKeys.toList.map UpstreamOutgoingRequest.requestId ∧
    keys.kind = .signingKeysUpload ∧
    (signatures.kind = .signatureUpload ∧ signatures.id = signaturesId) ∧
    query.kind = .accountKeysQueryOutOfBand ∧
    (device ++ [keys, signatures, query]).Sublist batch

/-- The ids upstream mints for a publication are new to the registry. -/
structure Publishing.IdsNew (up : Publishing) (requests : BootstrapRequests) (s : RequestState) :
    Prop where
  signatures : s.repeats up.signaturesId = false
  deviceKeys : ∀ d, requests.uploadKeysReq = some d →
    s.repeats d.requestId = false ∧ d.requestId ≠ up.signaturesId

/-! ### A publication that waits in order -/

/-- The publication waits: its device keys under `a`, its keys under `k`, its
signatures under `g`, and a query about the account under `b`. -/
structure AwaitsAt (a k g b : ℕ) (deviceKeys : Option UpstreamOutgoingRequest)
    (signatures : UpstreamOutgoingRequest) (s : RequestState) : Prop where
  device : ∀ d, deviceKeys = some d → (a, d) ∈ s.queuedAction
  keys : ∃ i r, s.queuedSigningKeys = some (k, i, r)
  signatures : (g, signatures) ∈ s.queuedAction
  query : ∃ i r, s.queuedAccountQuery = some (b, i, r)

theorem keptByWrites_awaitsAt (a k g b : ℕ) (deviceKeys : Option UpstreamOutgoingRequest)
    (signatures : UpstreamOutgoingRequest) :
    KeptByWrites (AwaitsAt a k g b deviceKeys signatures) where
  queue := by
    intro s t hs h
    cases h with
    | action r =>
      refine ⟨fun d hd => RequestState.mem_queueActionRequest (hs.device d hd) r, ?_,
        RequestState.mem_queueActionRequest hs.signatures r, ?_⟩
      · rw [RequestState.queueActionRequest_queuedSigningKeys]; exact hs.keys
      · rw [RequestState.queueActionRequest_queuedAccountQuery]; exact hs.query
    | toDevice rs =>
      rw [RequestState.queueToDeviceRequests_eq]
      exact ⟨hs.device, hs.keys, hs.signatures, hs.query⟩
    | claim c => cases c <;> exact ⟨hs.device, hs.keys, hs.signatures, hs.query⟩
    | accountQuery id r =>
      -- the slot keeps its stamp, whatever replaces what is in it
      obtain ⟨i, r', hq⟩ := hs.query
      refine ⟨hs.device, hs.keys, hs.signatures, id, r, ?_⟩
      rw [RequestState.queueAccountKeyQuery, hq]
      rfl
    | peerQuery id r => exact ⟨hs.device, hs.keys, hs.signatures, hs.query⟩
  keys := by
    intro s id r hs
    obtain ⟨i, r', hk⟩ := hs.keys
    refine ⟨hs.device, ⟨id, r, ?_⟩, hs.signatures, hs.query⟩
    rw [RequestState.queueSigningKeysRequest, hk]
    rfl
  settle := by
    intro s id answer hs
    rw [RequestState.settle_eq]
    exact ⟨hs.device, hs.keys, hs.signatures, hs.query⟩

/-- Entries of a batch with increasing stamps come out in that order. -/
theorem sublist_handOut {s : RequestState} {fresh : List Fresh} {c : List Entry}
    (hc : c.Pairwise fun e e' => e.sequence < e'.sequence) (hmem : ∀ e ∈ c, e ∈ s.handOut fresh) :
    c.Sublist (s.handOut fresh) :=
  sublist_sortByKey_of_lt hc fun e he => RequestState.mem_handOut.mp (hmem e he)

/-- A signature upload stays one. -/
theorem freshOf_signatureUpload {account : String} {at' : Option ℕ} {i : String} {v : Value}
    {f : Fresh} (h : freshOf account at' ⟨i, .signatureUpload v⟩ = .ok f) :
    f.queuedAt = at' ∧ f.id = i ∧ f.kind = .signatureUpload := by
  obtain ⟨kind, body, hd, rfl⟩ := freshOf_ok h
  obtain ⟨_, _, hk⟩ := bind_eq_ok.mp hd
  obtain ⟨rfl, _⟩ := Prod.mk.inj (pure_eq_ok.mp hk)
  exact ⟨rfl, rfl, rfl⟩

/-- **A publication that waits in order is handed out in order.** -/
theorem inPublicationOrder_of_awaitsAt {s : RequestState} {account : String}
    {trip : Option Offered} {batch : List Entry} {a k g b : ℕ}
    {deviceKeys : Option UpstreamOutgoingRequest} {i : String} {v : Value}
    (h : AwaitsAt a k g b deviceKeys ⟨i, .signatureUpload v⟩ s)
    (hak : deviceKeys ≠ none → a < k) (hkg : k < g) (hgb : g < b)
    (hbatch : s.takeBatch account trip = .ok batch) : InPublicationOrder deviceKeys i batch := by
  obtain ⟨o, prepared, fresh, rfl, -, hc, rfl⟩ := RequestState.takeBatch_ok hbatch
  obtain ⟨_, _, hkeys⟩ := h.keys
  obtain ⟨_, _, hquery⟩ := h.query
  obtain ⟨_, hk⟩ := RequestState.signingKeys_mem_collect hc hkeys
  obtain ⟨_, hq⟩ := RequestState.accountQuery_mem_collect hc hquery
  obtain ⟨f, hf, hfresh⟩ := RequestState.action_mem_collect hc h.signatures
  obtain ⟨hat, hid, hkind⟩ := freshOf_signatureUpload hfresh
  obtain ⟨keys, hkeysMem, hkseq, -, hkkind⟩ := RequestState.exists_mem_handOut (s := s) hk rfl
  obtain ⟨signatures, hsigMem, hgseq, hgid, hgkind⟩ :=
    RequestState.exists_mem_handOut (s := s) hf hat
  obtain ⟨query, hqueryMem, hbseq, -, hqkind⟩ := RequestState.exists_mem_handOut (s := s) hq rfl
  rw [hid] at hgid
  rw [hkind] at hgkind
  -- the stamps are in publication order, and a batch is sorted by them
  cases deviceKeys with
  | none =>
    refine ⟨[], keys, signatures, query, rfl, hkkind, ⟨hgkind, hgid⟩, hqkind, ?_⟩
    apply sublist_handOut
    · simp only [List.nil_append, List.pairwise_cons, List.mem_cons, forall_eq_or_imp]
      simp
      omega
    · simp [hkeysMem, hsigMem, hqueryMem]
  | some d =>
    obtain ⟨f', hf', hfresh'⟩ := RequestState.action_mem_collect hc (h.device d rfl)
    obtain ⟨_, _, _, rfl⟩ := freshOf_ok hfresh'
    obtain ⟨device, hdeviceMem, haseq, haid, -⟩ := RequestState.exists_mem_handOut (s := s) hf' rfl
    have hlt := hak (by simp)
    refine ⟨[device], keys, signatures, query, by simpa using haid, hkkind, ⟨hgkind, hgid⟩,
      hqkind, ?_⟩
    apply sublist_handOut
    · simp
      omega
    · simp [hdeviceMem, hkeysMem, hsigMem, hqueryMem]

/-! ### A query that overtakes -/

/-- A query about the account waits under `m`, and every action request of the
given id was queued at `n` or later. -/
structure Overtaken (m n : ℕ) (signaturesId : String) (s : RequestState) : Prop where
  query : ∃ i r, s.queuedAccountQuery = some (m, i, r)
  counter : n ≤ s.nextSequence
  pending : s.pending.get? signaturesId = none
  action : ∀ k r, (k, r) ∈ s.queuedAction → r.requestId = signaturesId → n ≤ k

theorem overtaken_queueActionRequest {m n : ℕ} {signaturesId : String} {s : RequestState}
    (hs : Overtaken m n signaturesId s) (r : UpstreamOutgoingRequest) :
    Overtaken m n signaturesId (s.queueActionRequest r) := by
  cases hrep : s.repeats r.requestId with
  | true => rwa [RequestState.queueActionRequest_of_repeats hrep]
  | false =>
    rw [RequestState.queueActionRequest_of_not_repeats hrep]
    refine ⟨hs.query, Nat.le_succ_of_le hs.counter, hs.pending, fun k r' h hid => ?_⟩
    rcases List.mem_append.mp h with h | h
    · exact hs.action k r' h hid
    · -- the counter's own value, and the counter is past `n`
      rw [List.mem_singleton, Prod.mk.injEq] at h
      have := hs.counter
      omega

theorem keptByWrites_overtaken (m n : ℕ) (signaturesId : String) :
    KeptByWrites (Overtaken m n signaturesId) where
  queue := by
    intro s t hs h
    cases h with
    | action r => exact overtaken_queueActionRequest hs r
    | toDevice rs =>
      rw [RequestState.queueToDeviceRequests_eq]
      exact ⟨hs.query, hs.counter, hs.pending, hs.action⟩
    | claim c => cases c <;> exact ⟨hs.query, hs.counter, hs.pending, hs.action⟩
    | accountQuery id r =>
      obtain ⟨i, r', hq⟩ := hs.query
      have hcounter := hs.counter
      refine ⟨⟨id, r, ?_⟩, Nat.le_trans hcounter (s.slotStamp_le _), hs.pending, hs.action⟩
      rw [RequestState.queueAccountKeyQuery, hq]
      rfl
    | peerQuery id r => exact ⟨hs.query, hs.counter, hs.pending, hs.action⟩
  keys := by
    intro s id r hs
    exact ⟨hs.query, Nat.le_trans hs.counter (s.slotStamp_le _), hs.pending, hs.action⟩
  settle := by
    intro s id answer hs
    rw [RequestState.settle_eq]
    refine ⟨hs.query, hs.counter, ?_, hs.action⟩
    rw [OrdMap.get?_erase, hs.pending, ite_self]

/-- The only entry of the out-of-band kind is the one in the slot. -/
theorem sequence_of_accountKeysQueryOutOfBand {s : RequestState} {account : String} {o : Offered}
    {prepared fresh : List Fresh} {m : ℕ} {i : String} {r : KeysQueryRequest}
    (hp : prepare account o = .ok prepared) (hc : s.collect account prepared = .ok fresh)
    (hslot : s.queuedAccountQuery = some (m, i, r)) {e : Entry} (he : e ∈ s.handOut fresh)
    (hk : e.kind = .accountKeysQueryOutOfBand) : e.sequence = m := by
  obtain ⟨f, hf, -, hkind, -, hpos⟩ := mem_stamp (RequestState.mem_handOut.mp he)
  rcases (RequestState.mem_collect hc f).mp hf with hf | hf
  · exact absurd (hkind.trans hk) (prepare_kind hp hf).2
  · obtain ⟨n, r', hslot', hat⟩ := hf.of_accountKeysQueryOutOfBand (hkind.trans hk)
    rw [hslot, Option.some.injEq, Prod.mk.injEq] at hslot'
    rw [position_of_queuedAt hat] at hpos
    rcases hpos with hpos | ⟨hpos, _⟩
    · rw [← Option.some.inj hpos, hslot'.1]
    · cases hpos

/-- The signature upload of an id queued late comes out late. -/
theorem le_sequence_of_signatureUpload {s : RequestState} {account : String} {o : Offered}
    {prepared fresh : List Fresh} {m n : ℕ} {signaturesId : String}
    (hs : Overtaken m n signaturesId s) (hp : prepare account o = .ok prepared)
    (hc : s.collect account prepared = .ok fresh) {e : Entry} (he : e ∈ s.handOut fresh)
    (hk : e.kind = .signatureUpload) (hid : e.id = signaturesId) : n ≤ e.sequence := by
  obtain ⟨f, hf, hfid, hkind, -, hpos⟩ := mem_stamp (RequestState.mem_handOut.mp he)
  have hunstamped : f.queuedAt = none → n ≤ e.sequence := by
    intro hat
    rw [position_of_not_queued hat, hfid, hid, hs.pending] at hpos
    have := hs.counter
    rcases hpos with hpos | ⟨_, hpos, _⟩
    · cases hpos
    · omega
  rcases (RequestState.mem_collect hc f).mp hf with hf | hf
  · exact hunstamped (mem_prepare hp hf).1
  · cases hf with
    | action h hfresh =>
      obtain ⟨_, _, _, rfl⟩ := freshOf_ok hfresh
      have hle := hs.action _ _ h (hfid.trans hid)
      rw [position_of_queuedAt rfl] at hpos
      rcases hpos with hpos | ⟨hpos, _⟩
      · rw [← Option.some.inj hpos]; exact hle
      · cases hpos
    | toDevice _ _ => exact hunstamped rfl
    | claim _ _ => exact hunstamped rfl
    | peerQuery _ _ => exact hunstamped rfl
    | accountQuery _ _ => rw [hk] at hkind; cases hkind
    | signingKeys _ _ => rw [hk] at hkind; cases hkind

/-- **An overtaken publication is not handed out in order.** -/
theorem not_inPublicationOrder_of_overtaken {s : RequestState} {account : String}
    {trip : Option Offered} {batch : List Entry} {m n : ℕ} {signaturesId : String}
    (hs : Overtaken m n signaturesId s) (hmn : m < n)
    (hbatch : s.takeBatch account trip = .ok batch)
    (deviceKeys : Option UpstreamOutgoingRequest) :
    ¬ InPublicationOrder deviceKeys signaturesId batch := by
  rintro ⟨device, keys, signatures, query, -, -, ⟨hgkind, hgid⟩, hqkind, hsub⟩
  obtain ⟨o, prepared, fresh, rfl, hp, hc, rfl⟩ := RequestState.takeBatch_ok hbatch
  obtain ⟨i, r, hslot⟩ := hs.query
  have hpair : [signatures, query].Sublist (s.handOut fresh) :=
    ((List.sublist_cons_self keys _).trans (List.sublist_append_right device _)).trans hsub
  have hsig := le_sequence_of_signatureUpload hs hp hc (hpair.subset (by simp)) hgkind hgid
  have hquery := sequence_of_accountKeysQueryOutOfBand hp hc hslot (hpair.subset (by simp)) hqkind
  have hle : signatures.sequence ≤ query.sequence :=
    key_le_of_sublist (pairwise_sortByKey Entry.sequence _) hpair
  omega

/-! ### What a served create leaves -/

/-- Queueing a new action request puts it behind the counter. -/
theorem queueActionRequest_new {s : RequestState} {r : UpstreamOutgoingRequest}
    (h : s.repeats r.requestId = false) :
    (s.nextSequence, r) ∈ (s.queueActionRequest r).queuedAction ∧
      (s.queueActionRequest r).nextSequence = s.nextSequence + 1 := by
  rw [RequestState.queueActionRequest_of_not_repeats h]
  exact ⟨by simp, rfl⟩

/-- An id that is new stays new while another id is queued. -/
theorem repeats_queueActionRequest {s : RequestState} {r : UpstreamOutgoingRequest} {id : String}
    (h : s.repeats id = false) (hne : r.requestId ≠ id) :
    (s.queueActionRequest r).repeats id = false := by
  cases hrep : s.repeats r.requestId with
  | true => rwa [RequestState.queueActionRequest_of_repeats hrep]
  | false =>
    rw [RequestState.queueActionRequest_of_not_repeats hrep]
    obtain ⟨hact, hpend⟩ := RequestState.repeats_eq_false.mp h
    refine RequestState.repeats_eq_false.mpr ⟨fun n r' hr' => ?_, hpend⟩
    rcases List.mem_append.mp hr' with hr' | hr'
    · exact hact n r' hr'
    · rw [List.mem_singleton, Prod.mk.injEq] at hr'
      rw [hr'.2]
      exact hne

section served

variable {s : RequestState} {up : Publishing} {requests : BootstrapRequests}

/-- The signature id is still new once the device keys are queued. -/
theorem repeats_queueDeviceKeys (hnew : up.IdsNew requests s) :
    (s.queueDeviceKeys requests.uploadKeysReq).repeats up.signaturesId = false := by
  cases hd : requests.uploadKeysReq with
  | none => exact hnew.signatures
  | some d => exact repeats_queueActionRequest hnew.signatures (hnew.deviceKeys d hd).2

/-- With both slots empty, a publication and its query take four stamps in a row. -/
theorem awaitsAt_queuePublication (hnew : up.IdsNew requests s)
    (hkeys : s.queuedSigningKeys = none) (hquery : s.queuedAccountQuery = none) :
    ∃ k, (requests.uploadKeysReq ≠ none → s.nextSequence < k) ∧
      AwaitsAt s.nextSequence k (k + 1) (k + 2) requests.uploadKeysReq (up.signatures requests)
        ((s.queuePublication up requests).queueAccountKeyQuery up.queryId up.query) := by
  have hrep := repeats_queueDeviceKeys hnew
  have hframe : (s.queueDeviceKeys requests.uploadKeysReq).queuedSigningKeys = none ∧
      (s.queueDeviceKeys requests.uploadKeysReq).queuedAccountQuery = none := by
    cases requests.uploadKeysReq with
    | none => exact ⟨hkeys, hquery⟩
    | some d =>
      rw [RequestState.queueDeviceKeys, RequestState.queueActionRequest_queuedSigningKeys,
        RequestState.queueActionRequest_queuedAccountQuery]
      exact ⟨hkeys, hquery⟩
  have hdevice : ∀ d, requests.uploadKeysReq = some d →
      (s.nextSequence, d) ∈ (s.queueDeviceKeys requests.uploadKeysReq).queuedAction ∧
        s.nextSequence < (s.queueDeviceKeys requests.uploadKeysReq).nextSequence := by
    intro d hd
    obtain ⟨hmem, hnext⟩ := queueActionRequest_new (hnew.deviceKeys d hd).1
    rw [hd, RequestState.queueDeviceKeys, hnext]
    exact ⟨hmem, Nat.lt_succ_self _⟩
  -- name the state after the device keys; the other three writes are explicit from there
  rw [RequestState.queuePublication]
  generalize s.queueDeviceKeys requests.uploadKeysReq = s₁ at *
  have hrep₂ : (s₁.queueSigningKeysRequest up.signingKeysId
      requests.uploadSigningKeysReq).repeats up.signaturesId = false := hrep
  obtain ⟨hkeys₁, hquery₁⟩ := hframe
  refine ⟨s₁.nextSequence, fun h => ?_, ⟨fun d hd => ?_,
    ⟨up.signingKeysId, requests.uploadSigningKeysReq, ?_⟩, ?_,
    ⟨up.queryId, up.query, ?_⟩⟩⟩
  · obtain ⟨d, hd⟩ := Option.ne_none_iff_exists'.mp h
    exact (hdevice d hd).2
  · have hmem : (s.nextSequence, d) ∈ (s₁.queueSigningKeysRequest up.signingKeysId
        requests.uploadSigningKeysReq).queuedAction := (hdevice d hd).1
    exact RequestState.mem_queueActionRequest hmem (up.signatures requests)
  · show ((s₁.queueSigningKeysRequest up.signingKeysId
      requests.uploadSigningKeysReq).queueActionRequest (up.signatures requests)).queuedSigningKeys
        = _
    rw [RequestState.queueActionRequest_queuedSigningKeys, RequestState.queueSigningKeysRequest,
      hkeys₁]
    rfl
  · have hmem := (queueActionRequest_new (r := up.signatures requests) hrep₂).1
    rw [RequestState.queueSigningKeysRequest, hkeys₁] at hmem ⊢
    exact hmem
  · rw [RequestState.queueAccountKeyQuery, RequestState.queueActionRequest_queuedAccountQuery]
    show some ((RequestState.slotStamp _ s₁.queuedAccountQuery).1, _) = _
    rw [hquery₁, RequestState.queueActionRequest_of_not_repeats hrep₂,
      RequestState.queueSigningKeysRequest, hkeys₁]
    rfl

/-- With a query waiting, the publication is overtaken by it. -/
theorem overtaken_queuePublication (hnew : up.IdsNew requests s) {m : ℕ} {i : String}
    {r : KeysQueryRequest} (hquery : s.queuedAccountQuery = some (m, i, r)) :
    Overtaken m s.nextSequence up.signaturesId
      ((s.queuePublication up requests).queueAccountKeyQuery up.queryId up.query) := by
  obtain ⟨hact, hpend⟩ := RequestState.repeats_eq_false.mp hnew.signatures
  have hs : Overtaken m s.nextSequence up.signaturesId s :=
    ⟨⟨i, r, hquery⟩, Nat.le_refl _, hpend, fun k r' h hid => absurd hid (hact k r' h)⟩
  exact (keptByWrites_overtaken _ _ _).publishes hs up requests

end served

/-! ### The next batch after a create -/

/-- What a run that drains nothing keeps. -/
theorem KeptByWrites.run {I : RequestState → Prop} (h : KeptByWrites I) {P : Parsers}
    {account : String} {p q : Process} {cs : List Call}
    (hrun : ((process P account).restrict fun p c => ¬ c.Drains account p).Run p cs q)
    (hp : I p.requests) : I q.requests := by
  refine hrun.invariant (I := fun p => I p.requests) ?_ hp
  rintro p c q hp ⟨hc, rfl⟩
  exact h.after (fun hd => absurd hd hc) hp

/-- **The order is kept exactly when no query about the account was waiting.**
The create is served in any reachable state; any calls that hand nothing out may
follow it; then a batch is handed out.  Device keys are asked for first unless an
earlier creation still waits. -/
theorem inPublicationOrder_iff {P : Parsers} {account : String} {p q : Process} {cs : List Call}
    {up : Publishing} {requests : BootstrapRequests} {trip : Option Offered} {batch : List Entry}
    (hp : (process P account).Reachable p) (hreq : up.requests = .ok requests)
    (hnew : up.IdsNew requests p.requests) (hserved : (createIdentity p (some up)).1 = .ok ())
    (hrun : ((process P account).restrict fun p c => ¬ c.Drains account p).Run
      (createIdentity p (some up)).2 cs q)
    (hbatch : q.requests.takeBatch account trip = .ok batch) :
    (q.requests.takeOutgoingRequests account trip).1 = .ok (batch.map Entry.outgoing) ∧
      (InPublicationOrder
          (if p.requests.queuedSigningKeys = none then requests.uploadKeysReq else none)
          up.signaturesId batch ↔
        p.requests.queuedAccountQuery = none) := by
  refine ⟨by rw [RequestState.takeOutgoingRequests_fst, hbatch]; rfl, ?_⟩
  obtain ⟨up', requests', hup, hreq', -, -, hleft⟩ := createIdentity_served hserved
  obtain rfl : up = up' := Option.some.inj hup
  obtain rfl : requests = requests' := by
    rw [hreq] at hreq'
    exact Except.ok.inj hreq'
  constructor
  · intro horder
    cases hquery : p.requests.queuedAccountQuery with
    | none => rfl
    | some slot =>
      -- the slot keeps its stamp, which is older than anything this call queued
      obtain ⟨m, i, r⟩ := slot
      have hovertaken := overtaken_queuePublication hnew hquery
      rw [← hleft] at hovertaken
      have hq := (keptByWrites_overtaken _ _ _).run hrun hovertaken
      have hm : m < p.requests.nextSequence := stamped_of_reachable hp m i (.accountQuery hquery)
      exact absurd horder (not_inPublicationOrder_of_overtaken hq hm hbatch _)
  · intro hquery
    have hkeys : p.requests.queuedSigningKeys = none := by
      by_contra hkeys
      exact slotsPaired_of_reachable hp hkeys hquery
    obtain ⟨k, hak, hawaits⟩ := awaitsAt_queuePublication hnew hkeys hquery
    rw [← hleft] at hawaits
    have hq := (keptByWrites_awaitsAt _ _ _ _ _ _).run hrun hawaits
    rw [if_pos hkeys]
    exact inPublicationOrder_of_awaitsAt hq hak (Nat.lt_succ_self k) (Nat.lt_succ_self _) hbatch

/-! ### Two creations of one account

In the first run nothing waits when the identity is created.  In the second a
refused `bootstrap_identity` has queued its query while another was in flight. -/

/-- A take while upstream offers nothing. -/
def handOutQueued : Option Offered := some ⟨.ok [], none⟩

/-- The batch that hands out a creation served in `p`. -/
def batchAfterCreate (p : Process) : Except SessionError (List Entry) :=
  (createIdentity p (some firstIdentity)).2.requests.takeBatch "@alice:example.org" handOutQueued

theorem answeredProcess_reachable :
    (process noIdentityParsers "@alice:example.org").Reachable answeredProcess :=
  ⟨freshProcess, _, rfl, run_answeredProcess⟩

/-- The order of the batch in the first run. -/
theorem inPublicationOrder_answeredProcess : ∃ batch, batchAfterCreate answeredProcess = .ok batch ∧
    InPublicationOrder none "s1" batch := by
  have hreq : firstIdentity.requests = .ok ⟨none, ⟨none, none, none⟩, some (.obj [])⟩ := rfl
  have hnew : firstIdentity.IdsNew ⟨none, ⟨none, none, none⟩, some (.obj [])⟩
      answeredProcess.requests := ⟨by decide, by simp⟩
  obtain ⟨batch, hbatch⟩ : ∃ batch, batchAfterCreate answeredProcess = .ok batch := ⟨_, rfl⟩
  have h := inPublicationOrder_iff answeredProcess_reachable hreq hnew (by decide) (.nil _) hbatch
  exact ⟨batch, hbatch, h.2.mpr rfl⟩

/-- The launch-time call, refused: it queues its query. -/
def refusedBootstrap : Call := .bootstrap (some { firstIdentity with queryId := "q0" })

/-- The process of the second run when the identity is created. -/
def refusedProcess : Process :=
  reportAnswer.after noIdentityParsers "@alice:example.org"
    (refusedBootstrap.after noIdentityParsers "@alice:example.org"
      (handOutQuery.after noIdentityParsers "@alice:example.org" freshProcess))

theorem refusedProcess_reachable :
    (process noIdentityParsers "@alice:example.org").Reachable refusedProcess :=
  ⟨freshProcess, _, rfl, (((TransitionSystem.Run.nil freshProcess).snoc rfl).snoc rfl).snoc rfl⟩

/-- The confirming query is handed out before the publication it confirms. -/
theorem query_overtakes_publication :
    (process noIdentityParsers "@alice:example.org").Reachable refusedProcess ∧
      (createIdentity refusedProcess (some firstIdentity)).1 = .ok () ∧
      ∃ batch, batchAfterCreate refusedProcess = .ok batch ∧
        batch.map Entry.kind =
          [.accountKeysQueryOutOfBand, .signingKeysUpload, .signatureUpload] ∧
        ¬ InPublicationOrder none "s1" batch := by
  have hslot : refusedProcess.requests.queuedAccountQuery = some (1, "q0", aliceQuery) := rfl
  have hnew : firstIdentity.IdsNew ⟨none, ⟨none, none, none⟩, some (.obj [])⟩
      refusedProcess.requests := ⟨by decide, by simp⟩
  obtain ⟨batch, hbatch, hkinds⟩ : ∃ batch, batchAfterCreate refusedProcess = .ok batch ∧
      batch.map Entry.kind =
        [.accountKeysQueryOutOfBand, .signingKeysUpload, .signatureUpload] := ⟨_, rfl, by decide⟩
  exact ⟨refusedProcess_reachable, by decide, batch, hbatch, hkinds,
    not_inPublicationOrder_of_overtaken (overtaken_queuePublication hnew hslot) (by decide)
      hbatch none⟩

end MatrixCrypto
