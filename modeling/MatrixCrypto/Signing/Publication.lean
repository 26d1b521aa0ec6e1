import MatrixCrypto.Session.Mark

/-!
# Publishing and creating the account's identity

`bootstrap_identity` and `create_identity`, each one trip to the machine that
queues what it has to send while the machine is held.

## Main definitions

* `BootstrapRequests`, `Publishing` — what upstream returns to such a trip.
* `queuePublication`, `queueRepublication` — what each call sends.
* `bootstrapIdentity`, `createIdentity` — the whole calls.

## Main results

* `createIdentity_served` — what a served create found, and what it leaves.
* `createIdentity_requests`, `bootstrapIdentity_requests` — all either call can
  leave in the registry, served or refused.
-/

namespace MatrixCrypto

open Lib

/-- `CrossSigningBootstrapRequests`. -/
structure BootstrapRequests where
  uploadKeysReq : Option UpstreamOutgoingRequest
  uploadSigningKeysReq : UploadSigningKeysRequest
  /-- The signed keys of the signature upload. -/
  uploadSignaturesReq : Value

/-- What upstream returns to one of the two calls, and what it mints for it. -/
structure Publishing where
  /-- Which reads of the status fail. -/
  reads : Reads
  /-- `bootstrap_cross_signing`. -/
  requests : Except Unit BootstrapRequests
  /-- The store right after it. -/
  store : Store
  /-- Which accesses to the record fail. -/
  recordReads : Reads
  signingKeysId : String
  signaturesId : String
  /-- `query_keys_for_users`, asked about the account. -/
  queryId : String
  query : KeysQueryRequest

/-- The signature upload, as an outgoing request with the id minted for it. -/
def Publishing.signatures (up : Publishing) (requests : BootstrapRequests) :
    UpstreamOutgoingRequest :=
  ⟨up.signaturesId, .signatureUpload requests.uploadSignaturesReq⟩

namespace RequestState

/-- The device-key upload of a publication, when there is one. -/
def queueDeviceKeys (s : RequestState) : Option UpstreamOutgoingRequest → RequestState
  | some deviceKeys => s.queueActionRequest deviceKeys
  | none => s

/-- `queue_publication`. -/
def queuePublication (s : RequestState) (up : Publishing) (requests : BootstrapRequests) :
    RequestState :=
  ((s.queueDeviceKeys requests.uploadKeysReq).queueSigningKeysRequest up.signingKeysId
    requests.uploadSigningKeysReq).queueActionRequest (up.signatures requests)

/-- `queue_republication`: a publication without the cross-signing keys. -/
def queueRepublication (s : RequestState) (up : Publishing) (requests : BootstrapRequests) :
    RequestState :=
  (s.queueDeviceKeys requests.uploadKeysReq).queueActionRequest (up.signatures requests)

end RequestState

/-- A refusal for want of the account's keys queues the query that ends it. -/
def refusedFor (p : Process) (up : Publishing) (refusal : MachineError) :
    Except MachineError Unit × Process :=
  if refusal = .accountKeysNotFetched then
    (.error refusal, { p with requests := p.requests.queueAccountKeyQuery up.queryId up.query })
  else (.error refusal, p)

/-- `bootstrap_identity`; the trip is `none` when there is no machine. -/
def bootstrapIdentity (p : Process) (trip : Option Publishing) :
    Except MachineError Unit × Process :=
  match trip with
  | none => (.error .notInitialised, p)
  | some up =>
    match readStatus p.requests up.reads p.store with
    | .error e => (.error e, p)
    | .ok status =>
      match mayPublish status with
      | .error refusal => refusedFor p up refusal
      | .ok _ =>
        match up.requests with
        | .error _ => (.error .store, { p with store := up.store })
        | .ok requests => (.ok (), ⟨p.requests.queueRepublication up requests, up.store⟩)

/-- `create_identity`: the record is written after the mint and before anything
is queued, and the confirming query is queued last. -/
def createIdentity (p : Process) (trip : Option Publishing) :
    Except MachineError Unit × Process :=
  match trip with
  | none => (.error .notInitialised, p)
  | some up =>
    match readStatus p.requests up.reads p.store with
    | .error e => (.error e, p)
    | .ok status =>
      match mayCreate status with
      | .error refusal => refusedFor p up refusal
      | .ok _ =>
        match up.requests with
        | .error _ => (.error .store, { p with store := up.store })
        | .ok requests =>
          (.ok (),
            ⟨(p.requests.queuePublication up requests).queueAccountKeyQuery up.queryId up.query,
              noteIdentityMinted up.recordReads up.store⟩)

/-! ### What a refusal leaves -/

theorem refusedFor_fst (p : Process) (up : Publishing) (refusal : MachineError) :
    (refusedFor p up refusal).1 = .error refusal := by
  unfold refusedFor
  split <;> rfl

/-- A refusal leaves the registry alone, or fills the own-account query slot. -/
theorem refusedFor_requests (p : Process) (up : Publishing) (refusal : MachineError) :
    (refusedFor p up refusal).2.requests = p.requests ∨
      (refusedFor p up refusal).2.requests =
        p.requests.queueAccountKeyQuery up.queryId up.query := by
  unfold refusedFor
  split
  · exact Or.inr rfl
  · exact Or.inl rfl

/-! ### What a served call found and leaves -/

/-- **What a served create found, and what it leaves.** -/
theorem createIdentity_served {p : Process} {trip : Option Publishing}
    (h : (createIdentity p trip).1 = .ok ()) :
    ∃ up requests, trip = some up ∧ up.requests = .ok requests ∧
      p.requests.accountKeysAnswered = true ∧ p.store.NoneOrUnpublished ∧
      (createIdentity p trip).2.requests =
        (p.requests.queuePublication up requests).queueAccountKeyQuery up.queryId up.query := by
  cases trip with
  | none => cases h
  | some up =>
    cases hs : readStatus p.requests up.reads p.store with
    | error e => simp only [createIdentity, hs] at h; cases h
    | ok status =>
      cases hc : mayCreate status with
      | error refusal =>
        simp only [createIdentity, hs, hc] at h
        rw [refusedFor_fst] at h
        cases h
      | ok _ =>
        cases hr : up.requests with
        | error _ => simp only [createIdentity, hs, hc, hr] at h; cases h
        | ok requests =>
          obtain ⟨hanswered, hstore⟩ := noneOrUnpublished_of_mayCreate hs hc
          refine ⟨up, requests, rfl, hr, hanswered, hstore, ?_⟩
          simp only [createIdentity, hs, hc, hr]

/-- What a create leaves in the registry: what was there, the query its refusal
queues, or a publication and its confirming query. -/
theorem createIdentity_requests (p : Process) (trip : Option Publishing) :
    (createIdentity p trip).2.requests = p.requests ∨
      (∃ id r, (createIdentity p trip).2.requests = p.requests.queueAccountKeyQuery id r) ∨
      ∃ up requests, (createIdentity p trip).2.requests =
        (p.requests.queuePublication up requests).queueAccountKeyQuery up.queryId up.query := by
  unfold createIdentity
  split
  · exact Or.inl rfl
  · next up =>
    split
    · exact Or.inl rfl
    · split
      · next refusal _ =>
        rcases refusedFor_requests p up refusal with h | h
        · exact Or.inl h
        · exact Or.inr (Or.inl ⟨_, _, h⟩)
      · split
        · exact Or.inl rfl
        · next requests _ => exact Or.inr (Or.inr ⟨up, requests, rfl⟩)

/-- What a bootstrap leaves in the registry. -/
theorem bootstrapIdentity_requests (p : Process) (trip : Option Publishing) :
    (bootstrapIdentity p trip).2.requests = p.requests ∨
      (∃ id r, (bootstrapIdentity p trip).2.requests = p.requests.queueAccountKeyQuery id r) ∨
      ∃ up requests, (bootstrapIdentity p trip).2.requests =
        p.requests.queueRepublication up requests := by
  unfold bootstrapIdentity
  split
  · exact Or.inl rfl
  · next up =>
    split
    · exact Or.inl rfl
    · split
      · next refusal _ =>
        rcases refusedFor_requests p up refusal with h | h
        · exact Or.inl h
        · exact Or.inr (Or.inl ⟨_, _, h⟩)
      · split
        · exact Or.inl rfl
        · next requests _ => exact Or.inr (Or.inr ⟨up, requests, rfl⟩)

end MatrixCrypto
