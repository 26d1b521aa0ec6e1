import MatrixCrypto.Signing.Gate

/-!
# The call of every launch

`bootstrap_identity` is called on every launch.  What it can do to the identity
the store holds and to the registry, in every run; and where the one request that
replaces an identity comes from.

## Main definitions

* `MintsIncompleteOnly` — what upstream's `bootstrap_cross_signing(false)` keeps.
* `PassedCreate id` — a create that passed its gate and queued the id.

## Main results

* `bootstrapIdentity_cases` — **everything the call can do.**
* `earlier_create_of_slot` — what waits in the signing-keys slot was queued by a
  create that passed.
* `every_launch_keeps_identity` — both, over every run.
-/

namespace MatrixCrypto

open Lib Relation

/-- Upstream mints only when the private identity is incomplete. -/
def Publishing.MintsIncompleteOnly (up : Publishing) (store : Store) : Prop :=
  store.privateKeysHeld = true → up.store.identity = store.identity

/-! ### What the call can do -/

theorem readStatus_privateKeysHeld {s : RequestState} {reads : Reads} {store : Store}
    {status : IdentityStatus} (h : readStatus s reads store = .ok status) :
    status.privateKeysHeld = store.privateKeysHeld := by
  unfold readStatus at h
  split at h
  · cases h
  · cases h
    rfl

/-- The refusal that queues a query says that nothing was answered. -/
theorem mayPublish_notFetched {status : IdentityStatus}
    (h : mayPublish status = .error .accountKeysNotFetched) :
    status.accountKeysFetched = false := by
  cases hf : status.accountKeysFetched with
  | false => rfl
  | true =>
    unfold mayPublish at h
    rw [hf] at h
    revert h
    cases status.identityKnown <;> cases status.identityPublicationPending <;>
      cases status.privateKeysHeld <;> simp

/-- **Everything the call can do**: nothing; queue the query its refusal asks for,
when nothing was answered; fail where upstream fails; or republish, with the
private keys held. -/
theorem bootstrapIdentity_cases (p : Process) (trip : Option Publishing) :
    (∃ e, bootstrapIdentity p trip = (.error e, p)) ∨
    (∃ up, trip = some up ∧ p.requests.accountKeysAnswered = false ∧
      bootstrapIdentity p trip = (.error .accountKeysNotFetched,
        { p with requests := p.requests.queueAccountKeyQuery up.queryId up.query })) ∨
    ∃ up status, trip = some up ∧ readStatus p.requests up.reads p.store = .ok status ∧
      mayPublish status = .ok () ∧ p.store.privateKeysHeld = true ∧
      ((up.requests = .error () ∧
          bootstrapIdentity p trip = (.error .store, { p with store := up.store })) ∨
        ∃ requests, bootstrapIdentity p trip =
          (.ok (), ⟨p.requests.queueRepublication up requests, up.store⟩)) := by
  cases trip with
  | none => exact Or.inl ⟨_, rfl⟩
  | some up =>
    cases hs : readStatus p.requests up.reads p.store with
    | error e => exact Or.inl ⟨e, by simp only [bootstrapIdentity, hs]⟩
    | ok status =>
      cases hm : mayPublish status with
      | error refusal =>
        by_cases hr : refusal = .accountKeysNotFetched
        · subst hr
          have hfetched := mayPublish_notFetched hm
          rw [(readStatus_eq_ok hs).1] at hfetched
          refine Or.inr (Or.inl ⟨up, rfl, hfetched, ?_⟩)
          simp only [bootstrapIdentity, hs, hm, refusedFor, if_true]
        · refine Or.inl ⟨refusal, ?_⟩
          simp only [bootstrapIdentity, hs, hm, refusedFor, if_neg hr]
      | ok _ =>
        -- the gate passes only where the private keys are held
        have hheld : p.store.privateKeysHeld = true := by
          rw [← readStatus_privateKeysHeld hs]
          exact (mayPublish_eq_ok.mp hm).2.2.2
        refine Or.inr (Or.inr ⟨up, status, rfl, hs, hm, hheld, ?_⟩)
        cases hreq : up.requests with
        | error _ => exact Or.inl ⟨rfl, by simp only [bootstrapIdentity, hs, hm, hreq]⟩
        | ok requests => exact Or.inr ⟨requests, by simp only [bootstrapIdentity, hs, hm, hreq]⟩

/-- The identity held stays the identity held. -/
theorem bootstrapIdentity_identity {p : Process} {trip : Option Publishing}
    (hup : ∀ up, trip = some up → up.MintsIncompleteOnly p.store) :
    (bootstrapIdentity p trip).2.store.identity = p.store.identity := by
  rcases bootstrapIdentity_cases p trip with ⟨e, h⟩ | ⟨up, -, -, h⟩ |
    ⟨up, _, htrip, -, -, hheld, ⟨-, h⟩ | ⟨requests, h⟩⟩ <;> rw [h]
  · exact hup up htrip hheld
  · exact hup up htrip hheld

/-- Nothing is put in the signing-keys slot. -/
theorem bootstrapIdentity_queuedSigningKeys (p : Process) (trip : Option Publishing) :
    (bootstrapIdentity p trip).2.requests.queuedSigningKeys = p.requests.queuedSigningKeys := by
  rcases bootstrapIdentity_cases p trip with ⟨e, h⟩ | ⟨up, -, -, h⟩ |
    ⟨up, _, -, -, -, -, ⟨-, h⟩ | ⟨requests, h⟩⟩ <;> rw [h]
  · rfl
  · show (p.requests.queueRepublication up requests).queuedSigningKeys = _
    rw [RequestState.queueRepublication, RequestState.queueActionRequest_queuedSigningKeys]
    cases requests.uploadKeysReq with
    | none => rfl
    | some r => exact RequestState.queueActionRequest_queuedSigningKeys p.requests r

/-! ### Where a publication comes from -/

/-- A create that passed its gate, was served, and queued its publication under
the id. -/
def PassedCreate (id : String) (p : Process) (c : Call) (_ : Process) : Prop :=
  ∃ up status, c = .create (some up) ∧ readStatus p.requests up.reads p.store = .ok status ∧
    mayCreate status = .ok () ∧ (createIdentity p (some up)).1 = .ok () ∧ up.signingKeysId = id

/-- What a create does to the signing-keys slot: nothing, or it passed. -/
theorem createIdentity_queuedSigningKeys (p : Process) (trip : Option Publishing) :
    (createIdentity p trip).2.requests.queuedSigningKeys = p.requests.queuedSigningKeys ∨
      ∃ up status, trip = some up ∧ readStatus p.requests up.reads p.store = .ok status ∧
        mayCreate status = .ok () ∧ (createIdentity p (some up)).1 = .ok () ∧
        ∃ n r, (createIdentity p trip).2.requests.queuedSigningKeys =
          some (n, up.signingKeysId, r) := by
  cases trip with
  | none => exact Or.inl rfl
  | some up =>
    cases hs : readStatus p.requests up.reads p.store with
    | error e => exact Or.inl (by simp only [createIdentity, hs])
    | ok status =>
      cases hm : mayCreate status with
      | error refusal =>
        refine Or.inl ?_
        simp only [createIdentity, hs, hm]
        rcases refusedFor_requests p up refusal with h | h <;> rw [h]
        rfl
      | ok _ =>
        cases hreq : up.requests with
        | error _ => exact Or.inl (by simp only [createIdentity, hs, hm, hreq])
        | ok requests =>
          refine Or.inr ⟨up, status, rfl, hs, hm, by simp only [createIdentity, hs, hm, hreq], ?_⟩
          simp only [createIdentity, hs, hm, hreq]
          show ∃ n r, (p.requests.queuePublication up requests).queuedSigningKeys = _
          rw [RequestState.queuePublication, RequestState.queueActionRequest_queuedSigningKeys]
          exact ⟨_, _, rfl⟩

theorem queuedSigningKeys_of_queueing {s t : RequestState} (h : ReflTransGen Queueing s t) :
    t.queuedSigningKeys = s.queuedSigningKeys := by
  induction h with
  | refl => rfl
  | tail _ hstep ih =>
    rw [← ih]
    cases hstep with
    | action r => exact RequestState.queueActionRequest_queuedSigningKeys _ r
    | toDevice rs => rw [RequestState.queueToDeviceRequests_eq]
    | claim c => cases c <;> rfl
    | accountQuery id r => rfl
    | peerQuery id r => rfl

/-- Only a create that passed fills the signing-keys slot. -/
theorem passedCreate_of_slot {P : Parsers} {account : String} {p : Process} {c : Call} {n : ℕ}
    {i : String} {r : UploadSigningKeysRequest}
    (h : (c.after P account p).requests.queuedSigningKeys = some (n, i, r)) :
    p.requests.queuedSigningKeys = some (n, i, r) ∨
      PassedCreate i p c (c.after P account p) := by
  by_cases hc : ∃ trip, c = .create trip
  · obtain ⟨trip, rfl⟩ := hc
    rcases createIdentity_queuedSigningKeys p trip with hsame | ⟨up, status, rfl, hs, hm, hok, n',
      r', heq⟩
    · exact Or.inl (hsame.symm.trans h)
    · have hid : up.signingKeysId = i := by
        have h' := heq.symm.trans h
        rw [Option.some.injEq, Prod.mk.injEq, Prod.mk.injEq] at h'
        exact h'.2.1
      exact Or.inr ⟨up, status, rfl, hs, hm, hok, hid⟩
  · left
    have heffect := after_requests P account p c
    generalize (c.after P account p).requests = t at heffect h
    cases heffect with
    | queues hq => rw [← h, queuedSigningKeys_of_queueing hq]
    | publishes up requests => exact absurd ⟨_, rfl⟩ hc
    | drains fresh _ => cases h
    | settles answer =>
      rw [RequestState.settle_eq] at h
      exact h

/-- **What waits in the signing-keys slot was queued by a create that passed.** -/
theorem earlier_create_of_slot {P : Parsers} {account : String} {p₀ p : Process}
    {cs : List Call} (hinit : (process P account).init p₀)
    (hrun : (process P account).Run p₀ cs p) :
    ∀ n i r, p.requests.queuedSigningKeys = some (n, i, r) →
      (process P account).Earlier (PassedCreate i) p₀ cs p := by
  have hinit : p₀.requests = .initial := hinit
  induction hrun with
  | nil =>
    intro n i r h
    rw [hinit] at h
    cases h
  | @snoc p q as c hrun hstep ih =>
    intro n i r h
    have hq : q = c.after P account p := hstep
    rw [hq] at h
    rcases passedCreate_of_slot h with h | h
    · exact TransitionSystem.Run.earlier_snoc (ih n i r h) hstep
    · exact ⟨as, c, [], p, q, rfl, hrun, hstep, .nil q, hq ▸ h⟩

/-- Every publication a batch holds waited in the signing-keys slot. -/
theorem slot_of_mem_batch {s : RequestState} {account : String} {trip : Option Offered}
    {batch : List Entry} (h : s.takeBatch account trip = .ok batch) {e : Entry} (he : e ∈ batch)
    (hk : e.kind = .signingKeysUpload) : ∃ n r, s.queuedSigningKeys = some (n, e.id, r) := by
  obtain ⟨o, prepared, fresh, -, hprep, hfresh, rfl⟩ := RequestState.takeBatch_ok h
  obtain ⟨f, hf, hid, hkind, -⟩ := mem_stamp (RequestState.mem_handOut.mp he)
  rcases (RequestState.mem_collect hfresh f).mp hf with hp | hw
  · exact absurd (hkind.trans hk) (prepare_kind hprep hp).1
  · obtain ⟨n, r, hs, -⟩ := hw.of_signingKeysUpload (hkind.trans hk)
    exact ⟨n, r, hid ▸ hs⟩

/-! ### The call over whole runs -/

/-- The account's keys were answered at no point of the run. -/
def NeverAnswered (P : Parsers) (account : String) (p₀ : Process) (cs : List Call) : Prop :=
  ∀ cs₁ cs₂ p, cs = cs₁ ++ cs₂ → (process P account).Run p₀ cs₁ p →
    p.requests.accountKeysAnswered = false

/-- What was answered stays answered. -/
theorem answered_after {P : Parsers} {account : String} {p : Process} (c : Call)
    (h : p.requests.accountKeysAnswered = true) :
    (c.after P account p).requests.accountKeysAnswered = true := by
  have heffect := after_requests P account p c
  generalize (c.after P account p).requests = t at heffect
  cases heffect with
  | queues hq => rw [answered_of_queues hq, h]
  | publishes up requests => exact (answered_queuePublication _ up requests).trans h
  | drains fresh _ => exact h
  | settles answer => cases answer <;> first | exact h | rfl

theorem neverAnswered_of_run {P : Parsers} {account : String} {p₀ p : Process} {cs : List Call}
    (hrun : (process P account).Run p₀ cs p) (hp : p.requests.accountKeysAnswered = false) :
    NeverAnswered P account p₀ cs := by
  rintro cs₁ cs₂ q rfl hq
  by_contra hanswered
  rw [Bool.not_eq_false] at hanswered
  obtain ⟨q', hq', hrest⟩ := hrun.split
  obtain rfl : q' = q :=
    TransitionSystem.Run.unique (fun _ _ _ _ ht hu => Eq.trans ht (Eq.symm hu)) hq' hq
  have hstays := hrest.invariant (I := fun p => p.requests.accountKeysAnswered = true)
    (by rintro p c _ h rfl; exact answered_after c h) hanswered
  rw [hp] at hstays
  cases hstays

/-- **The call of every launch creates and publishes no identity.**  Over every run:
it changes neither the identity the store holds nor the signing-keys slot; where it
fails it changes nothing, or queues the query about the account where nothing was
ever answered, or upstream itself failed after nothing was refused; and every
publication a batch holds was queued by a create that passed. -/
theorem every_launch_keeps_identity {P : Parsers} {account : String} {p₀ p : Process}
    {cs : List Call} (hinit : (process P account).init p₀)
    (hrun : (process P account).Run p₀ cs p) :
    (∀ trip, (∀ up, trip = some up → up.MintsIncompleteOnly p.store) →
      (bootstrapIdentity p trip).2.store.identity = p.store.identity) ∧
    (∀ trip, (bootstrapIdentity p trip).2.requests.queuedSigningKeys =
      p.requests.queuedSigningKeys) ∧
    (∀ trip e, (bootstrapIdentity p trip).1 = .error e →
      (bootstrapIdentity p trip).2 = p ∨
      (e = .accountKeysNotFetched ∧ NeverAnswered P account p₀ cs ∧
        ∃ id query, (bootstrapIdentity p trip).2 =
          { p with requests := p.requests.queueAccountKeyQuery id query }) ∨
      ∃ up status, trip = some up ∧ readStatus p.requests up.reads p.store = .ok status ∧
        mayPublish status = .ok () ∧ up.requests = .error () ∧
        (bootstrapIdentity p trip).2 = { p with store := up.store }) ∧
    ∀ trip batch e, p.requests.takeBatch account trip = .ok batch → e ∈ batch →
      e.kind = .signingKeysUpload →
        (process P account).Earlier (PassedCreate e.id) p₀ cs p := by
  refine ⟨fun trip => bootstrapIdentity_identity, bootstrapIdentity_queuedSigningKeys p,
    fun trip e he => ?_, fun trip batch e hbatch he hk => ?_⟩
  · rcases bootstrapIdentity_cases p trip with ⟨_, h⟩ | ⟨up, -, hnot, h⟩ |
      ⟨up, status, htrip, hs, hm, -, ⟨hreq, h⟩ | ⟨requests, h⟩⟩ <;> rw [h] at he ⊢
    · exact Or.inl rfl
    · cases he
      exact Or.inr (Or.inl ⟨rfl, neverAnswered_of_run hrun hnot, up.queryId, up.query, rfl⟩)
    · exact Or.inr (Or.inr ⟨up, status, htrip, hs, hm, hreq, rfl⟩)
    · cases he
  · obtain ⟨n, r, hslot⟩ := slot_of_mem_batch hbatch he hk
    exact earlier_create_of_slot hinit hrun n e.id r hslot

/-! ### A launch before and after an identity is created -/

/-- The create of the first identity. -/
def createFirst : Call := .create (some firstIdentity)

/-- The process once the identity is created. -/
def createdProcess : Process :=
  createFirst.after noIdentityParsers "@alice:example.org" answeredProcess

/-- The publication handed out was queued by that create, and a launch in between
keeps the identity. -/
theorem createdProcess_keeps_identity :
    (bootstrapIdentity createdProcess (some firstIdentity)).2.store.identity =
        createdProcess.store.identity ∧
      ∃ batch e, createdProcess.requests.takeBatch "@alice:example.org" (some ⟨.ok [], none⟩) =
          .ok batch ∧ e ∈ batch ∧ e.kind = .signingKeysUpload ∧
        (process noIdentityParsers "@alice:example.org").Earlier (PassedCreate e.id) freshProcess
          ([handOutQuery, reportAnswer] ++ [createFirst]) createdProcess := by
  have hinit : (process noIdentityParsers "@alice:example.org").init freshProcess := rfl
  have hrun : (process noIdentityParsers "@alice:example.org").Run freshProcess
      ([handOutQuery, reportAnswer] ++ [createFirst]) createdProcess :=
    run_answeredProcess.snoc rfl
  have h := every_launch_keeps_identity hinit hrun
  refine ⟨h.1 _ ?_, ?_⟩
  · rintro up ⟨⟩ _
    rfl
  · obtain ⟨batch, e, hbatch, he, hk⟩ : ∃ batch e,
        createdProcess.requests.takeBatch "@alice:example.org" (some ⟨.ok [], none⟩) =
          .ok batch ∧ e ∈ batch ∧ e.kind = .signingKeysUpload :=
      ⟨_, _, rfl, List.mem_cons_self, by decide⟩
    exact ⟨batch, e, hbatch, he, hk, h.2.2.2 _ batch e hbatch he hk⟩

end MatrixCrypto
