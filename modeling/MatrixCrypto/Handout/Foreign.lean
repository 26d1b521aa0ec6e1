import MatrixCrypto.Process

/-!
# Writes that leave a request alone

What the other calls write to the request registry concerns requests of their
own.  Such a write drains nothing, and queues nothing under an id that is not
its own.

## Main definitions

* `ForeignWrite F` — a write that queues only ids meeting `F`.
* `Spares y` — nothing is drained, and nothing is queued under the id `y`.

## Main results

* `ForeignWrite.spares` — a write of foreign ids spares every id that is not one.
-/

namespace MatrixCrypto

open Lib

/-- A write to the request registry that queues only ids meeting `F`, and drains
nothing. -/
inductive ForeignWrite (F : String → Prop) (s : RequestState) : RequestState → Prop
  | action {r : UpstreamOutgoingRequest} (h : F r.requestId) :
      ForeignWrite F s (s.queueActionRequest r)
  | toDevice {rs : List ToDeviceRequest} (h : ∀ r ∈ rs, F r.txnId) :
      ForeignWrite F s (s.queueToDeviceRequests rs)
  | claim {c : Option (String × KeysClaimRequest)} (h : ∀ b ∈ c, F b.1) :
      ForeignWrite F s (s.withClaim c)
  | signingKeys {id : String} {r : UploadSigningKeysRequest} (h : F id) :
      ForeignWrite F s (s.queueSigningKeysRequest id r)
  | accountQuery {id : String} {r : KeysQueryRequest} (h : F id) :
      ForeignWrite F s (s.queueAccountKeyQuery id r)
  | peerQuery {id : String} {r : KeysQueryRequest} (h : F id) :
      ForeignWrite F s (s.queuePeerKeyQuery id r)
  | settles (id : String) (answer : AnswerAboutAccount) : ForeignWrite F s (s.settle id answer)

/-- Nothing is drained, and nothing is queued under the id `y`. -/
structure Spares (y : String) (s t : RequestState) : Prop where
  kept : ∀ e ∈ s.queuedAction, e ∈ t.queuedAction
  actions : ∀ n r, (n, r) ∈ t.queuedAction → r.requestId = y → (n, r) ∈ s.queuedAction
  signingKeys : ∀ n r, t.queuedSigningKeys = some (n, y, r) → s.queuedSigningKeys = some (n, y, r)
  accountQuery : ∀ n r,
    t.queuedAccountQuery = some (n, y, r) → s.queuedAccountQuery = some (n, y, r)
  toDevice : ∀ r, t.queuedToDevice.get? y = some r → s.queuedToDevice.get? y = some r
  claim : ∀ r, t.pendingClaim = some (y, r) → s.pendingClaim = some (y, r)
  peerQueries : ∀ r, (y, r) ∈ t.queuedPeerQueries → (y, r) ∈ s.queuedPeerQueries
  pending : ∀ i, t.pending.get? i ≠ none → s.pending.get? i ≠ none
  stamped : s.Stamped → t.Stamped

section spares

variable {y : String} {s t : RequestState}

theorem Spares.refl (y : String) (s : RequestState) : Spares y s s :=
  ⟨fun _ h => h, fun _ _ h _ => h, fun _ _ h => h, fun _ _ h => h, fun _ h => h, fun _ h => h,
    fun _ h => h, fun _ h => h, fun h => h⟩

theorem Spares.queuedAt (hst : Spares y s t) {m : ℕ} (h : t.QueuedAt m y) : s.QueuedAt m y := by
  generalize hy : y = i at h
  cases h with
  | action h =>
    subst hy
    exact .action (hst.actions _ _ h rfl)
  | signingKeys h =>
    subst hy
    exact .signingKeys (hst.signingKeys _ _ h)
  | accountQuery h =>
    subst hy
    exact .accountQuery (hst.accountQuery _ _ h)

theorem Spares.carries (hst : Spares y s t) (h : t.Carries y) : s.Carries y := by
  cases h with
  | toDevice h => exact .toDevice (hst.toDevice _ h)
  | claim h => exact .claim (hst.claim _ h)
  | stamped h => exact .stamped (hst.queuedAt h)
  | peerQuery h => exact .peerQuery (hst.peerQueries _ h)

/-- Queueing a request under another id leaves the request alone. -/
theorem spares_queueActionRequest {r : UpstreamOutgoingRequest} (h : r.requestId ≠ y) :
    Spares y s (s.queueActionRequest r) where
  kept := fun _ he => RequestState.mem_queueActionRequest he r
  actions := by
    intro n r' hr' hid
    cases hrep : s.repeats r.requestId with
    | true => rwa [RequestState.queueActionRequest_of_repeats hrep] at hr'
    | false =>
      rw [RequestState.queueActionRequest_of_not_repeats hrep] at hr'
      rcases List.mem_append.mp hr' with hr' | hr'
      · exact hr'
      · rw [List.mem_singleton, Prod.mk.injEq] at hr'
        rw [hr'.2] at hid
        exact absurd hid h
  signingKeys := fun _ _ hs => RequestState.queueActionRequest_queuedSigningKeys s r ▸ hs
  accountQuery := fun _ _ hs => RequestState.queueActionRequest_queuedAccountQuery s r ▸ hs
  toDevice := fun _ hs => RequestState.queueActionRequest_queuedToDevice s r ▸ hs
  claim := fun _ hs => RequestState.queueActionRequest_pendingClaim s r ▸ hs
  peerQueries := fun _ hs => RequestState.queueActionRequest_queuedPeerQueries s r ▸ hs
  pending := fun _ hs => RequestState.queueActionRequest_pending s r ▸ hs
  stamped := fun hs => RequestState.stamped_queueActionRequest hs r

/-- **A write of foreign ids spares every id that is not one.** -/
theorem ForeignWrite.spares {F : String → Prop} (h : ForeignWrite F s t)
    (hy : ∀ i, F i → i ≠ y) : Spares y s t := by
  have same := Spares.refl y s
  cases h with
  | action h => exact spares_queueActionRequest (hy _ h)
  | @toDevice rs h =>
    have htd : ∀ r, (s.queueToDeviceRequests rs).queuedToDevice.get? y = some r →
        s.queuedToDevice.get? y = some r := by
      intro r hr
      rcases RequestState.get?_queueToDeviceRequests hr with hr | ⟨hr, hid⟩
      · exact hr
      · exact absurd hid (hy _ (h r hr))
    rw [RequestState.queueToDeviceRequests_eq]
    exact { same with
      toDevice := htd
      stamped := fun hs => RequestState.stamped_of_queues hs rfl rfl rfl rfl }
  | @claim c h =>
    cases c with
    | none => exact same
    | some b =>
      exact { same with
        claim := by
          intro r hr
          have hb : b = (y, r) := Option.some.inj hr
          exact absurd (congrArg Prod.fst hb) (hy _ (h b rfl))
        stamped := fun hs => RequestState.stamped_of_queues hs rfl rfl rfl rfl }
  | @signingKeys id r h =>
    exact { same with
      signingKeys := by
        intro n r' hr
        have hid : id = y := (Prod.mk.inj (Prod.mk.inj (Option.some.inj hr)).2).1
        exact absurd hid (hy _ h)
      stamped := fun hs => RequestState.stamped_queueSigningKeysRequest hs id r }
  | @accountQuery id r h =>
    exact { same with
      accountQuery := by
        intro n r' hr
        have hid : id = y := (Prod.mk.inj (Prod.mk.inj (Option.some.inj hr)).2).1
        exact absurd hid (hy _ h)
      stamped := fun hs => RequestState.stamped_queueAccountKeyQuery hs id r }
  | @peerQuery id r h =>
    exact { same with
      peerQueries := by
        intro r' hr
        rcases List.mem_append.mp hr with hr | hr
        · exact hr
        · rw [List.mem_singleton] at hr
          exact absurd (Prod.mk.inj hr).1.symm (hy _ h)
      stamped := fun hs => RequestState.stamped_of_queues hs rfl rfl rfl rfl }
  | settles id answer =>
    rw [RequestState.settle_eq]
    exact { same with
      pending := by
        intro i hi
        have hi : (s.pending.erase id).get? i ≠ none := hi
        rw [OrdMap.get?_erase] at hi
        split at hi
        · exact absurd rfl hi
        · exact hi
      stamped := fun hs => RequestState.stamped_of_queues hs rfl rfl rfl rfl }

/-- Nothing becomes pending by such a write. -/
theorem ForeignWrite.pending {F : String → Prop} (h : ForeignWrite F s t) (i : String)
    (hi : t.pending.get? i ≠ none) : s.pending.get? i ≠ none := by
  cases h with
  | action _ => rwa [RequestState.queueActionRequest_pending] at hi
  | toDevice _ =>
    rw [RequestState.queueToDeviceRequests_eq] at hi
    exact hi
  | @claim c _ =>
    cases c with
    | none => exact hi
    | some _ => exact hi
  | settles id answer =>
    rw [RequestState.settle_eq] at hi
    have hi : (s.pending.erase id).get? i ≠ none := hi
    rw [OrdMap.get?_erase] at hi
    split at hi
    · exact absurd rfl hi
    · exact hi
  | _ => exact hi

end spares

end MatrixCrypto
