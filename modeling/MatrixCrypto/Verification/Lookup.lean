import MatrixCrypto.Session.Registry
import MatrixCrypto.Signing.Identity
import MatrixCrypto.Verification.Flows

/-!
# Finding a flow

`handles`: the flow's handles out of the registry or, failing that, out of
upstream, which is asked about every tracked user in turn.  Between asking the
registry, asking upstream and registering what was found, other calls run.

## Main definitions

* `FlowState` — what the calls on flows read and write.
* `findFlow` — the trip to upstream.
* `Lookup`, `LookupNext` — the sections of `handles`.

## Main results

* `LookupNext.frame` — finding a flow writes to the flow registry only.
* `findFlow_eq_some` — what the trip finds is a request or, failing every
  request, a comparison.
-/

namespace MatrixCrypto

/-- What the calls on flows read and write. -/
structure FlowState where
  flows : Registry
  upstream : Upstream
  requests : RequestState
  /-- Whether anybody is subscribed to the crypto signals. -/
  observed : Bool

/-- The flow upstream holds under an id, by the first tracked user it has one
with: a request, and a comparison only where there is no request. -/
def findFlow (u : Upstream) (tracked : List String) (flowId : String) : Option FlowRecord :=
  match tracked.findSome? fun user => u.getVerificationRequest user flowId with
  | some request => some (.fromRequest request)
  | none => ((tracked.findSome? fun user => u.getVerification user flowId).bind
      Verification.sasV1).map .fromComparison

/-- `handles`, between two of its sections. -/
inductive Lookup
  /-- About to ask the registry. -/
  | begins (flowId : String)
  /-- The registry held none; about to ask upstream. -/
  | missed (flowId : String)
  /-- Upstream found one; about to see whether it is over. -/
  | found (record : FlowRecord)
  /-- It was not; about to register it. -/
  | adopting (flowId : String) (record : FlowRecord)

/-- One section of `handles`. -/
inductive LookupNext (s : FlowState) :
    Lookup → FlowState → Lookup ⊕ Except MachineError Handles → Prop
  | hit {flowId : String} {record : FlowRecord} (h : s.flows.get? flowId = some record) :
      LookupNext s (.begins flowId) { s with flows := (s.flows.cached s.upstream flowId).2 }
        (.inr (.ok (record.filled s.upstream).handles))
  | miss {flowId : String} (h : s.flows.get? flowId = none) :
      LookupNext s (.begins flowId) s (.inl (.missed flowId))
  | trip {flowId : String} {tracked : List String} {record : FlowRecord}
      (ht : tracked.Perm s.upstream.trackedUsers)
      (h : findFlow s.upstream tracked flowId = some record) :
      LookupNext s (.missed flowId) s (.inl (.found record))
  | tripUnknown {flowId : String} {tracked : List String}
      (ht : tracked.Perm s.upstream.trackedUsers)
      (h : findFlow s.upstream tracked flowId = none) :
      LookupNext s (.missed flowId) s (.inr (.error .unknownFlow))
  | tripFails {flowId : String} : LookupNext s (.missed flowId) s (.inr (.error .store))
  | finished {record : FlowRecord} (h : isFinished (record.stageOf s.upstream) = true) :
      LookupNext s (.found record) s (.inr (.error .unknownFlow))
  | live {record : FlowRecord} {flowId : String}
      (h : isFinished (record.stageOf s.upstream) = false)
      (hid : (record.lookedAt s.upstream).upstreamFlowId = some flowId) :
      LookupNext s (.found record) s (.inl (.adopting flowId (record.lookedAt s.upstream)))
  | register {flowId : String} {record : FlowRecord} :
      LookupNext s (.adopting flowId record)
        { s with flows := (s.flows.register s.upstream s.observed flowId record).2 }
        (.inr (.ok (s.flows.register s.upstream s.observed flowId record).1))

/-- **Finding a flow writes to the flow registry only.** -/
theorem LookupNext.frame {s t : FlowState} {l : Lookup} {r : Lookup ⊕ Except MachineError Handles}
    (h : LookupNext s l t r) : t = { s with flows := t.flows } := by
  cases h <;> rfl

/-- Finding a flow leaves upstream as it is. -/
theorem LookupNext.upstream {s t : FlowState} {l : Lookup}
    {r : Lookup ⊕ Except MachineError Handles} (h : LookupNext s l t r) :
    t.upstream = s.upstream := by
  rw [h.frame]

/-- Finding a flow queues nothing. -/
theorem LookupNext.requests {s t : FlowState} {l : Lookup}
    {r : Lookup ⊕ Except MachineError Handles} (h : LookupNext s l t r) :
    t.requests = s.requests := by
  cases h <;> rfl

/-- What the trip finds. -/
theorem findFlow_eq_some {u : Upstream} {tracked : List String} {flowId : String}
    {record : FlowRecord} (h : findFlow u tracked flowId = some record) :
    (∃ user ∈ tracked, ∃ r, u.getVerificationRequest user flowId = some r ∧
        record = .fromRequest r) ∨
      ∃ user ∈ tracked, ∃ c, u.getVerification user flowId = some (.sas c) ∧
        record = .fromComparison c := by
  unfold findFlow at h
  cases hreq : tracked.findSome? fun user => u.getVerificationRequest user flowId with
  | some r =>
    rw [hreq] at h
    obtain ⟨user, huser, hr⟩ := List.exists_of_findSome?_eq_some hreq
    exact Or.inl ⟨user, huser, r, hr, (Option.some.inj h).symm⟩
  | none =>
    rw [hreq] at h
    obtain ⟨c, hc, rfl⟩ := Option.map_eq_some_iff.mp h
    obtain ⟨verification, hv, hsas⟩ := Option.bind_eq_some_iff.mp hc
    obtain ⟨user, huser, hu⟩ := List.exists_of_findSome?_eq_some hv
    cases verification with
    | qr q => cases hsas
    | sas c' => exact Or.inr ⟨user, huser, c, Option.some.inj hsas ▸ hu, rfl⟩

end MatrixCrypto
