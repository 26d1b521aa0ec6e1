import MatrixCrypto.Verification.Begin

/-!
# What the calls of a going flow hold

While no call destroys the flow, every comparison anything holds of it is the
one its request carries: the record, the handles a call was given, and the
comparison a begin started and has not yet remembered.

## Main definitions

* `BeginCall.Of` — what a begin in flight holds of the flow.
* `Upstream.Alone` — a comparison that is started for the request lives.
* `FlowState.HeldAsCarried` — the flow is held with the comparison it carries.

## Main results

* `Held.becomes` — a ready flow may come to carry any comparison.
* `BeginNext.held` — a begin that finds its request ready and alone, if it starts a
  comparison, keeps all of this.
-/

namespace MatrixCrypto

open Lib

/-- The call is of the flow, and what it started the request carries. -/
def BeginCall.Of (u : Upstream) (flowId : String) (r : VerificationRequest) : BeginCall → Prop
  | finding id l => id = flowId ∧ l.Of u flowId r (u.Carries r)
  | checking id handles => id = flowId ∧ handles.record.Knows u r (u.Carries r)
  | starting id request => id = flowId ∧ request = r
  | remembering id c _ => id = flowId ∧ u.Carries r c
  | queueing _ => True

/-- The flow is held, with no comparison but the one its request carries. -/
abbrev FlowState.HeldAsCarried (flowId : String) (r : VerificationRequest) (s : FlowState) : Prop :=
  s.Held flowId r (s.upstream.Carries r)

/-- The request is ready, and no other verification with its user is kept: one that is started
now lives. -/
def Upstream.Alone (u : Upstream) (r : VerificationRequest) : Prop :=
  (∃ ours theirs, u.requestState r = .ready ours theirs) ∧ u.rivals r.otherUser = []

/-- A ready flow whose request comes to carry a comparison that is not over
holds that one, and nothing held of it turns stale. -/
theorem FlowState.Held.becomes {flowId : String} {r : VerificationRequest} {s : FlowState}
    {ours theirs : List VerificationMethod} {c : Sas} {u : Upstream}
    (hs : s.HeldAsCarried flowId r) (hready : s.upstream.requestState r = .ready ours theirs)
    (hcarries : u.Carries r c) (hlive : (u.sasState c).isFinal = false)
    (htracked : u.trackedUsers = s.upstream.trackedUsers)
    (hrequests : u.getVerificationRequest = s.upstream.getVerificationRequest) :
    FlowState.HeldAsCarried flowId r { s with upstream := u } ∧ u.Carries r c ∧
      ∀ m : BeginCall, m.Of s.upstream flowId r → m.Of u flowId r := by
  -- while the request is ready nothing knows any comparison
  have hknows : ∀ record : FlowRecord, record.Knows s.upstream r (s.upstream.Carries r) →
      record.Knows u r (u.Carries r) := by
    intro record hrec
    refine ⟨hrec.request, hrec.code, fun c' hc' => ?_⟩
    have hcarries : s.upstream.requestState r = _ := (hrec.comparison c' hc').1
    rw [hready] at hcarries
    cases hcarries
  have hgoing : u.Going r (u.Carries r) := Or.inr ⟨c, hcarries, hcarries, hlive⟩
  have hfinds : s.upstream.Finds flowId r → u.Finds flowId r := fun h =>
    h.of_requests htracked hrequests
  refine ⟨⟨hs.id, hgoing, fun record hget => hknows record (hs.record record hget),
    fun hnone => hfinds (hs.found hnone)⟩, hcarries, fun m hm => ?_⟩
  cases m with
  | finding id l =>
    refine ⟨hm.1, ?_⟩
    cases l with
    | begins id => exact hm.2
    | missed id => exact ⟨hm.2.1, hfinds hm.2.2⟩
    | found record => exact hm.2
    | adopting id record => exact ⟨hm.2.1, hknows _ hm.2.2⟩
  | checking id handles => exact ⟨hm.1, hknows _ hm.2⟩
  | starting id request => exact hm
  | remembering id c' out =>
    have hcarries' : s.upstream.requestState r = _ := hm.2
    rw [hready] at hcarries'
    cases hcarries'
  | queueing out => exact hm

/-- A ready flow that is started, with no other verification with its user kept, carries the
comparison, and nothing held of it turns stale. -/
theorem FlowState.Held.starts {flowId : String} {r : VerificationRequest} {s : FlowState}
    {ours theirs : List VerificationMethod} {c : Sas} {u : Upstream}
    (hs : s.HeldAsCarried flowId r) (hready : s.upstream.requestState r = .ready ours theirs)
    (hrivals : s.upstream.rivals c.otherUserId = []) (h : s.upstream.startSas r c = some u) :
    FlowState.HeldAsCarried flowId r { s with upstream := u } ∧ u.Carries r c ∧
      ∀ m : BeginCall, m.Of s.upstream flowId r → m.Of u flowId r := by
  rw [Upstream.startSas_of_ready c hready, Upstream.insertSas_of_no_rivals hrivals] at h
  split at h
  · cases h
    refine hs.becomes hready (Upstream.becomes_requestState ..) ?_ rfl rfl
    rw [Upstream.becomes_sasState, Upstream.route_sasState, Upstream.setSas_sasState]
    rfl
  · cases h

/-- Remembering the comparison the request carries keeps the flow held. -/
theorem FlowState.Held.remembers {flowId : String} {r : VerificationRequest} {s : FlowState}
    {c : Sas} (hs : s.HeldAsCarried flowId r) (hc : s.upstream.Carries r c) :
    FlowState.HeldAsCarried flowId r
      { s with flows := s.flows.rememberComparison flowId c } := by
  refine ⟨hs.id, hs.going, fun record h => ?_, fun h => ?_⟩
  · rw [Registry.get?_rememberComparison, if_pos rfl, Option.map_eq_some_iff] at h
    obtain ⟨before, hget, rfl⟩ := h
    have hbefore := hs.record before hget
    refine ⟨hbefore.request, hbefore.code, fun c' hc' => ?_⟩
    obtain rfl : c = c' := Option.some.inj hc'
    refine ⟨hc, ?_⟩
    rcases hs.going with ⟨ours, theirs, hready⟩ | ⟨c', hc', -, hfin⟩
    · rw [show s.upstream.requestState r = .transitioned (.sas c) from hc] at hready
      cases hready
    · have heq : (VerificationRequestState.transitioned (.sas c)) = .transitioned (.sas c') :=
        Eq.trans (Eq.symm hc) hc'
      cases heq
      exact hfin
  · rw [Registry.get?_rememberComparison, if_pos rfl, Option.map_eq_none_iff] at h
    exact hs.found h

/-- One section of a begin, which starts a comparison for a request that is ready and alone
only. -/
theorem BeginNext.held {flowId : String} {r : VerificationRequest} {s t : FlowState}
    {c : BeginCall} {res : BeginCall ⊕ Except MachineError Unit}
    (halone : ∀ id request comparison u, c = .starting id request →
      s.upstream.startSas request comparison = some u → s.upstream.Alone request)
    (hs : s.HeldAsCarried flowId r)
    (hc : c.Of s.upstream flowId r) (h : BeginNext s c t res) :
    t.HeldAsCarried flowId r ∧ (∀ c', res = .inl c' → c'.Of t.upstream flowId r) ∧
      ∀ m : BeginCall, m.Of s.upstream flowId r → m.Of t.upstream flowId r := by
  cases h with
  | @finds id l l' t h =>
    obtain ⟨hheld, hof, -, -⟩ := h.held hs hc.2
    unfold FlowState.HeldAsCarried
    rw [h.frame] at hheld ⊢
    exact ⟨hheld, by rintro c' ⟨⟩; exact ⟨hc.1, hof l' rfl⟩, fun _ hm => hm⟩
  | @findsNone id l t e h =>
    obtain ⟨hheld, -, -, -⟩ := h.held hs hc.2
    unfold FlowState.HeldAsCarried
    rw [h.frame] at hheld ⊢
    exact ⟨hheld, by simp, fun _ hm => hm⟩
  | @found id l t handles h =>
    obtain ⟨hheld, -, hflow, -⟩ := h.held hs hc.2
    unfold FlowState.HeldAsCarried
    rw [h.frame] at hheld ⊢
    exact ⟨hheld, by rintro c' ⟨⟩; exact ⟨hc.1, (hflow handles rfl).1⟩, fun _ hm => hm⟩
  | notReady h => exact ⟨hs, by simp, fun _ hm => hm⟩
  | @ready id handles request h hr =>
    refine ⟨hs, ?_, fun _ hm => hm⟩
    rintro c' ⟨⟩
    have hreq : handles.request = some r := hc.2.request
    rw [hr] at hreq
    exact ⟨hc.1, Option.some.inj hreq⟩
  | requestless h hr => exact ⟨hs, by simp, fun _ hm => hm⟩
  | @starts id request comparison outgoing u hfresh hflow h =>
    obtain ⟨rfl, rfl⟩ := hc
    obtain ⟨⟨ours, theirs, hready⟩, hrivals⟩ := halone _ _ _ _ rfl h
    obtain ⟨hheld, hcarries, hof⟩ := hs.starts hready (by rw [hflow.2, hrivals]) h
    exact ⟨hheld, by rintro c' ⟨⟩; exact ⟨rfl, hcarries⟩, hof⟩
  | startsNone h => exact ⟨hs, by simp, fun _ hm => hm⟩
  | startFails => exact ⟨hs, by simp, fun _ hm => hm⟩
  | @remembers id comparison outgoing =>
    obtain ⟨rfl, hcarries⟩ := hc
    exact ⟨hs.remembers hcarries, by rintro c' ⟨⟩; trivial, fun _ hm => hm⟩
  | queues => exact ⟨⟨hs.id, hs.going, hs.record, hs.found⟩, by simp, fun _ hm => hm⟩

/-! ### A comparison advances -/

/-- A comparison that is not over may go on to be anything that is not over. -/
theorem FlowRecord.Knows.advances {u : Upstream} {r : VerificationRequest} {K : Sas → Prop}
    {record : FlowRecord} (h : record.Knows u r K) {c : Sas} {state : SasState}
    (hstate : state.isFinal = false) : record.Knows (u.setSas c state) r K := by
  refine ⟨h.request, h.code, fun c' hc' => ⟨(h.comparison c' hc').1, ?_⟩⟩
  by_cases heq : c' = c
  · rw [heq, Upstream.setSas_sasState, hstate]
  · rw [Upstream.setSas_sasState_of_ne _ _ heq]
    exact (h.comparison c' hc').2

theorem Upstream.Going.advances {u : Upstream} {r : VerificationRequest} {K : Sas → Prop}
    (h : u.Going r K) {c : Sas} {state : SasState} (hstate : state.isFinal = false) :
    (u.setSas c state).Going r K := by
  rcases h with hready | ⟨c', hcarries, hK, hfin⟩
  · exact Or.inl hready
  · refine Or.inr ⟨c', hcarries, hK, ?_⟩
    by_cases heq : c' = c
    · rw [heq, Upstream.setSas_sasState, hstate]
    · rw [Upstream.setSas_sasState_of_ne _ _ heq, hfin]

/-- A comparison that goes on turns nothing stale that is held of the flow. -/
theorem FlowState.Held.advances {flowId : String} {r : VerificationRequest} {s : FlowState}
    (hs : s.HeldAsCarried flowId r) (c : Sas) {state : SasState} (hstate : state.isFinal = false) :
    FlowState.HeldAsCarried flowId r { s with upstream := s.upstream.setSas c state } ∧
      ∀ m : BeginCall, m.Of s.upstream flowId r → m.Of (s.upstream.setSas c state) flowId r := by
  refine ⟨⟨hs.id, hs.going.advances hstate, fun record hget => (hs.record record hget).advances
    hstate, hs.found⟩, fun m hm => ?_⟩
  cases m with
  | finding id l =>
    refine ⟨hm.1, ?_⟩
    cases l with
    | adopting id record => exact ⟨hm.2.1, hm.2.2.advances hstate⟩
    | _ => exact hm.2
  | checking id handles => exact ⟨hm.1, hm.2.advances hstate⟩
  | _ => exact hm

/-- A lookup of a held flow leaves what is registered of it, and every comparison
its record holds. -/
theorem LookupNext.registered {flowId : String} {r : VerificationRequest} {K : Sas → Prop}
    {s t : FlowState} {l : Lookup} {res : Lookup ⊕ Except MachineError Handles}
    (hgoing : s.upstream.Going r K) {record : FlowRecord}
    (hget : s.flows.get? flowId = some record) (hknows : record.Knows s.upstream r K)
    (h : LookupNext s l t res) :
    ∃ after, t.flows.get? flowId = some after ∧ after.Knows s.upstream r K ∧
      ∀ c, record.comparison = some c → after.comparison = some c := by
  refine h.keeps (R := fun after => after.Knows s.upstream r K ∧
    ∀ c, record.comparison = some c → after.comparison = some c) hget ⟨hknows, fun _ hc => hc⟩ ?_
    fun _ hrec => hrec.1.retained hgoing _
  intro before filled hbefore hf
  refine ⟨hbefore.1.filledFrom hgoing hf, fun c hc => ?_⟩
  have hheld := hbefore.2 c hc
  rcases hf.comparison with heq | heq
  · rw [heq, hheld]
  · rw [heq, FlowRecord.comparisonOf_of_some hheld]

end MatrixCrypto
