import MatrixCrypto.Verification.Lookup

/-!
# Starting a comparison

`begin_comparison`, section by section: it finds its flow, reads the stage off
the handles it was given, and only then takes the machine, remembers what
upstream started and queues the opening message.  Between the stage and the
machine anything else may run.

What is known of a flow whose comparison is starting is said once here, for the
modules that interleave the call with others: which comparisons its record may
hold, and that no sweep drops it.

## Main definitions

* `BeginCall`, `BeginNext` — the sections of `begin_comparison`.
* `AtReady` — the flow a call finds under an id is ready.
* `Going`, `Knows`, `Held` — a flow that is going, what its record may hold, and
  where it is found.
* `Lookup.Of` — a lookup in flight is of the flow.

## Main results

* `Knows.filledFrom`, `Knows.retained` — looking and sweeping keep the record.
* `LookupNext.held` — finding the flow keeps it held, and finds it.
-/

namespace MatrixCrypto

open Lib

/-- `begin_comparison`, between two of its sections. -/
inductive BeginCall
  /-- Finding its flow. -/
  | finding (flowId : String) (l : Lookup)
  /-- It has the handles; about to read the stage. -/
  | checking (flowId : String) (handles : Handles)
  /-- The stage was ready; about to take the machine. -/
  | starting (flowId : String) (request : VerificationRequest)
  /-- Upstream has started a comparison. -/
  | remembering (flowId : String) (comparison : Sas) (outgoing : UpstreamOutgoingRequest)
  | queueing (outgoing : UpstreamOutgoingRequest)

/-- One section of `begin_comparison`. -/
inductive BeginNext (s : FlowState) :
    BeginCall → FlowState → BeginCall ⊕ Except MachineError Unit → Prop
  | finds {flowId : String} {l l' : Lookup} {t : FlowState} (h : LookupNext s l t (.inl l')) :
      BeginNext s (.finding flowId l) t (.inl (.finding flowId l'))
  | findsNone {flowId : String} {l : Lookup} {t : FlowState} {e : MachineError}
      (h : LookupNext s l t (.inr (.error e))) :
      BeginNext s (.finding flowId l) t (.inr (.error e))
  | found {flowId : String} {l : Lookup} {t : FlowState} {handles : Handles}
      (h : LookupNext s l t (.inr (.ok handles))) :
      BeginNext s (.finding flowId l) t (.inl (.checking flowId handles))
  | notReady {flowId : String} {handles : Handles} (h : stageFrom s.upstream handles ≠ .ready) :
      BeginNext s (.checking flowId handles) s (.inr (.error .wrongStage))
  | ready {flowId : String} {handles : Handles} {request : VerificationRequest}
      (h : stageFrom s.upstream handles = .ready) (hr : handles.request = some request) :
      BeginNext s (.checking flowId handles) s (.inl (.starting flowId request))
  | requestless {flowId : String} {handles : Handles} (h : stageFrom s.upstream handles = .ready)
      (hr : handles.request = none) :
      BeginNext s (.checking flowId handles) s (.inr (.error .wrongStage))
  | starts {flowId : String} {request : VerificationRequest} {comparison : Sas}
      {outgoing : UpstreamOutgoingRequest} {u : Upstream} (hfresh : s.upstream.Fresh comparison)
      (hflow : comparison.flowId = request.flowId ∧ comparison.otherUserId = request.otherUser)
      (h : s.upstream.startSas request comparison = some u) :
      BeginNext s (.starting flowId request) { s with upstream := u }
        (.inl (.remembering flowId comparison outgoing))
  | startsNone {flowId : String} {request : VerificationRequest} {comparison : Sas}
      (h : s.upstream.startSas request comparison = none) :
      BeginNext s (.starting flowId request) s (.inr (.error .wrongStage))
  | startFails {flowId : String} {request : VerificationRequest} :
      BeginNext s (.starting flowId request) s (.inr (.error .store))
  | remembers {flowId : String} {comparison : Sas} {outgoing : UpstreamOutgoingRequest} :
      BeginNext s (.remembering flowId comparison outgoing)
        { s with flows := s.flows.rememberComparison flowId comparison }
        (.inl (.queueing outgoing))
  | queues {outgoing : UpstreamOutgoingRequest} :
      BeginNext s (.queueing outgoing)
        { s with requests := s.requests.queueActionRequest outgoing } (.inr (.ok ()))

/-- The flow found under an id, in the registry or in upstream, is ready. -/
structure AtReady (s : FlowState) (flowId : String) (r : VerificationRequest) : Prop where
  id : r.flowId = flowId
  found : ∀ tracked : List String, tracked.Perm s.upstream.trackedUsers → ∃ record,
    (s.flows.get? flowId).or (findFlow s.upstream tracked flowId) = some record ∧
      record.request = some r ∧ record.stageOf s.upstream = .ready

/-! ### A flow that is going -/

/-- The request carries the comparison. -/
def Upstream.Carries (u : Upstream) (r : VerificationRequest) (c : Sas) : Prop :=
  u.requestState r = .transitioned (.sas c)

/-- The request is ready, or carries a comparison in `K` that is not over. -/
def Upstream.Going (u : Upstream) (r : VerificationRequest) (K : Sas → Prop) : Prop :=
  (∃ ours theirs, u.requestState r = .ready ours theirs) ∨
    ∃ c, u.Carries r c ∧ K c ∧ (u.sasState c).isFinal = false

/-- What upstream answers about the flow is the request. -/
def Upstream.Finds (u : Upstream) (flowId : String) (r : VerificationRequest) : Prop :=
  ∀ tracked : List String, tracked.Perm u.trackedUsers →
    findFlow u tracked flowId = some (.fromRequest r)

/-- Only the users and the requests decide whether the answer is the request. -/
theorem Upstream.Finds.of_requests {u v : Upstream} {flowId : String} {r : VerificationRequest}
    (h : u.Finds flowId r) (htracked : v.trackedUsers = u.trackedUsers)
    (hrequests : v.getVerificationRequest = u.getVerificationRequest) : v.Finds flowId r := by
  intro tracked ht
  have hfound := h tracked (htracked ▸ ht)
  unfold findFlow at hfound ⊢
  rw [hrequests]
  cases hreq : tracked.findSome? fun user => u.getVerificationRequest user flowId with
  | some r' =>
    rw [hreq] at hfound
    exact hfound
  | none =>
    -- a comparison alone is found as no request
    rw [hreq] at hfound
    obtain ⟨c, -, hc⟩ := Option.map_eq_some_iff.mp hfound
    cases hc

namespace FlowRecord

/-- The record is of a flow that began with the request, is no code, and holds no
comparison but one in `K` that is not over. -/
structure Knows (u : Upstream) (r : VerificationRequest) (K : Sas → Prop)
    (record : FlowRecord) : Prop where
  request : record.request = some r
  code : record.code = none
  comparison : ∀ c, record.comparison = some c → K c ∧ (u.sasState c).isFinal = false

variable {u : Upstream} {r : VerificationRequest} {K : Sas → Prop} {record : FlowRecord}

theorem knows_fromRequest (u : Upstream) (r : VerificationRequest) (K : Sas → Prop) :
    Knows u r K (fromRequest r) := ⟨rfl, rfl, fun _ h => by cases h⟩

theorem became_of_ready {ours theirs : List VerificationMethod} (hr : record.request = some r)
    (h : u.requestState r = .ready ours theirs) : record.became u = none := by
  unfold became; rw [hr, Option.map_some, h]

theorem became_of_transitioned {verification : Verification} (hr : record.request = some r)
    (h : u.requestState r = .transitioned verification) :
    record.became u = some verification := by
  unfold became; rw [hr, Option.map_some, h]

/-- A record at the stage `Ready` holds nothing but a request that is ready. -/
theorem of_stageOf_ready (hr : record.request = some r) (h : record.stageOf u = .ready) :
    (∃ ours theirs, u.requestState r = .ready ours theirs) ∧ record.comparison = none ∧
      record.code = none := by
  unfold stageOf at h
  cases hc : record.comparisonOf u with
  | some c =>
    rw [hc] at h
    cases hs : u.sasState c <;> simp [stageOfComparison, hs] at h
  | none =>
    cases hq : record.codeOf u with
    | some q =>
      rw [hc, hq] at h
      cases hs : u.codeState q <;> simp [stageOfCode, hs] at h
    | none =>
      rw [comparisonOf_eq, Option.or_eq_none_iff] at hc
      rw [codeOf_eq, Option.or_eq_none_iff] at hq
      refine ⟨?_, hc.1, hq.1⟩
      simp only [comparisonOf_eq, codeOf_eq, hc, hq, hr, Option.or_none] at h
      cases hs : u.requestState r with
      | ready ours theirs => exact ⟨ours, theirs, rfl⟩
      | _ => simp [stageOfRequest, hs] at h

namespace Knows

/-- What a going flow answers with is a comparison it holds, or the one its
request carries. -/
theorem comparisonOf (h : Knows u r K record) (hg : u.Going r K) :
    ∀ c, record.comparisonOf u = some c → K c ∧ (u.sasState c).isFinal = false := by
  intro c hc
  rw [comparisonOf_eq, Option.or_eq_some_iff] at hc
  rcases hc with hc | ⟨-, hc⟩
  · exact h.comparison c hc
  · rcases hg with ⟨ours, theirs, hready⟩ | ⟨c', hc', hK, hfin⟩
    · rw [became_of_ready h.request hready] at hc
      cases hc
    · rw [became_of_transitioned h.request hc'] at hc
      obtain rfl : c' = c := Option.some.inj hc
      exact ⟨hK, hfin⟩

theorem codeOf (h : Knows u r K record) (hg : u.Going r K) : record.codeOf u = none := by
  rw [codeOf_eq, h.code, Option.none_or]
  rcases hg with ⟨ours, theirs, hready⟩ | ⟨c, hc, -⟩
  · rw [became_of_ready h.request hready]; rfl
  · rw [became_of_transitioned h.request hc]; rfl

/-- Looking at a going flow fills in nothing it may not hold. -/
theorem filledFrom {filled : FlowRecord} (h : Knows u r K record) (hg : u.Going r K)
    (hf : FilledFrom u record filled) : Knows u r K filled := by
  refine ⟨hf.request.trans h.request, ?_, fun c hc => ?_⟩
  · rcases hf.code with hq | hq
    · rw [hq, h.code]
    · rw [hq, h.codeOf hg]
  · rcases hf.comparison with hf | hf <;> rw [hf] at hc
    · exact h.comparison c hc
    · exact h.comparisonOf hg c hc

/-- A flow that holds no comparison is ready, or is as far as the one its request
carries. -/
theorem stageOf (h : Knows u r K record) (hg : u.Going r K) :
    (∃ c, record.comparisonOf u = some c ∧ (u.sasState c).isFinal = false ∧
      record.stageOf u = stageOfComparison (u.sasState c)) ∨
    (∃ ours theirs, u.requestState r = .ready ours theirs) ∧ record.stageOf u = .ready := by
  cases hc : record.comparisonOf u with
  | some c =>
    exact Or.inl ⟨c, rfl, (h.comparisonOf hg c hc).2, stageOf_of_comparison hc⟩
  | none =>
    rcases hg with ⟨ours, theirs, hready⟩ | ⟨c, hcarries, hK, hfin⟩
    · refine Or.inr ⟨⟨ours, theirs, hready⟩, ?_⟩
      unfold FlowRecord.stageOf
      rw [hc, h.codeOf (Or.inl ⟨ours, theirs, hready⟩), h.request]
      simp [hready, stageOfRequest]
    · rw [comparisonOf_eq, became_of_transitioned h.request hcarries] at hc
      cases hrec : record.comparison <;> rw [hrec] at hc <;> cases hc

theorem not_finished (h : Knows u r K record) (hg : u.Going r K) :
    isFinished (record.stageOf u) = false := by
  rcases h.stageOf hg with ⟨c, -, hfin, hst⟩ | ⟨-, hst⟩
  · rw [hst, isFinished_stageOfComparison, hfin]
  · rw [hst]; rfl

/-- No sweep drops a flow that is going. -/
theorem retained (h : Knows u r K record) (hg : u.Going r K) (observed : Bool) :
    record.retained u observed = true := by
  have hover : record.requestIsOver u = false := by
    unfold requestIsOver
    rw [h.request, Option.map_some, Option.any_some]
    rcases hg with ⟨ours, theirs, hready⟩ | ⟨c, hc, -⟩
    · rw [hready]; rfl
    · rw [show u.requestState r = .transitioned (.sas c) from hc]; rfl
  unfold FlowRecord.retained
  rw [h.not_finished hg, hover]
  rfl

theorem handles (h : Knows u r K record) : record.handles.record.Knows u r K :=
  ⟨h.request, h.code, h.comparison⟩

/-- A flow that has become a comparison is past being ready. -/
theorem not_ready (h : Knows u r K record) (hg : u.Going r K) {c : Sas} (hc : u.Carries r c) :
    record.stageOf u ≠ .ready := by
  rcases h.stageOf hg with ⟨c', -, -, hst⟩ | ⟨⟨ours, theirs, hready⟩, -⟩
  · rw [hst]
    cases u.sasState c' <;> simp [stageOfComparison]
  · rw [show u.requestState r = .transitioned (.sas c) from hc] at hready
    cases hready

end Knows

end FlowRecord

/-- The flow is going, and the registry has it or upstream answers it. -/
structure FlowState.Held (flowId : String) (r : VerificationRequest) (K : Sas → Prop)
    (s : FlowState) : Prop where
  id : r.flowId = flowId
  going : s.upstream.Going r K
  record : ∀ record, s.flows.get? flowId = some record → record.Knows s.upstream r K
  found : s.flows.get? flowId = none → s.upstream.Finds flowId r

/-- A lookup in flight is of the flow. -/
def Lookup.Of (u : Upstream) (flowId : String) (r : VerificationRequest) (K : Sas → Prop) :
    Lookup → Prop
  | begins id => id = flowId
  | missed id => id = flowId ∧ u.Finds flowId r
  | found record => record = .fromRequest r
  | adopting id record => id = flowId ∧ record.Knows u r K

/-- A record under another id, or one that every sweep keeps, is there after any
section of any lookup, and is what looking made of it. -/
theorem LookupNext.keeps {R : FlowRecord → Prop} {s t : FlowState} {l : Lookup} {k : String}
    {res : Lookup ⊕ Except MachineError Handles} {record : FlowRecord}
    (hget : s.flows.get? k = some record) (hR : R record)
    (hfill : ∀ record filled, R record → FlowRecord.FilledFrom s.upstream record filled → R filled)
    (hkeep : ∀ record, R record → record.retained s.upstream s.observed = true)
    (h : LookupNext s l t res) : ∃ after, t.flows.get? k = some after ∧ R after := by
  cases h with
  | @hit id record' hget' =>
    rw [Registry.cached_of_some hget']
    by_cases hk : k = id
    · subst hk
      rw [hget] at hget'
      obtain rfl := Option.some.inj hget'
      exact ⟨_, OrdMap.get?_insert_self _ _ _, hfill _ _ hR FlowRecord.filledFrom_filled⟩
    · exact ⟨record, by rw [OrdMap.get?_insert_of_ne _ _ hk, hget], hR⟩
  | @register id record' =>
    have hswept := Registry.get?_releaseFinished_of_retained hget (hkeep record hR)
    have hlooked : R (record.lookedAt s.upstream) := hfill _ _ hR FlowRecord.filledFrom_lookedAt
    rw [Registry.get?_register]
    by_cases hk : k = id
    · subst hk
      rw [if_pos rfl, hswept, Option.getD_some]
      exact ⟨_, rfl, hfill _ _ hlooked FlowRecord.filledFrom_filled⟩
    · rw [if_neg hk]
      exact ⟨_, hswept, hlooked⟩
  | _ => exact ⟨record, hget, hR⟩

/-- **Finding the flow keeps it held, and finds it**; it fails only where the
store does. -/
theorem LookupNext.held {flowId : String} {r : VerificationRequest} {K : Sas → Prop}
    {s t : FlowState} {l : Lookup} {res : Lookup ⊕ Except MachineError Handles}
    (hs : s.Held flowId r K) (hl : l.Of s.upstream flowId r K) (h : LookupNext s l t res) :
    t.Held flowId r K ∧ (∀ l', res = .inl l' → l'.Of s.upstream flowId r K) ∧
      (∀ handles, res = .inr (.ok handles) → handles.record.Knows s.upstream r K ∧
        ∃ record, t.flows.get? flowId = some record) ∧
      ∀ e, res = .inr (.error e) → e = .store := by
  -- a record that is there stays, and stays one of the flow
  have hkept : ∀ record, s.flows.get? flowId = some record →
      ∃ after, t.flows.get? flowId = some after ∧ after.Knows s.upstream r K :=
    fun record hget => h.keeps hget (hs.record record hget)
      (fun _ _ hrec hf => hrec.filledFrom hs.going hf) fun _ hrec => hrec.retained hs.going _
  cases h with
  | @hit id record hget =>
    obtain rfl : id = flowId := hl
    obtain ⟨after, hafter, hknows⟩ := hkept record hget
    have hflow := (hs.record record hget).filledFrom hs.going FlowRecord.filledFrom_filled
    refine ⟨⟨hs.id, hs.going, fun record' h' => ?_, fun h' => ?_⟩, by simp, ?_, by simp⟩
    · rw [hafter] at h'
      exact Option.some.inj h' ▸ hknows
    · rw [hafter] at h'
      cases h'
    · intro handles hh
      have hh : (record.filled s.upstream).handles = handles := by simpa using hh
      exact ⟨hh ▸ hflow.handles, after, hafter⟩
  | miss hget =>
    obtain rfl : _ = flowId := hl
    exact ⟨hs, fun l' h' => by cases h'; exact ⟨rfl, hs.found hget⟩, by simp, by simp⟩
  | @trip id tracked record ht hfind =>
    obtain ⟨rfl, hfinds⟩ := hl
    refine ⟨hs, fun l' h' => ?_, by simp, by simp⟩
    cases h'
    rw [hfinds tracked ht] at hfind
    exact (Option.some.inj hfind).symm
  | @tripUnknown id tracked ht hfind =>
    obtain ⟨rfl, hfinds⟩ := hl
    rw [hfinds tracked ht] at hfind
    cases hfind
  | tripFails => exact ⟨hs, by simp, by simp, by simp⟩
  | @finished record hfin =>
    -- a flow that is going is not finished
    obtain rfl : record = .fromRequest r := hl
    rw [(FlowRecord.knows_fromRequest s.upstream r K).not_finished hs.going] at hfin
    cases hfin
  | @live record id hlive hid =>
    obtain rfl : record = .fromRequest r := hl
    have hflow := (FlowRecord.knows_fromRequest s.upstream r K).filledFrom hs.going
      FlowRecord.filledFrom_lookedAt
    refine ⟨hs, fun l' h' => ?_, by simp, by simp⟩
    cases h'
    refine ⟨?_, hflow⟩
    rw [FlowRecord.upstreamFlowId, hflow.request] at hid
    exact (Option.some.inj hid).symm.trans hs.id
  | @register id record =>
    obtain ⟨rfl, hrec⟩ := hl
    -- the sweep keeps the record the registry has, if it has one
    have hentry : (((s.flows.releaseFinished s.upstream s.observed).get? id).getD
        record).Knows s.upstream r K := by
      cases hget : s.flows.get? id with
      | none => rw [Registry.get?_releaseFinished, hget]; exact hrec
      | some held =>
        have hheld := hs.record held hget
        rw [Registry.get?_releaseFinished_of_retained hget (hheld.retained hs.going _)]
        exact hheld.filledFrom hs.going FlowRecord.filledFrom_lookedAt
    have hfilled := hentry.filledFrom hs.going FlowRecord.filledFrom_filled
    have hget : (s.flows.register s.upstream s.observed id record).2.get? id =
        some ((((s.flows.releaseFinished s.upstream s.observed).get? id).getD record).filled
          s.upstream) := by
      rw [Registry.get?_register, if_pos rfl]
    refine ⟨⟨hs.id, hs.going, fun record' h' => ?_, fun h' => ?_⟩, by simp, ?_, by simp⟩
    · rw [hget] at h'
      exact Option.some.inj h' ▸ hfilled
    · rw [hget] at h'
      cases h'
    · intro handles hh
      have hh : (s.flows.register s.upstream s.observed id record).1 = handles := by simpa using hh
      exact ⟨hh ▸ hfilled.handles, _, hget⟩

/-- A ready flow is held, with nothing known of it. -/
theorem AtReady.held {s : FlowState} {flowId : String} {r : VerificationRequest}
    (h : AtReady s flowId r) (K : Sas → Prop) :
    (∃ ours theirs, s.upstream.requestState r = .ready ours theirs) ∧ s.Held flowId r K := by
  have hready : ∃ ours theirs, s.upstream.requestState r = .ready ours theirs := by
    obtain ⟨record, -, hreq, hstage⟩ := h.found _ (List.Perm.refl _)
    exact (FlowRecord.of_stageOf_ready hreq hstage).1
  refine ⟨hready, h.id, Or.inl hready, fun record hget => ?_, fun hnone tracked ht => ?_⟩
  · obtain ⟨record', hor, hreq, hstage⟩ := h.found _ (List.Perm.refl _)
    rw [hget, Option.some_or] at hor
    obtain rfl := Option.some.inj hor
    obtain ⟨-, hcomparison, hcode⟩ := FlowRecord.of_stageOf_ready hreq hstage
    exact ⟨hreq, hcode, fun c hc => by rw [hcomparison] at hc; cases hc⟩
  · obtain ⟨record, hor, hreq, -⟩ := h.found tracked ht
    rw [hnone, Option.none_or] at hor
    rcases findFlow_eq_some hor with ⟨_, _, r', _, rfl⟩ | ⟨_, _, c, _, rfl⟩
    · obtain rfl : r' = r := Option.some.inj hreq
      exact hor
    · cases hreq

/-- A section changes upstream only where a comparison is started. -/
theorem BeginNext.upstream {s t : FlowState} {c : BeginCall}
    {res : BeginCall ⊕ Except MachineError Unit} (h : BeginNext s c t res) :
    t.upstream = s.upstream ∨ ∃ id request comparison, c = .starting id request ∧
      s.upstream.Fresh comparison ∧ s.upstream.startSas request comparison = some t.upstream := by
  cases h with
  | finds h => exact Or.inl h.upstream
  | findsNone h => exact Or.inl h.upstream
  | found h => exact Or.inl h.upstream
  | @starts id request comparison outgoing u hfresh hflow h =>
    exact Or.inr ⟨id, request, comparison, rfl, hfresh, h⟩
  | _ => exact Or.inl rfl

end MatrixCrypto
