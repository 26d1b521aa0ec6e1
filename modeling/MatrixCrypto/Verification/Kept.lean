import MatrixCrypto.Verification.Completion

/-!
# What a flow keeps until its completion is taken

Which moves of upstream leave a record answering with its comparison or code,
which sections leave it in the registry with the marks it has, and what the two
passes mark.

## Main definitions

* `Registry.announced`, `Registry.queried` — the flow's completion was taken, its
  query was collected.
* `Registry.KeepsFlow` — a section leaves the flow with its marks, or drops it
  with both.

## Main results

* `Shows.apply`, `finished_apply` — the moves.
* `keepsFlow_releaseFinished` — **a sweep drops no flow that owes something**, if
  it comes neither too early nor to a flow that was cancelled.
* `filter_completionsDue_of_shows`, `count_queriesDue` — what the passes take.
-/

namespace MatrixCrypto

open Lib

/-! ### Upstream's moves -/

/-- A record that answers with the comparison or the code goes on to. -/
theorem FlowRecord.Shows.apply {u : Upstream} {v : Verification} {record : FlowRecord}
    (h : record.Shows u v) {m : UpstreamMove}
    (hm : ∀ r state, m = .request r state → record.request = some r →
      record.Holds v ∧ state.isFinal = true) : record.Shows (m.apply u) v := by
  cases m with
  | sas c state => cases v <;> exact h
  | code q state => cases v <;> exact h
  | request r state =>
    by_cases hr : record.request = some r
    · -- the request is over, and shows nothing any more
      obtain ⟨hholds, hfinal⟩ := hm r state rfl hr
      have hbecame : record.became (u.setRequest r state) = none := by
        unfold became
        rw [hr, Option.map_some, Upstream.setRequest_requestState]
        cases state <;> first | rfl | cases hfinal
      cases v with
      | sas c => exact comparisonOf_of_some hholds
      | qr q =>
        refine ⟨?_, codeOf_of_some hholds.2⟩
        show record.comparisonOf (u.setRequest r state) = none
        rw [comparisonOf_eq, hholds.1, hbecame]
        rfl
    · have hbecame : record.became (u.setRequest r state) = record.became u := by
        unfold became
        cases hreq : record.request with
        | none => rfl
        | some r' =>
          rw [hreq] at hr
          rw [Option.map_some, Option.map_some, Upstream.setRequest_requestState_of_ne]
          intro heq
          exact hr (by rw [heq])
      cases v with
      | sas c =>
        show record.comparisonOf (u.setRequest r state) = some c
        rw [comparisonOf_eq, hbecame]
        exact h
      | qr q =>
        constructor
        · show record.comparisonOf (u.setRequest r state) = none
          rw [comparisonOf_eq, hbecame]
          exact h.1
        · show record.codeOf (u.setRequest r state) = some q
          rw [codeOf_eq, hbecame]
          exact h.2

namespace Verification

variable {u : Upstream} {v : Verification} {m : UpstreamMove}

/-- What is finished stays as it finished. -/
theorem finished_apply (hm : m.Allowed u) (h : isFinished (v.stage u) = true) :
    v.stage (m.apply u) = v.stage u ∧ v.completion (m.apply u) = v.completion u := by
  cases v with
  | sas c =>
    have hfinal : (u.sasState c).isFinal = true := by
      rw [← isFinished_stageOfComparison]
      exact h
    have hsame := hm.advance.sasState hfinal
    simp only [stage, completion, hsame, and_self]
  | qr q =>
    have hfinal : (u.codeState q).isFinal = true := by
      rw [← isFinished_stageOfCode]
      exact h
    have hsame := hm.advance.codeState hfinal
    simp only [stage, completion, hsame, and_self]

/-- A move that finishes nothing finishes no flow. -/
theorem stage_apply_ne_done (hm : m.finishes = false) (h : v.stage u ≠ .done) :
    v.stage (m.apply u) ≠ .done := by
  intro hdone
  cases m with
  | request r state => cases v <;> exact h hdone
  | sas c state =>
    cases v with
    | qr q => exact h hdone
    | sas c' =>
      by_cases heq : c' = c
      · subst heq
        have hstage : stageOfComparison ((u.setSas c' state).sasState c') = .done := hdone
        rw [Upstream.setSas_sasState] at hstage
        cases state with
        | done devices => cases hm
        | _ => cases hstage
      · have hstage : stageOfComparison ((u.setSas c state).sasState c') = .done := hdone
        rw [Upstream.setSas_sasState_of_ne _ _ heq] at hstage
        exact h hstage
  | code q state =>
    cases v with
    | sas c => exact h hdone
    | qr q' =>
      by_cases heq : q' = q
      · subst heq
        have hstage : stageOfCode ((u.setCode q' state).codeState q') = .done := hdone
        rw [Upstream.setCode_codeState] at hstage
        cases state with
        | done => cases hm
        | _ => cases hstage
      · have hstage : stageOfCode ((u.setCode q state).codeState q') = .done := hdone
        rw [Upstream.setCode_codeState_of_ne _ _ heq] at hstage
        exact h hstage

end Verification

/-! ### What sections leave of the flow -/

/-- The flow's completion was taken: its record is marked, or a sweep has dropped
it. -/
def Registry.announced (flows : Registry) (k : String) : Bool :=
  ((flows.get? k).map FlowRecord.completionAnnounced).getD true

/-- The flow's key query was collected, likewise. -/
def Registry.queried (flows : Registry) (k : String) : Bool :=
  ((flows.get? k).map FlowRecord.keyQueryQueued).getD true

/-- The registry has the flow with the marks it had, or dropped it when it was
done and had both. -/
structure Registry.KeepsFlow (k : String) (u : Upstream) (v : Verification)
    (flows after : Registry) : Prop where
  kept : ∀ record, after.get? k = some record → ∃ before, flows.get? k = some before ∧
    FlowRecord.FilledFrom u before record ∧
      record.completionAnnounced = before.completionAnnounced ∧
        record.keyQueryQueued = before.keyQueryQueued
  dropped : after.get? k = none → flows.get? k = none ∨ ∃ before, flows.get? k = some before ∧
    v.stage u = .done ∧ before.completionAnnounced = true ∧ before.keyQueryQueued = true

namespace Registry

variable {k : String} {u : Upstream} {v : Verification} {flows after : Registry}

theorem KeepsFlow.of_get? (h : after.get? k = flows.get? k) : KeepsFlow k u v flows after := by
  refine ⟨fun record hget => ⟨record, h ▸ hget, ?_, rfl, rfl⟩, fun hnone => Or.inl (h ▸ hnone)⟩
  exact ⟨rfl, Or.inl rfl, Or.inl rfl⟩

theorem KeepsFlow.announced (h : KeepsFlow k u v flows after) :
    after.announced k = flows.announced k := by
  unfold Registry.announced
  cases hafter : after.get? k with
  | some record =>
    obtain ⟨before, hbefore, -, hsame, -⟩ := h.kept record hafter
    rw [hbefore, Option.map_some, Option.map_some, hsame]
  | none =>
    rcases h.dropped hafter with hbefore | ⟨before, hbefore, -, hmark, -⟩
    · rw [hbefore]
    · rw [hbefore, Option.map_some, hmark]
      rfl

theorem KeepsFlow.queried (h : KeepsFlow k u v flows after) :
    after.queried k = flows.queried k := by
  unfold Registry.queried
  cases hafter : after.get? k with
  | some record =>
    obtain ⟨before, hbefore, -, -, hsame⟩ := h.kept record hafter
    rw [hbefore, Option.map_some, Option.map_some, hsame]
  | none =>
    rcases h.dropped hafter with hbefore | ⟨before, hbefore, -, -, hmark⟩
    · rw [hbefore]
    · rw [hbefore, Option.map_some, hmark]
      rfl

/-- **A sweep that comes neither too early nor to a flow that was cancelled keeps
the flow, or drops it when both passes have marked it.** -/
theorem keepsFlow_releaseFinished
    (hshows : ∀ record, flows.get? k = some record → record.Shows u v)
    (hlate : ∀ record, flows.get? k = some record → record.requestIsOver u = true →
      isFinished (v.stage u) = true) (hlive : v.stage u ≠ .cancelled) :
    KeepsFlow k u v flows (flows.releaseFinished u true) := by
  refine ⟨fun record hget => ?_, fun hnone => ?_⟩
  · obtain ⟨before, hbefore, rfl, -⟩ := of_get?_releaseFinished hget
    exact ⟨before, hbefore, FlowRecord.filledFrom_lookedAt,
      FlowRecord.completionAnnounced_lookedAt u before, FlowRecord.keyQueryQueued_lookedAt u before⟩
  · cases hbefore : flows.get? k with
    | none => exact Or.inl rfl
    | some before =>
      refine Or.inr ⟨before, rfl, ?_⟩
      have hswept : before.retained u true = false := by
        cases hret : before.retained u true with
        | false => rfl
        | true =>
          rw [get?_releaseFinished_of_retained hbefore hret] at hnone
          cases hnone
      unfold FlowRecord.retained at hswept
      rw [(hshows before hbefore).stageOf] at hswept
      by_cases hfin : isFinished (v.stage u) = true
      · have hdone : v.stage u = .done := by
          cases hs : v.stage u with
          | done => rfl
          | cancelled => exact absurd hs hlive
          | _ => rw [hs] at hfin; cases hfin
        rw [hdone] at hswept
        simp [isFinished] at hswept
        exact ⟨hdone, hswept.1, hswept.2⟩
      · have hover : before.requestIsOver u = false := by
          cases hover : before.requestIsOver u with
          | false => rfl
          | true => exact absurd (hlate before hbefore hover) hfin
        rw [hover, Bool.eq_false_iff.mpr hfin] at hswept
        simp at hswept

theorem keepsFlow_register {id : String} (record : FlowRecord) (hne : id ≠ k)
    (h : KeepsFlow k u v flows (flows.releaseFinished u true)) :
    KeepsFlow k u v flows (flows.register u true id record).2 := by
  have hget : (flows.register u true id record).2.get? k =
      (flows.releaseFinished u true).get? k := by
    rw [get?_register, if_neg (Ne.symm hne)]
  exact ⟨fun record' h' => h.kept record' (hget ▸ h'), fun h' => h.dropped (hget ▸ h')⟩

theorem keepsFlow_registerIfAbsent {id : String} (record : FlowRecord) (hne : id ≠ k)
    (h : KeepsFlow k u v flows (flows.releaseFinished u true)) :
    KeepsFlow k u v flows (flows.registerIfAbsent u true id record).2 := by
  have hget : (flows.registerIfAbsent u true id record).2.get? k =
      (flows.releaseFinished u true).get? k := by
    rw [get?_registerIfAbsent, if_neg]
    exact fun h => hne h.1.symm
  exact ⟨fun record' h' => h.kept record' (hget ▸ h'), fun h' => h.dropped (hget ▸ h')⟩

theorem keepsFlow_cached (id : String) : KeepsFlow k u v flows (flows.cached u id).2 := by
  by_cases hk : k = id
  · subst hk
    cases hget : flows.get? k with
    | none =>
      rw [cached_of_none hget]
      exact .of_get? rfl
    | some record =>
      rw [cached_of_some hget]
      refine ⟨fun record' h' => ⟨record, hget, ?_⟩, fun h' => ?_⟩
      · rw [OrdMap.get?_insert_self] at h'
        obtain rfl := Option.some.inj h'
        exact ⟨FlowRecord.filledFrom_filled, rfl, rfl⟩
      · rw [OrdMap.get?_insert_self] at h'
        cases h'
  · exact .of_get? (get?_cached_of_ne hk)

end Registry

/-! ### What the passes leave of the flow -/

namespace FlowRecord

variable {u : Upstream} {record : FlowRecord}

theorem completionAnnounced_afterAnnouncing : (record.afterAnnouncing u).completionAnnounced =
    (record.completionAnnounced || record.stageOf u == .done) := by
  unfold afterAnnouncing
  split
  · next h => rw [h, Bool.true_or]
  · next h =>
    split
    · next hst =>
      rw [completionAnnounced_lookedAt, Bool.eq_false_iff.mpr h, Bool.false_or]
      exact (beq_eq_false_iff_ne.mpr hst).symm
    · next hst =>
      rw [not_not.mp hst]
      simp

theorem keyQueryQueued_afterAnnouncing :
    (record.afterAnnouncing u).keyQueryQueued = record.keyQueryQueued := by
  unfold afterAnnouncing
  split
  · rfl
  · split
    · exact keyQueryQueued_lookedAt u record
    · exact keyQueryQueued_lookedAt u record

theorem keyQueryQueued_afterQuerying : (record.afterQuerying u).keyQueryQueued =
    (record.keyQueryQueued || record.stageOf u == .done) := by
  unfold afterQuerying
  split
  · next h => rw [h, Bool.true_or]
  · next h =>
    split
    · next hst =>
      rw [keyQueryQueued_lookedAt, Bool.eq_false_iff.mpr h, Bool.false_or]
      exact (beq_eq_false_iff_ne.mpr hst).symm
    · next hst =>
      rw [not_not.mp hst]
      simp

theorem completionAnnounced_afterQuerying :
    (record.afterQuerying u).completionAnnounced = record.completionAnnounced := by
  unfold afterQuerying
  split
  · rfl
  · split
    · exact completionAnnounced_lookedAt u record
    · exact completionAnnounced_lookedAt u record

end FlowRecord

namespace Registry

variable {k : String} {u : Upstream} {v : Verification} {flows : Registry}

/-- A pass over the whole table that adds `b` to the announcement mark of a record. -/
theorem announced_mapValues {f : FlowRecord → FlowRecord} {b : Bool}
    (hf : ∀ record, flows.get? k = some record →
      (f record).completionAnnounced = (record.completionAnnounced || b)) :
    Registry.announced (flows.mapValues fun _ record => f record) k =
      (flows.announced k || b) := by
  unfold announced
  rw [OrdMap.get?_mapValues]
  cases hget : flows.get? k with
  | none => rfl
  | some record => exact hf record hget

/-- The same of the key query mark. -/
theorem queried_mapValues {f : FlowRecord → FlowRecord} {b : Bool}
    (hf : ∀ record, flows.get? k = some record →
      (f record).keyQueryQueued = (record.keyQueryQueued || b)) :
    Registry.queried (flows.mapValues fun _ record => f record) k =
      (flows.queried k || b) := by
  unfold queried
  rw [OrdMap.get?_mapValues]
  cases hget : flows.get? k with
  | none => rfl
  | some record => exact hf record hget

/-- The announcement pass marks a flow that is done, and no other mark. -/
theorem announced_takePendingCompletions
    (hshows : ∀ record, flows.get? k = some record → record.Shows u v) :
    (flows.takePendingCompletions u).2.announced k =
      (flows.announced k || v.stage u == .done) := by
  apply announced_mapValues
  intro record hget
  rw [FlowRecord.completionAnnounced_afterAnnouncing, (hshows record hget).stageOf]

theorem queried_takePendingCompletions :
    (flows.takePendingCompletions u).2.queried k = flows.queried k := by
  rw [← Bool.or_false (flows.queried k)]
  apply queried_mapValues
  intro record _
  rw [FlowRecord.keyQueryQueued_afterAnnouncing, Bool.or_false]

/-- The key query pass marks a flow that is done, and no other mark. -/
theorem queried_peersOwedAKeyQuery
    (hshows : ∀ record, flows.get? k = some record → record.Shows u v) :
    (flows.peersOwedAKeyQuery u).2.queried k = (flows.queried k || v.stage u == .done) := by
  apply queried_mapValues
  intro record hget
  rw [FlowRecord.keyQueryQueued_afterQuerying, (hshows record hget).stageOf]

theorem announced_peersOwedAKeyQuery :
    (flows.peersOwedAKeyQuery u).2.announced k = flows.announced k := by
  rw [← Bool.or_false (flows.announced k)]
  apply announced_mapValues
  intro record _
  rw [FlowRecord.completionAnnounced_afterQuerying, Bool.or_false]

/-- Neither pass changes what the record answers with. -/
theorem shows_mapValues {f : FlowRecord → FlowRecord}
    (hf : ∀ record, FlowRecord.FilledFrom u record (f record))
    (hshows : ∀ record, flows.get? k = some record → record.Shows u v) :
    ∀ record, (flows.mapValues fun _ record => f record).get? k = some record →
      record.Shows u v := by
  intro record hget
  rw [OrdMap.get?_mapValues, Option.map_eq_some_iff] at hget
  obtain ⟨before, hbefore, rfl⟩ := hget
  exact (hshows before hbefore).filledFrom (hf before)

/-- What the announcement pass takes of the flow. -/
theorem filter_completionsDue_of_shows
    (hshows : ∀ record, flows.get? k = some record → record.Shows u v) :
    (completionsDue flows u).filter (fun e => decide (e.1 = k)) =
      if flows.announced k = false ∧ v.stage u = .done then [(k, v.completion u)] else [] := by
  rw [filter_completionsDue]
  unfold announced
  cases hget : flows.get? k with
  | none => simp
  | some record =>
    have hrec := hshows record hget
    by_cases hdone : v.stage u = .done
    · rw [← hrec.completion hdone]
      cases hmark : record.completionAnnounced <;>
        simp [Option.filter, FlowRecord.owesCompletion, hmark, hrec.stageOf, hdone]
    · simp [Option.filter, FlowRecord.owesCompletion, hrec.stageOf, hdone]

/-- How many queries the key query pass takes of the flow. -/
theorem count_queriesDue {code : QrVerification}
    (hshows : ∀ record, flows.get? k = some record → record.Shows u (.qr code)) :
    (queriesDue flows u).count (k, code.otherUserId) =
      if flows.queried k = false ∧ (Verification.qr code).stage u = .done then 1 else 0 := by
  rw [← List.count_filter (p := fun e => decide (e.1 = k)) (by simp), filter_queriesDue]
  unfold queried
  cases hget : flows.get? k with
  | none => simp
  | some record =>
    have hrec := hshows record hget
    by_cases hdone : (Verification.qr code).stage u = .done
    · cases hmark : record.keyQueryQueued <;>
        simp [Option.filter, FlowRecord.owesKeyQuery, hmark, hrec.stageOf, hdone,
          hrec.finishedByScanning hdone]
    · simp [Option.filter, FlowRecord.owesKeyQuery, hrec.stageOf, hdone]

end Registry

end MatrixCrypto
