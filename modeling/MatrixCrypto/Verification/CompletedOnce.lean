import Mathlib.Algebra.GroupWithZero.Nat
import MatrixCrypto.Verification.Kept

/-!
# A completion is taken once

The passes of any number of syncs over one flow, in any interleaving with the
calls that register other flows and so sweep the registry.

## Main definitions

* `CompletedOnce` — one pass took the flow's completion, and one query was queued
  about the user whose code it scanned.
* `Undropped` — no sweep finds the flow between the end of its request and the
  end of its comparison or code.
* `Accounted` — the marks of the record are what the passes took, and what is
  not marked yet some sync in flight is still to pass.

## Main results

* `accounted_step`, `accounted_run` — the books hold through every run in which
  no sweep drops the flow too early.
* `completedOnce_of_undropped` — **every completion is taken exactly once.**
* `completion_swept` — a run in which a sweep takes the flow first.
-/

namespace MatrixCrypto

open Lib

/-- What happens in one step. -/
abbrev CompletionEvent := Event CompletionCall (Except SessionError Unit) UpstreamMove

/-- The syncs and the calls in flight. -/
abbrev CompletionPool := Pool CompletionState CompletionCall

/-- The system of all interleavings. -/
abbrev completions (k : String) : TransitionSystem CompletionPool CompletionEvent :=
  (completing k).system fun _ => True

/-- **One pass took the completion of the flow**, and where it finished by
scanning another user's code, one key query about that user was queued. -/
structure CompletedOnce (k : String) (v : Verification) (s : CompletionState) : Prop where
  taken : s.taken.filter (fun e => decide (e.1 = k)) = [(k, v.completion s.flow.upstream)]
  asked : ∀ code, v = .qr code → code.otherUserId ≠ s.flow.upstream.userId →
    s.asked.count (k, code.otherUserId) = 1

/-- The flow is going under its id, with neither mark and nothing taken of it. -/
structure Unfinished (k : String) (v : Verification) (s : CompletionState) : Prop where
  record : ∃ record, s.flow.flows.get? k = some record ∧ record.Shows s.flow.upstream v ∧
    record.completionAnnounced = false ∧ record.keyQueryQueued = false
  stage : v.stage s.flow.upstream ≠ .done
  observed : s.flow.observed = true
  taken : s.taken.filter (fun e => decide (e.1 = k)) = []
  asked : ∀ user, s.asked.count (k, user) = 0

/-! ### The steps that may lose a completion -/

/-- The section sweeps the registry. -/
def CompletionCall.sweeps : CompletionCall → Bool
  | registering _ _ | candidates (_ :: _) => true
  | _ => false

/-- The move upstream makes in a step. -/
def moveOf : CompletionEvent → Option UpstreamMove
  | .section (.receiving (m :: _)) (.inl _) => some m
  | .world m => some m
  | _ => none

/-- The step drops nothing of the flow too early: no sweep finds its request over
and its comparison or code not; its request moves only to be over, and then the
record has stored the comparison or code; and no sync that sees it done fails. -/
structure Undropped (k : String) (v : Verification) (p : CompletionPool) (e : CompletionEvent) :
    Prop where
  sweeps : ∀ call res, e = .section call res → call.sweeps = true →
    ∀ record, p.shared.flow.flows.get? k = some record →
      record.requestIsOver p.shared.flow.upstream = true →
        isFinished (v.stage p.shared.flow.upstream) = true
  ends : ∀ r state, moveOf e = some (.request r state) →
    ∀ record, p.shared.flow.flows.get? k = some record → record.request = some r →
      record.Holds v ∧ state.isFinal = true
  receives : ∀ moves out, e = .section (.receiving moves) (.inr out) →
    v.stage p.shared.flow.upstream ≠ .done

/-! ### The books -/

/-- How many queries about the user the call is to queue for the flow. -/
def CompletionCall.owing (k user : String) : CompletionCall → ℕ
  | asking owed => owed.count (k, user)
  | _ => 0

/-- The call is a sync that is still to walk the registry for key queries. -/
def CompletionCall.beforeQuerying : CompletionCall → Bool
  | receiving _ | querying => true
  | _ => false

/-- The call is a sync that is still to take the completions. -/
def CompletionCall.beforeAnnouncing : CompletionCall → Bool
  | receiving _ | querying | asking _ | announcing => true
  | _ => false

/-- The call registers no flow under the id. -/
def CompletionCall.Elsewhere (k : String) : CompletionCall → Prop
  | registering flowId _ => flowId ≠ k
  | candidates found => ∀ e ∈ found, e.1 ≠ k
  | _ => True

/-- How many queries about the user the calls are to queue for the flow. -/
def owingAll (k user : String) (calls : List CompletionCall) : ℕ :=
  (calls.map (CompletionCall.owing k user)).sum

/-- The flow's record answers with its comparison or code and is marked only when
that is done, and what is marked was taken; a flow that is gone was done. -/
structure Accounted (k : String) (v : Verification) (s : CompletionState)
    (calls : List CompletionCall) : Prop where
  observed : s.flow.observed = true
  elsewhere : ∀ call ∈ calls, call.Elsewhere k
  shows : ∀ record, s.flow.flows.get? k = some record → record.Shows s.flow.upstream v
  marked : s.flow.flows.announced k = true ∨ s.flow.flows.queried k = true →
    v.stage s.flow.upstream = .done
  taken : s.taken.filter (fun e => decide (e.1 = k)) =
    if s.flow.flows.announced k then [(k, v.completion s.flow.upstream)] else []
  asked : ∀ code, v = .qr code → code.otherUserId ≠ s.flow.upstream.userId →
    s.asked.count (k, code.otherUserId) + owingAll k code.otherUserId calls =
      if s.flow.flows.queried k then 1 else 0
  announcing : v.stage s.flow.upstream = .done → s.flow.flows.announced k = false →
    ∃ call ∈ calls, call.beforeAnnouncing = true
  querying : v.stage s.flow.upstream = .done → s.flow.flows.queried k = false →
    ∃ call ∈ calls, call.beforeQuerying = true

theorem owingAll_split {k user : String} (before after : List CompletionCall)
    (mid : List CompletionCall) : owingAll k user (before ++ (mid ++ after)) =
      owingAll k user mid + owingAll k user (before ++ after) := by
  unfold owingAll
  simp only [List.map_append, List.sum_append]
  omega

namespace Accounted

variable {k : String} {v : Verification} {s t : CompletionState}
  {before after : List CompletionCall} {l : CompletionCall}

/-- The calls that go on register no flow under the id, if the one that goes on
does not. -/
theorem elsewhere_remaining (res : CompletionCall ⊕ Except SessionError Unit)
    (h : Accounted k v s (before ++ l :: after)) (hres : ∀ call ∈ remaining res, call.Elsewhere k) :
    ∀ call ∈ before ++ (remaining res ++ after), call.Elsewhere k := by
  exact forall_remaining h.elsewhere hres

/-- A section that takes nothing and keeps the flow's record keeps the books, if
its call owes no less and is not past a pass it was before. -/
theorem kept (res : CompletionCall ⊕ Except SessionError Unit)
    (h : Accounted k v s (before ++ l :: after)) {flows : Registry}
    (hkeeps : Registry.KeepsFlow k s.flow.upstream v s.flow.flows flows)
    (ht : t = { s with flow := { s.flow with flows := flows } })
    (helse : ∀ call ∈ remaining res, call.Elsewhere k)
    (howing : ∀ user, owingAll k user (remaining res) = l.owing k user)
    (hannouncing : l.beforeAnnouncing = true →
      ∃ call ∈ remaining res, call.beforeAnnouncing = true)
    (hquerying : l.beforeQuerying = true → ∃ call ∈ remaining res, call.beforeQuerying = true) :
    Accounted k v t (before ++ (remaining res ++ after)) := by
  subst ht
  refine ⟨h.observed, elsewhere_remaining res h helse, ?_, ?_, ?_, ?_, ?_, ?_⟩
  · intro record hget
    obtain ⟨record', hget', hfilled, -⟩ := hkeeps.kept record hget
    exact (h.shows record' hget').filledFrom hfilled
  · show flows.announced k = true ∨ flows.queried k = true → _
    rw [hkeeps.announced, hkeeps.queried]
    exact h.marked
  · show _ = if flows.announced k then _ else _
    rw [hkeeps.announced]
    exact h.taken
  · intro code hcode hother
    show _ = if flows.queried k then 1 else 0
    rw [hkeeps.queried, owingAll_split, howing, ← h.asked code hcode hother,
      show before ++ l :: after = before ++ ([l] ++ after) from rfl, owingAll_split]
    rfl
  · show _ → flows.announced k = false → _
    rw [hkeeps.announced]
    exact fun hdone hmark => exists_remaining _ (h.announcing hdone hmark) hannouncing
  · show _ → flows.queried k = false → _
    rw [hkeeps.queried]
    exact fun hdone hmark => exists_remaining _ (h.querying hdone hmark) hquerying

/-- A move of upstream keeps the books, if the calls are as far as they were, and
one that finishes the flow is made in a sync. -/
theorem moved {calls calls' : List CompletionCall} {m : UpstreamMove}
    (h : Accounted k v s calls) (hm : m.Allowed s.flow.upstream)
    (hends : ∀ r state, m = .request r state → ∀ record, s.flow.flows.get? k = some record →
      record.request = some r → record.Holds v ∧ state.isFinal = true)
    (helse : ∀ call ∈ calls', call.Elsewhere k)
    (howing : ∀ user, owingAll k user calls' = owingAll k user calls)
    (hannouncing : (∃ call ∈ calls, call.beforeAnnouncing = true) →
      ∃ call ∈ calls', call.beforeAnnouncing = true)
    (hquerying : (∃ call ∈ calls, call.beforeQuerying = true) →
      ∃ call ∈ calls', call.beforeQuerying = true)
    (hfinishes : v.stage s.flow.upstream ≠ .done → v.stage (m.apply s.flow.upstream) = .done →
      (∃ call ∈ calls', call.beforeAnnouncing = true) ∧
        ∃ call ∈ calls', call.beforeQuerying = true) :
    Accounted k v { s with flow := { s.flow with upstream := m.apply s.flow.upstream } }
      calls' := by
  have hsame : v.stage s.flow.upstream = .done → v.stage (m.apply s.flow.upstream) = .done ∧
      v.completion (m.apply s.flow.upstream) = v.completion s.flow.upstream := by
    intro hdone
    obtain ⟨hstage, hcompletion⟩ := Verification.finished_apply (v := v) hm (by rw [hdone]; rfl)
    exact ⟨hstage.trans hdone, hcompletion⟩
  refine ⟨h.observed, helse, ?_, fun hmark => (hsame (h.marked hmark)).1, ?_, ?_, ?_, ?_⟩
  · intro record hget
    exact (h.shows record hget).apply fun r state heq hr => hends r state heq record hget hr
  · have htaken := h.taken
    by_cases hmark : s.flow.flows.announced k = true
    · rw [if_pos hmark] at htaken ⊢
      rw [htaken, (hsame (h.marked (Or.inl hmark))).2]
    · rw [if_neg hmark] at htaken ⊢
      exact htaken
  · intro code hcode hother
    have hother : code.otherUserId ≠ (m.apply s.flow.upstream).userId := hother
    rw [UpstreamMove.userId_apply] at hother
    rw [howing]
    exact h.asked code hcode hother
  · intro hdone hmark
    by_cases hbefore : v.stage s.flow.upstream = .done
    · exact hannouncing (h.announcing hbefore hmark)
    · exact (hfinishes hbefore hdone).1
  · intro hdone hmark
    by_cases hbefore : v.stage s.flow.upstream = .done
    · exact hquerying (h.querying hbefore hmark)
    · exact (hfinishes hbefore hdone).2

/-- A sync that upstream fails passes nothing; it fails before the flow is done. -/
theorem failed (h : Accounted k v s (before ++ l :: after))
    (howing : ∀ user, l.owing k user = 0) (hnot : v.stage s.flow.upstream ≠ .done) :
    Accounted k v s (before ++ after) := by
  refine ⟨h.observed, fun call hmem => h.elsewhere call ?_, h.shows, h.marked, h.taken, ?_,
    fun hdone => absurd hdone hnot, fun hdone => absurd hdone hnot⟩
  · simp only [List.mem_append, List.mem_cons] at hmem ⊢
    rcases hmem with hmem | hmem
    · exact Or.inl hmem
    · exact Or.inr (Or.inr hmem)
  · intro code hcode hother
    have hasked := h.asked code hcode hother
    rw [show before ++ l :: after = before ++ ([l] ++ after) from rfl, owingAll_split] at hasked
    have hl : owingAll k code.otherUserId [l] = 0 := howing code.otherUserId
    omega

/-- The key query pass: what it marks, its call owes. -/
theorem queries (h : Accounted k v s (before ++ .querying :: after)) :
    Accounted k v
      { s with flow := { s.flow with
        flows := (s.flow.flows.peersOwedAKeyQuery s.flow.upstream).2 } }
      (before ++ (.asking (s.flow.flows.queriesDue s.flow.upstream) :: after)) := by
  have hqueried := Registry.queried_peersOwedAKeyQuery h.shows
  have hannounced : (s.flow.flows.peersOwedAKeyQuery s.flow.upstream).2.announced k =
    s.flow.flows.announced k := Registry.announced_peersOwedAKeyQuery
  refine ⟨h.observed, ?_, ?_, ?_, ?_, ?_, ?_, ?_⟩
  · exact elsewhere_remaining (.inl (.asking _)) h (by simp [CompletionCall.Elsewhere])
  · exact Registry.shows_mapValues (fun _ => FlowRecord.filledFrom_afterQuerying) h.shows
  · intro hmark
    show v.stage s.flow.upstream = .done
    rw [hannounced, hqueried] at hmark
    rcases hmark with hmark | hmark
    · exact h.marked (Or.inl hmark)
    · cases hold : s.flow.flows.queried k with
      | true => exact h.marked (Or.inr hold)
      | false => rw [hold] at hmark; simpa using hmark
  · rw [hannounced]
    exact h.taken
  · intro code hcode hother
    subst hcode
    have hbefore := h.asked code rfl hother
    rw [show before ++ CompletionCall.querying :: after = before ++ ([.querying] ++ after) from rfl,
      owingAll_split] at hbefore
    have hdue := Registry.count_queriesDue h.shows
    rw [show before ++ CompletionCall.asking (s.flow.flows.queriesDue s.flow.upstream) :: after =
      before ++ ([.asking (s.flow.flows.queriesDue s.flow.upstream)] ++ after) from rfl,
      owingAll_split, hqueried]
    have hl : owingAll k code.otherUserId [.querying] = 0 := rfl
    have hl' : owingAll k code.otherUserId [.asking (s.flow.flows.queriesDue s.flow.upstream)] =
        (s.flow.flows.queriesDue s.flow.upstream).count (k, code.otherUserId) := rfl
    rw [hl', hdue]
    rw [hl, Nat.zero_add] at hbefore
    show s.asked.count (k, code.otherUserId) + _ = _
    cases hold : s.flow.flows.queried k with
    | true =>
      rw [hold] at hbefore
      simp only [Bool.true_eq_false, false_and, if_false, Bool.true_or, if_true] at hbefore ⊢
      omega
    | false =>
      rw [hold] at hbefore
      simp only [Bool.false_eq_true, if_false, true_and, Bool.false_or, beq_iff_eq] at hbefore ⊢
      omega
  · intro hdone hmark
    rw [hannounced] at hmark
    refine exists_remaining (ρ := Except SessionError Unit) (.inl (.asking _))
      (h.announcing hdone hmark) fun _ => ?_
    exact ⟨_, List.mem_singleton_self _, rfl⟩
  · intro hdone hmark
    rw [hqueried, show v.stage s.flow.upstream = .done from hdone] at hmark
    simp at hmark

/-- The queries a sync owed are queued. -/
theorem asks {owed : List (String × String)} {requests : RequestState}
    (h : Accounted k v s (before ++ .asking owed :: after)) :
    Accounted k v
      { s with
        flow := { s.flow with requests := requests }
        asked := s.asked ++ othersOwed s.flow.upstream owed }
      (before ++ (.announcing :: after)) := by
  refine ⟨h.observed, ?_, h.shows, h.marked, h.taken, ?_, ?_, ?_⟩
  · exact elsewhere_remaining (.inl .announcing) h (by simp [CompletionCall.Elsewhere])
  · intro code hcode hother
    have hbefore := h.asked code hcode hother
    rw [show before ++ CompletionCall.asking owed :: after = before ++ ([.asking owed] ++ after)
      from rfl, owingAll_split] at hbefore
    rw [show before ++ CompletionCall.announcing :: after = before ++ ([.announcing] ++ after)
      from rfl, owingAll_split]
    have hl : owingAll k code.otherUserId [.asking owed] = owed.count (k, code.otherUserId) := rfl
    have hl' : owingAll k code.otherUserId [.announcing] = 0 := rfl
    -- the query is about another user, so it is not left out
    have hcount : (othersOwed s.flow.upstream owed).count (k, code.otherUserId) =
        owed.count (k, code.otherUserId) := List.count_filter (by simpa using hother)
    show (s.asked ++ othersOwed s.flow.upstream owed).count (k, code.otherUserId) + _ = _
    rw [List.count_append, hcount, hl', ← hbefore, hl]
    omega
  · intro hdone hmark
    refine exists_remaining (ρ := Except SessionError Unit) (.inl .announcing)
      (h.announcing hdone hmark) fun _ => ?_
    exact ⟨_, List.mem_singleton_self _, rfl⟩
  · intro hdone hmark
    exact exists_remaining (ρ := Except SessionError Unit) (.inl .announcing)
      (h.querying hdone hmark) fun hl => by cases hl

/-- The announcement pass: what it marks, it takes. -/
theorem announces (h : Accounted k v s (before ++ .announcing :: after)) :
    Accounted k v
      { s with
        flow := { s.flow with
          flows := (s.flow.flows.takePendingCompletions s.flow.upstream).2 }
        taken := s.taken ++ s.flow.flows.completionsDue s.flow.upstream }
      (before ++ (.listing :: after)) := by
  have hannounced := Registry.announced_takePendingCompletions h.shows
  have hqueried : (s.flow.flows.takePendingCompletions s.flow.upstream).2.queried k =
    s.flow.flows.queried k := Registry.queried_takePendingCompletions
  refine ⟨h.observed, ?_, ?_, ?_, ?_, ?_, ?_, ?_⟩
  · exact elsewhere_remaining (.inl .listing) h (by simp [CompletionCall.Elsewhere])
  · exact Registry.shows_mapValues (fun _ => FlowRecord.filledFrom_afterAnnouncing) h.shows
  · intro hmark
    show v.stage s.flow.upstream = .done
    rw [hannounced, hqueried] at hmark
    rcases hmark with hmark | hmark
    · cases hold : s.flow.flows.announced k with
      | true => exact h.marked (Or.inl hold)
      | false => rw [hold] at hmark; simpa using hmark
    · exact h.marked (Or.inr hmark)
  · -- the flow is taken where its mark is new
    show (s.taken ++ s.flow.flows.completionsDue s.flow.upstream).filter _ = _
    rw [List.filter_append, h.taken, Registry.filter_completionsDue_of_shows h.shows, hannounced]
    cases hold : s.flow.flows.announced k with
    | true => simp
    | false => simp
  · intro code hcode hother
    have hbefore := h.asked code hcode hother
    rw [show before ++ CompletionCall.announcing :: after = before ++ ([.announcing] ++ after)
      from rfl, owingAll_split] at hbefore
    rw [show before ++ CompletionCall.listing :: after = before ++ ([.listing] ++ after) from rfl,
      owingAll_split, hqueried]
    exact hbefore
  · intro hdone hmark
    rw [hannounced, show v.stage s.flow.upstream = .done from hdone] at hmark
    simp at hmark
  · intro hdone hmark
    rw [hqueried] at hmark
    exact exists_remaining (ρ := Except SessionError Unit) (.inl .listing)
      (h.querying hdone hmark) fun hl => by cases hl

end Accounted

/-- A flow that is cancelled stays so. -/
theorem cancelled_step {k : String} {v : Verification} {p q : CompletionPool}
    {e : CompletionEvent} (hstep : (completing k).step p e q)
    (h : v.stage p.shared.flow.upstream = .cancelled) :
    v.stage q.shared.flow.upstream = .cancelled := by
  have hmove : ∀ m : UpstreamMove, m.Allowed p.shared.flow.upstream →
      v.stage (m.apply p.shared.flow.upstream) = .cancelled := by
    intro m hm
    rw [(Verification.finished_apply (v := v) hm (by rw [h]; rfl)).1, h]
  cases e with
  | start l =>
    obtain ⟨-, rfl⟩ := hstep
    exact h
  | world m =>
    obtain ⟨⟨hm, -, hshared⟩, -⟩ := hstep
    rw [hshared]
    exact hmove m hm
  | «section» l res =>
    obtain ⟨_, _, -, hnext, -⟩ := hstep
    generalize q.shared = t at hnext ⊢
    cases hnext with
    | moves hm => exact hmove _ hm
    | _ => exact h

/-- **A call that begins owes nothing** and takes nothing over. -/
theorem accounted_start {k : String} {v : Verification} {s : CompletionState}
    {calls : List CompletionCall} {l : CompletionCall} (hbegins : l.Begins k)
    (h : Accounted k v s calls) : Accounted k v s (calls ++ [l]) := by
  refine ⟨h.observed, fun call hmem => ?_, h.shows, h.marked, h.taken, ?_, ?_, ?_⟩
  · rcases List.mem_append.mp hmem with hmem | hmem
    · exact h.elsewhere call hmem
    · rw [List.mem_singleton] at hmem
      subst hmem
      cases call with
      | registering flowId record => exact hbegins
      | candidates found => cases hbegins
      | _ => trivial
  · intro code hcode hother
    have hl : l.owing k code.otherUserId = 0 := by
      cases l with
      | asking owed => cases hbegins
      | _ => rfl
    rw [← h.asked code hcode hother]
    unfold owingAll
    rw [List.map_append, List.sum_append]
    simp [hl]
  · intro hdone hmark
    obtain ⟨call, hmem, hcall⟩ := h.announcing hdone hmark
    exact ⟨call, List.mem_append_left _ hmem, hcall⟩
  · intro hdone hmark
    obtain ⟨call, hmem, hcall⟩ := h.querying hdone hmark
    exact ⟨call, List.mem_append_left _ hmem, hcall⟩

/-- **A section that does not drop the flow too early keeps the books.** -/
theorem accounted_section {k : String} {v : Verification} {p : CompletionPool}
    {t : CompletionState} {before after : List CompletionCall} {l : CompletionCall}
    {res : CompletionCall ⊕ Except SessionError Unit}
    (hG : Undropped k v p (.section l res))
    (hlive : v.stage p.shared.flow.upstream ≠ .cancelled)
    (h : Accounted k v p.shared (before ++ l :: after))
    (hnext : CompletionNext k p.shared l t res) :
    Accounted k v t (before ++ (remaining res ++ after)) := by
  have helse : l.Elsewhere k := h.elsewhere l (by simp)
  have hsweep : l.sweeps = true → Registry.KeepsFlow k p.shared.flow.upstream v
      p.shared.flow.flows
      (p.shared.flow.flows.releaseFinished p.shared.flow.upstream true) := fun hl =>
    Registry.keepsFlow_releaseFinished h.shows (hG.sweeps l res rfl hl) hlive
  cases hnext with
  | @moves m rest hm =>
    have hends : ∀ r state, m = .request r state → ∀ record,
        p.shared.flow.flows.get? k = some record → record.request = some r →
          record.Holds v ∧ state.isFinal = true :=
      fun r state heq => hG.ends r state (by rw [heq]; rfl)
    refine h.moved hm hends (Accounted.elsewhere_remaining (.inl (.receiving rest)) h ?_)
      ?_ ?_ ?_ ?_
    · simp [CompletionCall.Elsewhere]
    · intro user
      rw [owingAll_split, show before ++ CompletionCall.receiving (m :: rest) :: after =
        before ++ ([.receiving (m :: rest)] ++ after) from rfl, owingAll_split]
      rfl
    · intro hc
      exact exists_remaining (ρ := Except SessionError Unit) (.inl (.receiving rest)) hc fun _ =>
        ⟨_, List.mem_singleton_self _, rfl⟩
    · intro hc
      exact exists_remaining (ρ := Except SessionError Unit) (.inl (.receiving rest)) hc fun _ =>
        ⟨_, List.mem_singleton_self _, rfl⟩
    · -- the sync that finishes the flow is still before both passes
      intro _ _
      have hmem : CompletionCall.receiving rest ∈
          before ++ (remaining
            (.inl (.receiving rest) : CompletionCall ⊕ Except SessionError Unit) ++ after) := by
        simp
      exact ⟨⟨_, hmem, rfl⟩, ⟨_, hmem, rfl⟩⟩
  | received =>
    exact h.kept (.inl .querying) (.of_get? rfl) rfl (by simp [CompletionCall.Elsewhere])
      (fun _ => rfl)
      (fun _ => ⟨_, List.mem_singleton_self _, rfl⟩)
      fun _ => ⟨_, List.mem_singleton_self _, rfl⟩
  | @receiveFails moves =>
    exact h.failed (fun _ => rfl) (hG.receives moves _ rfl)
  | queries => exact h.queries
  | asks hlength => exact h.asks
  | silent hobserved =>
    -- somebody is subscribed throughout, so the pass is never skipped
    rw [h.observed] at hobserved
    cases hobserved
  | announces hobserved => exact h.announces
  | lists hfound =>
    exact h.kept (.inl (.candidates _)) (.of_get? rfl) rfl
      (forall_mem_remaining_inl.mpr hfound) (fun _ => rfl) (fun hl => by cases hl)
      fun hl => by cases hl
  | @registersNew entry rest =>
    have hkeeps := Registry.keepsFlow_registerIfAbsent entry.2
      (helse entry (by simp)) (hsweep rfl)
    have hrest : (CompletionCall.candidates rest).Elsewhere k := fun other hother =>
      helse other (List.mem_cons_of_mem _ hother)
    exact h.kept (.inl (.candidates rest)) hkeeps (by rw [h.observed])
      (forall_mem_remaining_inl.mpr hrest) (fun _ => rfl) (fun hl => by cases hl)
      fun hl => by cases hl
  | syncs =>
    exact h.kept (.inr (.ok ())) (.of_get? rfl) rfl (by simp) (fun _ => rfl)
      (fun hl => by cases hl) fun hl => by cases hl
  | @registers flowId record =>
    have hkeeps := Registry.keepsFlow_register record helse (hsweep rfl)
    exact h.kept (.inr (.ok ())) hkeeps (by rw [h.observed]) (by simp) (fun _ => rfl)
      (fun hl => by cases hl) fun hl => by cases hl
  | looks =>
    exact h.kept (.inr (.ok ())) (Registry.keepsFlow_cached _) rfl (by simp)
      (fun _ => rfl) (fun hl => by cases hl) fun hl => by cases hl

/-- **A step that does not drop the flow too early keeps the books.** -/
theorem accounted_step {k : String} {v : Verification} {p q : CompletionPool}
    {e : CompletionEvent} (hG : Undropped k v p e) (hstep : (completing k).step p e q)
    (hlive : v.stage p.shared.flow.upstream ≠ .cancelled)
    (h : Accounted k v p.shared p.calls) : Accounted k v q.shared q.calls := by
  cases e with
  | start l =>
    obtain ⟨hbegins, rfl⟩ := hstep
    exact accounted_start hbegins h
  | world m =>
    obtain ⟨⟨hm, hfin, hshared⟩, hcalls⟩ := hstep
    rw [hshared, hcalls]
    exact h.moved hm (fun r state heq => hG.ends r state (by rw [heq]; rfl)) h.elsewhere
      (fun _ => rfl) (fun hc => hc) (fun hc => hc) fun hnot hdone =>
        absurd hdone (Verification.stage_apply_ne_done hfin hnot)
  | «section» l res =>
    obtain ⟨before, after, hsplit, hnext, hcalls⟩ := hstep
    rw [hsplit] at h
    rw [hcalls]
    exact accounted_section hG hlive h hnext

/-- **The books hold through every run** in which no sweep drops the flow too
early. -/
theorem accounted_run {k : String} {v : Verification} {p q : CompletionPool}
    {es : List CompletionEvent} (hrun : ((completions k).restrict (Undropped k v)).Run p es q)
    (h : v.stage p.shared.flow.upstream = .cancelled ∨ Accounted k v p.shared p.calls) :
    v.stage q.shared.flow.upstream = .cancelled ∨ Accounted k v q.shared q.calls := by
  refine hrun.invariant (I := fun q : CompletionPool =>
    v.stage q.shared.flow.upstream = .cancelled ∨ Accounted k v q.shared q.calls) ?_ h
  rintro p e q hp ⟨hG, hstep⟩
  by_cases hcancelled : v.stage p.shared.flow.upstream = .cancelled
  · exact Or.inl (cancelled_step hstep hcancelled)
  · exact Or.inr (accounted_step hG hstep hcancelled (hp.resolve_left hcancelled))

/-- A flow that has neither mark owes nothing yet. -/
theorem Unfinished.accounted {k : String} {v : Verification} {s : CompletionState}
    (h : Unfinished k v s) : Accounted k v s [] := by
  obtain ⟨record, hget, hshows, hannounced, hqueried⟩ := h.record
  have hno : s.flow.flows.announced k = false := by
    unfold Registry.announced
    rw [hget, Option.map_some, hannounced]
    rfl
  have hno' : s.flow.flows.queried k = false := by
    unfold Registry.queried
    rw [hget, Option.map_some, hqueried]
    rfl
  refine ⟨h.observed, by simp, fun record' hget' => ?_, ?_, ?_, ?_,
    fun hdone => absurd hdone h.stage, fun hdone => absurd hdone h.stage⟩
  · rw [hget] at hget'
    exact Option.some.inj hget' ▸ hshows
  · intro hmark
    rw [hno, hno'] at hmark
    simp at hmark
  · rw [hno, h.taken]
    rfl
  · intro code _ _
    rw [h.asked, hno']
    rfl

/-- **Every completion is taken exactly once**, in every run of syncs and of calls
that register other flows in which no sweep drops the flow too early. -/
theorem completedOnce_of_undropped {k : String} {v : Verification} {s₀ : CompletionState}
    {es : List CompletionEvent} {q : CompletionPool} (hstart : Unfinished k v s₀)
    (hrun : ((completions k).restrict (Undropped k v)).Run ⟨s₀, []⟩ es q)
    (hidle : q.calls = []) (hdone : v.stage q.shared.flow.upstream = .done) :
    CompletedOnce k v q.shared := by
  have hbooks : Accounted k v q.shared [] := by
    rcases accounted_run hrun (Or.inr hstart.accounted) with hcancelled | hbooks
    · rw [hdone] at hcancelled
      cases hcancelled
    · rwa [hidle] at hbooks
  have hannounced : q.shared.flow.flows.announced k = true := by
    cases hmark : q.shared.flow.flows.announced k with
    | true => rfl
    | false =>
      obtain ⟨call, hmem, -⟩ := hbooks.announcing hdone hmark
      cases hmem
  have hqueried : q.shared.flow.flows.queried k = true := by
    cases hmark : q.shared.flow.flows.queried k with
    | true => rfl
    | false =>
      obtain ⟨call, hmem, -⟩ := hbooks.querying hdone hmark
      cases hmem
  refine ⟨?_, fun code hcode hother => ?_⟩
  · rw [hbooks.taken, if_pos hannounced]
  · have hasked := hbooks.asked code hcode hother
    rw [if_pos hqueried] at hasked
    exact hasked

/-! ### A sync, and a sweep in the middle of it

Another user's code was scanned, and the peer's `done` arrives: upstream moves the
request first and the code after it. -/

/-- The request of the flow. -/
def scanRequest : VerificationRequest := ⟨0, "f1", "@bob:example.org"⟩

/-- The code that was scanned. -/
def scannedCode : QrVerification := ⟨1, "f1", "@bob:example.org"⟩

/-- The flow waits for the peer's `done`. -/
def scannedState : CompletionState where
  flow := {
    flows := OrdMap.empty.insert "f1" ((FlowRecord.fromRequest scanRequest).setCode scannedCode)
    upstream := {
      userId := "@alice:example.org"
      deviceId := "ALICE"
      trackedUsers := ["@bob:example.org"]
      requestState := fun r => if r = scanRequest then .transitioned (.qr scannedCode) else .created
      sasState := fun _ => .created
      codeState := fun _ => .confirmed
      getVerificationRequest := fun _ _ => none
      negotiated := fun _ => ([], [])
      hasCodeKeys := fun _ => true
      scanError := fun _ _ => none
      verifications := fun _ => ∅
      getVerificationRequests := fun _ => [] }
    requests := .initial
    observed := true }
  taken := []
  asked := []

/-- What upstream does with the peer's `done`. -/
def peersDone : List UpstreamMove := [.request scanRequest .done, .code scannedCode .done]

/-- The query about the user, as upstream builds it. -/
def bobsQuery : String × KeysQueryRequest := ("q1", ⟨⟨OrdMap.empty, some .null⟩, none⟩)

theorem scannedState_unfinished : Unfinished "f1" (.qr scannedCode) scannedState where
  record := ⟨_, rfl, ⟨rfl, rfl⟩, rfl, rfl⟩
  stage := by decide
  observed := rfl
  taken := rfl
  asked := fun _ => rfl

/-- A step that sweeps nothing, moves no request and fails no sync. -/
theorem undropped_of_quiet {p : CompletionPool} {e : CompletionEvent}
    (hsweep : ∀ call res, e = .section call res → call.sweeps = false)
    (hmove : ∀ r state, moveOf e ≠ some (.request r state))
    (hfail : ∀ moves out, e ≠ .section (.receiving moves) (.inr out)) :
    Undropped "f1" (.qr scannedCode) p e where
  sweeps := by
    intro call res heq hsweeps
    rw [hsweep call res heq] at hsweeps
    cases hsweeps
  ends := fun r state heq => absurd heq (hmove r state)
  receives := fun moves out heq => absurd heq (hfail moves out)

/-- A section of the only call in flight. -/
theorem quiet_section {s t : CompletionState} {l : CompletionCall}
    {res : CompletionCall ⊕ Except SessionError Unit} (h : CompletionNext "f1" s l t res)
    (hsweep : l.sweeps = false)
    (hmove : ∀ r state, moveOf (.section l res) ≠ some (.request r state))
    (hfail : ∀ moves out,
      (.section l res : CompletionEvent) ≠ .section (.receiving moves) (.inr out)) :
    ((completions "f1").restrict (Undropped "f1" (.qr scannedCode))).step ⟨s, [l]⟩
      (.section l res) ⟨t, remaining res ++ []⟩ := by
  refine ⟨undropped_of_quiet (fun call res' heq => ?_) hmove hfail,
    Calls.step_section (completing "f1") [] [] h⟩
  cases heq
  exact hsweep

/-- A sync takes the peer's `done`, and the flow's completion. -/
theorem completedOnce_scannedState : ∃ es q,
    ((completions "f1").restrict (Undropped "f1" (.qr scannedCode))).Run ⟨scannedState, []⟩ es q ∧
      CompletedOnce "f1" (.qr scannedCode) q.shared := by
  have hstart : ((completions "f1").restrict (Undropped "f1" (.qr scannedCode))).step
      ⟨scannedState, []⟩ (.start (.receiving peersDone)) ⟨scannedState, [.receiving peersDone]⟩ :=
    ⟨undropped_of_quiet (by simp) (by simp [moveOf]) (by simp),
      Calls.step_start (completing "f1") trivial⟩
  -- the request moves, and its record holds the code
  have hrequest := Calls.step_section (completing "f1") [] []
    (@CompletionNext.moves "f1" scannedState (.request scanRequest .done)
      [.code scannedCode .done] rfl)
  have hends : Undropped "f1" (.qr scannedCode) ⟨scannedState, [.receiving peersDone]⟩
      (.section (.receiving peersDone) (.inl (.receiving [.code scannedCode .done]))) := by
    refine ⟨?_, fun r state heq record hget _ => ?_, ?_⟩
    · intro call res heq hsweeps
      cases heq
      cases hsweeps
    · cases heq
      obtain rfl := Option.some.inj hget
      exact ⟨⟨rfl, rfl⟩, rfl⟩
    · intro moves out heq
      cases heq
  have hrun := TransitionSystem.Run.cons hstart (.cons ⟨hends, hrequest⟩
    (.cons (quiet_section (.moves rfl) rfl (by simp [moveOf]) (by simp))
      (.cons (quiet_section .received rfl (by simp [moveOf]) (by simp))
        (.cons (quiet_section .queries rfl (by simp [moveOf]) (by simp))
          (.cons (quiet_section (@CompletionNext.asks "f1" _ _ [bobsQuery] rfl) rfl
              (by simp [moveOf]) (by simp))
            (.cons (quiet_section (.announces rfl) rfl (by simp [moveOf]) (by simp))
              (.cons (quiet_section (@CompletionNext.lists "f1" _ [] (by simp)) rfl
                  (by simp [moveOf]) (by simp))
                (.single (quiet_section .syncs rfl (by simp [moveOf]) (by simp))))))))))
  exact ⟨_, _, hrun, completedOnce_of_undropped scannedState_unfinished hrun rfl rfl⟩

/-- Another flow, that another call registers. -/
def otherRecord : FlowRecord := .fromRequest ⟨7, "f2", "@bob:example.org"⟩

/-- A section with nothing in flight before its call. -/
theorem first_section {s t : CompletionState} {l : CompletionCall}
    {res : CompletionCall ⊕ Except SessionError Unit} (after : List CompletionCall)
    (h : CompletionNext "f1" s l t res) :
    (completions "f1").step ⟨s, l :: after⟩ (.section l res) ⟨t, remaining res ++ after⟩ :=
  Calls.step_section (completing "f1") [] after h

/-- **A sweep takes a flow before its completion is taken**: a call that registers
another flow runs between the end of the request and the end of the code. -/
theorem completion_swept : ∃ es q, Unfinished "f1" (.qr scannedCode) scannedState ∧
    (completions "f1").Run ⟨scannedState, []⟩ es q ∧ q.calls = [] ∧
      (Verification.qr scannedCode).stage q.shared.flow.upstream = .done ∧
        q.shared.taken = [] ∧ q.shared.asked = [] ∧
          ¬ CompletedOnce "f1" (.qr scannedCode) q.shared := by
  have hsync : (completions "f1").step ⟨scannedState, []⟩ (.start (.receiving peersDone))
      ⟨scannedState, [.receiving peersDone]⟩ := Calls.step_start (completing "f1") trivial
  have hother : (completions "f1").step ⟨scannedState, [.receiving peersDone]⟩
      (.start (.registering "f2" otherRecord))
      ⟨scannedState, [.receiving peersDone, .registering "f2" otherRecord]⟩ :=
    Calls.step_start (completing "f1") (show "f2" ≠ "f1" by decide)
  -- the request ends, and the other call sweeps
  have hrequest := first_section [.registering "f2" otherRecord]
    (@CompletionNext.moves "f1" scannedState (.request scanRequest .done)
      [.code scannedCode .done] rfl)
  have hsweep : ∀ s, (completions "f1").step
      ⟨s, [.receiving [.code scannedCode .done], .registering "f2" otherRecord]⟩
      (.section (.registering "f2" otherRecord) (.inr (.ok ()))) ⟨_, _⟩ := fun s =>
    Calls.step_section (completing "f1") [.receiving [.code scannedCode .done]] []
      (@CompletionNext.registers "f1" s "f2" otherRecord)
  have hrun := TransitionSystem.Run.cons hsync (.cons hother (.cons hrequest (.cons (hsweep _)
    (.cons (first_section [] (.moves rfl)) (.cons (first_section [] .received)
      (.cons (first_section [] .queries)
        (.cons (first_section [] (@CompletionNext.asks "f1" _ _ [] rfl))
          (.cons (first_section [] (.announces rfl))
            (.cons (first_section [] (@CompletionNext.lists "f1" _ [] (by simp)))
              (.single (first_section [] .syncs)))))))))))
  refine ⟨_, _, scannedState_unfinished, hrun, rfl, rfl, rfl, rfl, fun h => ?_⟩
  have htaken := h.taken
  cases htaken

end MatrixCrypto
