import MatrixCrypto.Verification.InvitedOnce
import MatrixCrypto.Verification.Retention

/-!
# A flow kept at `Done`, until it is marked

A flow that a sweep kept at `Done` stays there while nothing puts another comparison or code on
it.  The passes of the next sync that finds an observer mark it, and no registration keeps it
then.

## Main definitions

* `LeftAlone k` — a step that keeps the flow in the registry and puts nothing else on it.
* `Exempts`, `Synced` — a registration that keeps a flow at `Done`, and a whole sync.
* `NotAccumulating` — what the registry holds right after a registration, and how long.
* `ExemptionsEnd` — every exempted flow is marked, whatever is put on it.

## Main results

* `completed_step`, `completed_run` — **a completed flow stays completed, and its marks stay.**
* `passes_of_sync` — a sync that finds an observer and returns has run both passes.
* `registry_does_not_accumulate` — the flow registry does not accumulate.
* `exemptions_do_not_end` — a flow at `Done` that a sync does not find there any more.
-/

namespace MatrixCrypto

open Lib

/-- The calls, each with a name. -/
abbrev retaining : TransitionSystem (Pool InviteState (ℕ × InviteCall))
    (Event (ℕ × InviteCall) (Except MachineError Unit) IdentifierMove) :=
  (inviting.naming ℕ).system InviteState.Starting

/-- One event of the calls. -/
abbrev RetainingEvent := Event (ℕ × InviteCall) (Except MachineError Unit) IdentifierMove

/-- The calls in flight over the registry. -/
abbrev RetainingPool := Pool InviteState (ℕ × InviteCall)

/-- Upstream moves nothing out of a final state. -/
def Settling (p : RetainingPool) (_ : RetainingEvent) (q : RetainingPool) : Prop :=
  p.shared.flow.upstream.Settles q.shared.flow.upstream

/-! ### A flow that is left alone -/

/-- The record has stored the comparison, or the code. -/
def FlowRecord.Stored (record : FlowRecord) : Verification → Prop
  | .sas c => record.comparison = some c
  | .qr q => record.code = some q

/-- The step keeps the flow in the registry, and puts no other comparison or code on it. -/
structure LeftAlone (k : String) (p : RetainingPool) (e : RetainingEvent) (q : RetainingPool) :
    Prop where
  /-- A sweep keeps it. -/
  kept : ∀ n c r id given, e = .section (n, c) r → c.Registers id given →
    ∀ record, p.shared.flow.flows.get? k = some record →
      record.retained p.shared.flow.upstream p.shared.flow.observed = true
  /-- No announcement that reaches nobody takes it out. -/
  told : ∀ n signal signals r, e = .section (n, .announcing (signal :: signals)) r →
    signal.1 = k → p.shared.flow.observed = true
  /-- No call in flight remembers another handle on it. -/
  remembered : ∀ n v r, e = .section (n, .remembering k v) r →
    ∀ record, p.shared.flow.flows.get? k = some record → record.Stored v
  /-- Its request does not come to carry a comparison. -/
  carries : ∀ record, p.shared.flow.flows.get? k = some record →
    record.comparisonOf p.shared.flow.upstream = none →
      record.comparisonOf q.shared.flow.upstream = none

/-- What a step leaves of a completed record: it is completed, with the marks it had. -/
structure FlowRecord.Onward (u : Upstream) (before after : FlowRecord) : Prop where
  completed : after.Completed u
  announced : before.completionAnnounced = true → after.completionAnnounced = true
  queried : before.keyQueryQueued = true → after.keyQueryQueued = true

namespace FlowRecord

variable {u v : Upstream} {record filled : FlowRecord}

theorem Completed.onward (h : record.Completed u) (hf : FilledFrom u record filled)
    (hannounced : filled.completionAnnounced = record.completionAnnounced)
    (hqueried : filled.keyQueryQueued = record.keyQueryQueued) : Onward u record filled := by
  refine ⟨h.filledFrom hf, ?_, ?_⟩
  · intro hmark
    rw [hannounced, hmark]
  · intro hmark
    rw [hqueried, hmark]

theorem Completed.onward_self (h : record.Completed u) : Onward u record record :=
  ⟨h, fun hmark => hmark, fun hmark => hmark⟩

/-- The key query pass leaves a completed record marked. -/
theorem Completed.onward_afterQuerying (h : record.Completed u) :
    Onward u record (record.afterQuerying u) ∧ (record.afterQuerying u).keyQueryQueued = true := by
  have hmarked : (record.afterQuerying u).keyQueryQueued = true := by
    rw [keyQueryQueued_afterQuerying, h.stageOf]
    simp
  refine ⟨⟨h.filledFrom filledFrom_afterQuerying, ?_, fun _ => hmarked⟩, hmarked⟩
  intro hmark
  rw [completionAnnounced_afterQuerying, hmark]

/-- The announcement pass leaves a completed record marked. -/
theorem Completed.onward_afterAnnouncing (h : record.Completed u) :
    Onward u record (record.afterAnnouncing u) ∧
      (record.afterAnnouncing u).completionAnnounced = true := by
  have hmarked : (record.afterAnnouncing u).completionAnnounced = true := by
    rw [completionAnnounced_afterAnnouncing, h.stageOf]
    simp
  refine ⟨⟨h.filledFrom filledFrom_afterAnnouncing, fun _ => hmarked, ?_⟩, hmarked⟩
  intro hmark
  rw [keyQueryQueued_afterAnnouncing, hmark]

end FlowRecord

namespace Registry

variable {flows : Registry} {u : Upstream} {id k : String} {record : FlowRecord}

/-- Answering from the registry leaves a completed flow completed. -/
theorem onward_cached (hget : flows.get? k = some record) (hdone : record.Completed u) :
    ∃ after, (cached flows u id).2.get? k = some after ∧ FlowRecord.Onward u record after := by
  by_cases hk : k = id
  · subst hk
    rw [cached_of_some hget]
    exact ⟨record.filled u, OrdMap.get?_insert_self .., hdone.onward
      FlowRecord.filledFrom_filled (FlowRecord.completionAnnounced_filled u record)
      (FlowRecord.keyQueryQueued_filled u record)⟩
  · exact ⟨record, (get?_cached_of_ne hk).trans hget, hdone.onward_self⟩

theorem get?_remember_of_ne {v : Verification} (hk : k ≠ id) :
    (flows.remember id v).get? k = flows.get? k := by
  cases v with
  | sas c =>
    show (flows.rememberComparison id c).get? k = _
    rw [get?_rememberComparison, if_neg hk]
  | qr q =>
    show (flows.rememberCode id q).get? k = _
    unfold rememberCode
    split
    · rfl
    · rw [OrdMap.get?_insert_of_ne _ _ hk]

/-- Remembering what a completed flow holds leaves it completed. -/
theorem onward_remember {v : Verification} (hget : flows.get? k = some record)
    (hdone : record.Completed u) (hstored : k = id → record.Stored v) :
    ∃ after, (flows.remember id v).get? k = some after ∧ FlowRecord.Onward u record after := by
  by_cases hk : k = id
  · subst hk
    have hholds := hstored rfl
    cases v with
    | sas c =>
      refine ⟨record.setComparison c, get?_rememberComparison_self hget c, ?_⟩
      exact hdone.onward ⟨rfl, Or.inl hholds.symm, Or.inl rfl⟩ rfl rfl
    | qr q =>
      refine ⟨record.setCode q, ?_, ?_⟩
      · show (flows.rememberCode k q).get? k = _
        unfold rememberCode
        rw [hget]
        exact OrdMap.get?_insert_self ..
      · exact hdone.onward ⟨rfl, Or.inl rfl, Or.inl hholds.symm⟩ rfl rfl
  · exact ⟨record, (get?_remember_of_ne hk).trans hget, hdone.onward_self⟩

/-- What a registration leaves of a completed flow it keeps. -/
theorem LeftBy.onward {observed : Bool} {given after : FlowRecord}
    (h : LeftBy flows u observed id given k after) (hget : flows.get? k = some record)
    (hret : record.retained u observed = true) (hdone : record.Completed u) :
    FlowRecord.Onward u record after := by
  cases h with
  | @swept before hbefore _ hfilled hannounced hqueried =>
    obtain rfl : record = before := Option.some.inj (hget.symm.trans hbefore)
    refine ⟨(hdone.filledFrom FlowRecord.filledFrom_lookedAt).filledFrom hfilled, ?_, ?_⟩
    · intro hmark
      rw [hannounced, hmark]
    · intro hmark
      rw [hqueried, hmark]
  | given hk hgone _ =>
    -- it was kept, so nothing else was put in its place
    subst hk
    rw [get?_releaseFinished_of_retained hget hret] at hgone
    cases hgone

end Registry

/-! ### One step -/

/-- Finding a flow leaves a completed flow completed, unless what it registers sweeps it
away. -/
theorem completed_lookup {s t : FlowState} {l : Lookup}
    {r : Lookup ⊕ Except MachineError Handles} {k : String} {record : FlowRecord}
    (h : LookupNext s l t r)
    (hkept : ∀ id given, l = .adopting id given → record.retained s.upstream s.observed = true)
    (hget : s.flows.get? k = some record) (hdone : record.Completed s.upstream) :
    ∃ after, t.flows.get? k = some after ∧ FlowRecord.Onward t.upstream record after := by
  rw [h.upstream]
  cases h with
  | hit hrecord => exact Registry.onward_cached hget hdone
  | @register flowId given =>
    have hret := hkept flowId given rfl
    obtain ⟨after, hafter⟩ : ∃ after,
        (s.flows.register s.upstream s.observed flowId given).2.get? k = some after :=
      Registry.exists_leftBy_register hget hret
    exact ⟨after, hafter, (Registry.leftBy_register hafter).onward hget hret hdone⟩
  | _ => exact ⟨record, hget, hdone.onward_self⟩

/-- The call is about to collect the key queries owed. -/
def InviteCall.Queries : InviteCall → Prop
  | querying _ => True
  | _ => False

/-- The call is about to take the completions. -/
def InviteCall.Takes : InviteCall → Prop
  | taking _ => True
  | _ => False

/-- **One section of a call that leaves a completed flow alone**: the flow stays completed, and
is marked by a pass that comes to it. -/
theorem completed_next {s t : InviteState} {c : InviteCall}
    {r : InviteCall ⊕ Except MachineError Unit} {k : String} {record : FlowRecord}
    (h : InviteNext s c t r) (hsettles : s.flow.upstream.Settles t.flow.upstream)
    (hkept : ∀ id given, c.Registers id given →
      record.retained s.flow.upstream s.flow.observed = true)
    (htold : ∀ signal signals, c = .announcing (signal :: signals) → signal.1 = k →
      s.flow.observed = true)
    (hremembered : ∀ v, c = .remembering k v → record.Stored v)
    (hcarries : record.comparisonOf s.flow.upstream = none →
      record.comparisonOf t.flow.upstream = none)
    (hget : s.flow.flows.get? k = some record) (hdone : record.Completed s.flow.upstream) :
    ∃ after, t.flow.flows.get? k = some after ∧
      FlowRecord.Onward t.flow.upstream record after ∧
      (c.Queries → after.keyQueryQueued = true) ∧ (c.Takes → after.completionAnnounced = true) := by
  have hsame : t.flow.flows.get? k = some record → t.flow.upstream = s.flow.upstream →
      ¬ c.Queries → ¬ c.Takes → ∃ after, t.flow.flows.get? k = some after ∧
        FlowRecord.Onward t.flow.upstream record after ∧
        (c.Queries → after.keyQueryQueued = true) ∧
        (c.Takes → after.completionAnnounced = true) := by
    intro ht hu hq hk
    refine ⟨record, ht, ?_, fun h => absurd h hq, fun h => absurd h hk⟩
    rw [hu]
    exact hdone.onward_self
  have hregisters : ∀ id given, c.Registers id given →
      ∃ after, t.flow.flows.get? k = some after ∧
        FlowRecord.Onward t.flow.upstream record after ∧
        (c.Queries → after.keyQueryQueued = true) ∧
        (c.Takes → after.completionAnnounced = true) := by
    intro id given hc
    obtain ⟨hup, -, hleft, hexists⟩ := registers_next hc h
    have hret := hkept id given hc
    obtain ⟨after, hafter⟩ := hexists k record hget hret
    have honward := (hleft k after hafter).onward hget hret hdone
    refine ⟨after, hafter, hup ▸ honward, ?_, ?_⟩
    · intro hq
      cases hc <;> cases hq
    · intro hk
      cases hc <;> cases hk
  -- a section registers, marks, forgets, looks or remembers; the rest leave the table as it is
  cases h with
  | registers => exact hregisters _ _ (.opened _)
  | registersNew => exact hregisters _ _ (.announced _ _ _ _)
  | opens _ _ =>
    exact ⟨record, hget, ⟨hdone.settled hsettles hcarries, fun h => h, fun h => h⟩,
      fun h => h.elim, fun h => h.elim⟩
  | queries =>
    obtain ⟨honward, hmarked⟩ := hdone.onward_afterQuerying
    refine ⟨record.afterQuerying s.flow.upstream, ?_, honward, fun _ => hmarked, fun h => h.elim⟩
    show OrdMap.get? (OrdMap.mapValues s.flow.flows _) k = _
    rw [OrdMap.get?_mapValues, hget]
    rfl
  | takes =>
    obtain ⟨honward, hmarked⟩ := hdone.onward_afterAnnouncing
    refine ⟨record.afterAnnouncing s.flow.upstream, ?_, honward, fun h => h.elim,
      fun _ => hmarked⟩
    show OrdMap.get? (OrdMap.mapValues s.flow.flows _) k = _
    rw [OrdMap.get?_mapValues, hget]
    rfl
  | @forgets signal signals hobserved =>
    -- a signal is forgotten only where nobody is subscribed
    have hne : k ≠ signal.1 := by
      intro hk
      have htrue := htold signal signals rfl hk.symm
      rw [hobserved] at htrue
      cases htrue
    refine hsame ?_ rfl (fun h => h) (fun h => h)
    show OrdMap.get? (OrdMap.erase s.flow.flows _) k = _
    rw [OrdMap.get?_erase, if_neg hne]
    exact hget
  | @finds flowId l l' flow hl =>
    obtain ⟨after, hafter, honward⟩ := completed_lookup hl
      (fun id given heq => hkept id given (heq ▸ .adopted _ _ _)) hget hdone
    exact ⟨after, hafter, honward, fun h => h.elim, fun h => h.elim⟩
  | @findsNone flowId l flow e hl =>
    obtain ⟨after, hafter, honward⟩ := completed_lookup hl
      (fun id given heq => hkept id given (heq ▸ .adopted _ _ _)) hget hdone
    exact ⟨after, hafter, honward, fun h => h.elim, fun h => h.elim⟩
  | @found flowId l flow handles hl =>
    obtain ⟨after, hafter, honward⟩ := completed_lookup hl
      (fun id given heq => hkept id given (heq ▸ .adopted _ _ _)) hget hdone
    exact ⟨after, hafter, honward, fun h => h.elim, fun h => h.elim⟩
  | @remembers flowId v =>
    obtain ⟨after, hafter, honward⟩ := Registry.onward_remember hget hdone
      (fun hk => hremembered v (by rw [hk]))
    exact ⟨after, hafter, honward, fun h => h.elim, fun h => h.elim⟩
  | _ => exact hsame hget rfl (fun h => h) (fun h => h)

/-- A step that leaves a completed flow alone. -/
theorem completed_step {p q : RetainingPool} {e : RetainingEvent} {k : String}
    {record : FlowRecord} (hsettles : Settling p e q) (halone : LeftAlone k p e q)
    (hstep : retaining.step p e q) (hget : p.shared.flow.flows.get? k = some record)
    (hdone : record.Completed p.shared.flow.upstream) :
    ∃ after, q.shared.flow.flows.get? k = some after ∧
      FlowRecord.Onward q.shared.flow.upstream record after ∧
      (∀ n c r, e = .section (n, c) r → c.Queries → after.keyQueryQueued = true) ∧
      ∀ n c r, e = .section (n, c) r → c.Takes → after.completionAnnounced = true := by
  cases e with
  | start c =>
    obtain ⟨-, rfl⟩ := hstep
    exact ⟨record, hget, hdone.onward_self, by simp, by simp⟩
  | «section» c r =>
    obtain ⟨before, rest, -, ⟨r', hnext, -⟩, -⟩ := hstep
    obtain ⟨after, hafter, honward, hqueries, htakes⟩ := completed_next hnext hsettles
      (fun id given hc => halone.kept c.1 c.2 r id given rfl hc record hget)
      (fun signal signals hc => halone.told c.1 signal signals r (by rw [← hc]))
      (fun v hc => halone.remembered c.1 v r (by rw [← hc]) record hget)
      (halone.carries record hget) hget hdone
    refine ⟨after, hafter, honward, ?_, ?_⟩
    · rintro n c' r'' ⟨⟩ hc
      exact hqueries hc
    · rintro n c' r'' ⟨⟩ hc
      exact htakes hc
  | world m =>
    obtain ⟨hmove, -⟩ := hstep
    refine ⟨record, ?_, ⟨hdone.settled hsettles (halone.carries record hget), fun h => h,
      fun h => h⟩, by simp, by simp⟩
    generalize q.shared = t at hmove
    cases hmove with
    | upstream _ => exact hget
    | observes => exact hget

/-! ### A whole run -/

/-- Upstream settles, and the flow is left alone. -/
def Sparing (k : String) (p : RetainingPool) (e : RetainingEvent) (q : RetainingPool) : Prop :=
  Settling p e q ∧ LeftAlone k p e q

/-- Some section of the run has collected the key queries owed. -/
def Queried (es : List RetainingEvent) : Prop :=
  ∃ n c r, .section (n, c) r ∈ es ∧ c.Queries

/-- Some section of the run has taken the completions. -/
def Took (es : List RetainingEvent) : Prop :=
  ∃ n c r, .section (n, c) r ∈ es ∧ c.Takes

/-- **A completed flow that is left alone stays completed, and what a pass of the run came to
is marked.** -/
theorem completed_run {p q : RetainingPool} {es : List RetainingEvent} {k : String}
    {record : FlowRecord} (hrun : (retaining.guard (Sparing k)).Run p es q)
    (hget : p.shared.flow.flows.get? k = some record)
    (hdone : record.Completed p.shared.flow.upstream) :
    ∃ after, q.shared.flow.flows.get? k = some after ∧
      FlowRecord.Onward q.shared.flow.upstream record after ∧
        (Queried es → after.keyQueryQueued = true) ∧
          (Took es → after.completionAnnounced = true) := by
  induction hrun with
  | nil =>
    refine ⟨record, hget, hdone.onward_self, ?_, ?_⟩
    · rintro ⟨n, c, r, hmem, -⟩
      cases hmem
    · rintro ⟨n, c, r, hmem, -⟩
      cases hmem
  | @snoc t u es e hrun hstep ih =>
    -- a mark once set stays, and the last step may set another
    obtain ⟨middle, hmiddle, honward, hqueried, htook⟩ := ih
    obtain ⟨⟨hsettles, halone⟩, hstep⟩ := hstep
    obtain ⟨after, hafter, hon, hqueries, htakes⟩ :=
      completed_step hsettles halone hstep hmiddle honward.completed
    refine ⟨after, hafter, ⟨hon.completed, ?_, ?_⟩, ?_, ?_⟩
    · intro hmark
      exact hon.announced (honward.announced hmark)
    · intro hmark
      exact hon.queried (honward.queried hmark)
    · rintro ⟨n, c, r, hmem, hc⟩
      rcases List.mem_append.mp hmem with hearly | hlast
      · exact hon.queried (hqueried ⟨n, c, r, hearly, hc⟩)
      · exact hqueries n c r (List.mem_singleton.mp hlast).symm hc
    · rintro ⟨n, c, r, hmem, hc⟩
      rcases List.mem_append.mp hmem with hearly | hlast
      · exact hon.announced (htook ⟨n, c, r, hearly, hc⟩)
      · exact htakes n c r (List.mem_singleton.mp hlast).symm hc

/-! ### A whole sync -/

/-- The sync of that name found somebody subscribed when it came to announce. -/
def FoundObserver (n : ℕ) (es : List RetainingEvent) : Prop :=
  ∃ starts, .section (n, .entering starts) (.inl (n, .taking starts)) ∈ es

/-- The call of that name has returned. -/
def Returned (n : ℕ) (es : List RetainingEvent) : Prop :=
  ∃ c out, .section (n, c) (.inr out) ∈ es

/-- A sync comes to its announcement from its key queries. -/
theorem queries_of_enters {s t : InviteState} {c : InviteCall} {starts : List (String × String)}
    (h : InviteNext s c t (.inl (.entering starts))) : c.Queries := by
  generalize hr : (.inl (.entering starts) : InviteCall ⊕ Except MachineError Unit) = r at h
  cases h with
  | queries => trivial
  | _ => simp at hr

theorem Queried.append {es : List RetainingEvent} (h : Queried es) (e : RetainingEvent) :
    Queried (es ++ [e]) := by
  obtain ⟨n, c, r, hmem, hc⟩ := h
  exact ⟨n, c, r, List.mem_append_left _ hmem, hc⟩

/-- A section of the call that takes the completions, last of all. -/
theorem took_append {es : List RetainingEvent} {l : ℕ × InviteCall}
    (r : ℕ × InviteCall ⊕ Except MachineError Unit)
    (h : Took es ∨ ∃ m starts, some l = some (m, .taking starts)) :
    Took (es ++ [.section l r]) := by
  rcases h with ⟨m, c, r', hmem, hc⟩ | ⟨m, starts, hcur⟩
  · exact ⟨m, c, r', List.mem_append_left _ hmem, hc⟩
  · have hl : l = (m, .taking starts) := Option.some.inj hcur
    subst hl
    exact ⟨m, .taking starts, r, List.mem_append_right _ (List.mem_singleton_self _), trivial⟩

/-- What a sync that found an observer has done by now. -/
theorem passes_of_thread {es : List RetainingEvent} {cur : Option (ℕ × InviteCall)}
    (h : (inviting.naming ℕ).Thread es cur) :
    (∀ n starts, cur = some (n, .entering starts) → Queried es) ∧
      ∀ n, FoundObserver n es →
        Queried es ∧ (Took es ∨ ∃ m starts, cur = some (m, .taking starts)) := by
  induction h with
  | @start s l hstart =>
    refine ⟨?_, ?_⟩
    · rintro n starts ⟨⟩
      cases hstart
    · rintro n ⟨starts, hmem⟩
      simp at hmem
  | @goes es s t l l' hes hnext ih =>
    obtain ⟨r', hinvite, hr⟩ := hnext
    obtain ⟨henters, hpasses⟩ := ih
    refine ⟨?_, ?_⟩
    · rintro n starts ⟨⟩
      -- the section that ended here was the key queries'
      cases r' with
      | inr out => cases hr
      | inl c' =>
        have hc' : c' = .entering starts := (congrArg Prod.snd (Sum.inl.inj hr)).symm
        subst hc'
        exact ⟨l.1, l.2, _, List.mem_append_right _ (List.mem_singleton_self _),
          queries_of_enters hinvite⟩
    · rintro n ⟨starts, hmem⟩
      rcases List.mem_append.mp hmem with hearly | hlast
      · obtain ⟨hqueried, htook⟩ := hpasses n ⟨starts, hearly⟩
        exact ⟨hqueried.append _, Or.inl (took_append _ htook)⟩
      · have heq := List.mem_singleton.mp hlast
        simp only [Event.section.injEq, Sum.inl.injEq] at heq
        exact ⟨(henters n starts (by rw [heq.1])).append _, Or.inr ⟨n, starts, by rw [heq.2]⟩⟩
  | @returns es s t l out hes hnext ih =>
    obtain ⟨-, hpasses⟩ := ih
    refine ⟨by simp, ?_⟩
    rintro n ⟨starts, hmem⟩
    rcases List.mem_append.mp hmem with hearly | hlast
    · obtain ⟨hqueried, htook⟩ := hpasses n ⟨starts, hearly⟩
      exact ⟨hqueried.append _, Or.inl (took_append _ htook)⟩
    · simp at hlast

/-- **A sync that begins in a run, finds an observer and returns has run both passes.** -/
theorem passes_of_sync {p q : RetainingPool} {es : List RetainingEvent} {n : ℕ}
    (hrun : retaining.Run p es q) (hnew : ∀ c ∈ p.calls, c.1 ≠ n)
    (honce : Calls.begun Prod.fst n es ≤ 1) (hobserver : FoundObserver n es)
    (hreturned : Returned n es) : Queried es ∧ Took es := by
  have hapart : p.calls.filter (fun c => c.1 = n) = [] := by
    rw [List.filter_eq_nil_iff]
    intro c hc
    simpa using hnew c hc
  have hnames : ∀ s l t l', (inviting.naming ℕ).next s l t (.inl l') → l'.1 = l.1 := by
    intro s l t l' hnext
    exact Calls.naming_keeps hnext
  have hthreaded := Calls.thread_of_run_apart hnames hrun hapart honce
  obtain ⟨c, out, hreturned⟩ := hreturned
  obtain ⟨starts, hobserver⟩ := hobserver
  have hnamed : .section (n, c) (.inr out) ∈ Calls.events Prod.fst n es :=
    Calls.mem_events.mpr ⟨hreturned, rfl⟩
  cases hthreaded with
  | apart hempty _ =>
    rw [hempty] at hnamed
    cases hnamed
  | @thread cur hthread _ =>
    have hfound : FoundObserver n (Calls.events Prod.fst n es) :=
      ⟨starts, Calls.mem_events.mpr ⟨hobserver, rfl⟩⟩
    obtain ⟨⟨m, c', r, hq, hc'⟩, htook⟩ := (passes_of_thread hthread).2 n hfound
    refine ⟨⟨m, c', r, (Calls.mem_events.mp hq).1, hc'⟩, ?_⟩
    rcases htook with ⟨m, c', r, hk, hc'⟩ | ⟨m, starts', hcur⟩
    · exact ⟨m, c', r, (Calls.mem_events.mp hk).1, hc'⟩
    · subst hcur
      exact absurd hnamed hthread.not_returned

/-! ### The registry does not accumulate -/

/-- A registration comes to a flow at `Done` that a pass is yet to come to, and keeps it. -/
structure Exempts (k : String) (record : FlowRecord) (p : RetainingPool) (n : ℕ) (c : InviteCall)
    (r : ℕ × InviteCall ⊕ Except MachineError Unit) (q : RetainingPool) : Prop where
  step : retaining.step p (.section (n, c) r) q
  registers : ∃ id given, c.Registers id given
  held : p.shared.flow.flows.get? k = some record
  unmarked : record.Unmarked p.shared.flow.upstream p.shared.flow.observed

/-- A sync begins in the run, finds an observer and returns. -/
structure Synced (n : ℕ) (p : RetainingPool) (es : List RetainingEvent) : Prop where
  new : ∀ c ∈ p.calls, c.1 ≠ n
  once : Calls.begun Prod.fst n es ≤ 1
  observed : FoundObserver n es
  returned : Returned n es

/-- Both passes have marked the flow. -/
structure FlowRecord.Marked (record : FlowRecord) : Prop where
  announced : record.completionAnnounced = true
  queried : record.keyQueryQueued = true

/-- **Every flow exempted at `Done` is marked by the next sync that finds an observer.** -/
def ExemptionsEnd : Prop := ∀ k record p n c r q es t m,
  retaining.Reachable p → Exempts k record p n c r q → (retaining.guard Settling).Run q es t →
    Synced m q es → ∀ after, t.shared.flow.flows.get? k = some after → after.Marked

/-- What the registry holds right after a registration, and how long. -/
structure NotAccumulating : Prop where
  /-- Flows that are not over, flows at `Done` that a pass is yet to come to, and the flow just
  registered. -/
  left : ∀ p n c r q id given, retaining.step p (.section (n, c) r) q → c.Registers id given →
    ∀ k record, q.shared.flow.flows.get? k = some record →
      record.Live q.shared.flow.upstream ∨
        record.Unmarked q.shared.flow.upstream q.shared.flow.observed ∨
          k = id ∧ (record = given ∨ record = given.filled q.shared.flow.upstream)
  /-- No sweep keeps a cancelled flow, or one whose request is over before it finished. -/
  dropped : ∀ (flows : Registry) u observed k record, flows.get? k = some record →
    (record.stageOf u = .cancelled ∨ record.requestIsOver u = true ∧ record.stageOf u ≠ .done) →
      (flows.releaseFinished u observed).get? k = none
  /-- A flow exempted at `Done` that nothing puts another comparison or code on is marked by the
  next sync that finds an observer, and the first registration after that removes it. -/
  ends : ∀ k record p n c r q es t m, Exempts k record p n c r q →
    (retaining.guard (Sparing k)).Run q es t → Synced m q es →
      (∃ after, t.shared.flow.flows.get? k = some after ∧ after.Marked ∧
        after.stageOf t.shared.flow.upstream = .done) ∧
      ∀ n' c' r' u id given, retaining.step t (.section (n', c') r') u → c'.Registers id given →
        ∀ last, u.shared.flow.flows.get? k = some last →
          k = id ∧ (last = given ∨ last = given.filled u.shared.flow.upstream)

/-- What one registration does, by name. -/
theorem leftBy_of_step {p q : RetainingPool} {n : ℕ} {c : InviteCall}
    {r : ℕ × InviteCall ⊕ Except MachineError Unit} {id : String} {given : FlowRecord}
    (hstep : retaining.step p (.section (n, c) r) q) (hc : c.Registers id given) :
    q.shared.flow.upstream = p.shared.flow.upstream ∧
      q.shared.flow.observed = p.shared.flow.observed ∧
      (∀ k record, q.shared.flow.flows.get? k = some record →
        p.shared.flow.flows.LeftBy p.shared.flow.upstream p.shared.flow.observed id given k
          record) ∧
      ∀ k before, p.shared.flow.flows.get? k = some before →
        before.retained p.shared.flow.upstream p.shared.flow.observed = true →
          ∃ record, q.shared.flow.flows.get? k = some record := by
  obtain ⟨before, rest, -, ⟨r', hnext, -⟩, -⟩ := hstep
  exact registers_next hc hnext

/-- What a registration exempts is completed. -/
theorem Exempts.completed {k : String} {record : FlowRecord} {p q : RetainingPool} {n : ℕ}
    {c : InviteCall} {r : ℕ × InviteCall ⊕ Except MachineError Unit}
    (h : Exempts k record p n c r q) : ∃ kept, q.shared.flow.flows.get? k = some kept ∧
      kept.Completed q.shared.flow.upstream := by
  obtain ⟨id, given, hc⟩ := h.registers
  obtain ⟨hup, -, hleft, hexists⟩ := leftBy_of_step h.step hc
  have hret := FlowRecord.retained_iff.mpr (Or.inr h.unmarked)
  obtain ⟨kept, hkept⟩ := hexists k record h.held hret
  refine ⟨kept, hkept, ?_⟩
  rw [hup]
  cases hleft k kept hkept with
  | @swept before hbefore _ hfilled _ _ =>
    obtain rfl : record = before := Option.some.inj (h.held.symm.trans hbefore)
    exact (FlowRecord.completed_of_lookedAt h.unmarked.done).filledFrom hfilled
  | given hk hgone _ =>
    subst hk
    rw [Registry.get?_releaseFinished_of_retained h.held hret] at hgone
    cases hgone

/-- A flow at `Done` that is marked is not there after a registration. -/
theorem given_of_marked {p q : RetainingPool} {n : ℕ} {c : InviteCall}
    {r : ℕ × InviteCall ⊕ Except MachineError Unit} {id k : String} {given record last : FlowRecord}
    (hstep : retaining.step p (.section (n, c) r) q) (hc : c.Registers id given)
    (hget : p.shared.flow.flows.get? k = some record) (hmarked : record.Marked)
    (hdone : record.stageOf p.shared.flow.upstream = .done)
    (hlast : q.shared.flow.flows.get? k = some last) :
    k = id ∧ (last = given ∨ last = given.filled q.shared.flow.upstream) := by
  obtain ⟨hup, -, hleft, -⟩ := leftBy_of_step hstep hc
  cases hleft k last hlast with
  | @swept before hbefore hret _ _ _ =>
    obtain rfl : record = before := Option.some.inj (hget.symm.trans hbefore)
    rw [FlowRecord.not_retained_of_marked hdone hmarked.announced hmarked.queried] at hret
    cases hret
  | given hk _ hlast =>
    rw [hup]
    exact ⟨hk, hlast⟩

/-- **The flow registry does not accumulate.** -/
theorem registry_does_not_accumulate : NotAccumulating where
  left := by
    intro p n c r q id given hstep hc k record hget
    obtain ⟨hup, hobserved, hleft, -⟩ := leftBy_of_step hstep hc
    rw [hup, hobserved]
    cases hleft k record hget with
    | @swept before _ hret hfilled hannounced hqueried =>
      have hlooked : FlowRecord.FilledFrom p.shared.flow.upstream before
          (before.lookedAt p.shared.flow.upstream) := FlowRecord.filledFrom_lookedAt
      rcases FlowRecord.retained_iff.mp hret with hlive | hun
      · exact Or.inl (hfilled.live (hlooked.live hlive))
      · refine Or.inr (Or.inl ⟨?_, ?_⟩)
        · rw [hfilled.stageOf, hlooked.stageOf]
          exact hun.done
        · rw [hannounced, hqueried]
          exact hun.owed
    | given hk _ hfilled => exact Or.inr (Or.inr ⟨hk, hfilled⟩)
  dropped := by
    intro flows u observed k record hget hover
    rw [Registry.get?_releaseFinished, hget, Option.filter_some,
      FlowRecord.not_retained_of_over hover]
    rfl
  ends := by
    intro k record p n c r q es t m hexempts hrun hsync
    obtain ⟨kept, hkept, hdone⟩ := hexempts.completed
    obtain ⟨after, hafter, honward, hqueried, htook⟩ := completed_run hrun hkept hdone
    -- a whole sync goes through both passes, and the sweep after it drops what both marked
    obtain ⟨hq, hk⟩ :=
      passes_of_sync hrun.of_guard hsync.new hsync.once hsync.observed hsync.returned
    have hmarked : after.Marked := ⟨htook hk, hqueried hq⟩
    refine ⟨⟨after, hafter, hmarked, honward.completed.stageOf⟩, ?_⟩
    intro n' c' r' u id given hstep hc last hlast
    exact given_of_marked hstep hc hafter hmarked honward.completed.stageOf hlast

/-! ### A flow exempted and never marked

A request of this process is ready, and a `begin_comparison` starts its comparison.  Before the
call remembers it the peer declares itself done, and another call registers its flow. -/

/-- What upstream holds of the flow. -/
def ownFlowAt (state : VerificationRequestState) : Upstream :=
  requesting [(ownRequest, state)] none

/-- The other flow is there as well. -/
def besideOwnDone : Upstream := requesting [(ownRequest, .done), (otherRequest, .created)] none

/-- The request is registered. -/
def ownOpenedState : InviteState :=
  { expectingState with
    flow := { expectingState.flow with
      flows := (expectingState.flow.flows.register (ownFlowAt .created) true "t2"
        (.fromRequest ownRequest)).2
      upstream := ownFlowAt .created }
    opened := [ownRequest]
    started := [ownRequest] }

/-- It is ready. -/
def ownReadyState : InviteState :=
  { ownOpenedState with
    flow := { ownOpenedState.flow with upstream := ownFlowAt (.ready [.sasV1] [.sasV1]) } }

/-- A call was given its handles. -/
def ownFoundState : InviteState :=
  { ownReadyState with
    flow := { ownReadyState.flow with
      flows := (ownReadyState.flow.flows.cached (ownFlowAt (.ready [.sasV1] [.sasV1])) "t2").2 }
    held := ["t2"] }

/-- Upstream has started a comparison for it. -/
def ownBegunState : InviteState :=
  { ownFoundState with
    flow := { ownFoundState.flow with
      upstream := ownFlowAt (.transitioned (.sas ownComparison)) } }

/-- The peer has declared itself done. -/
def ownDoneState : InviteState :=
  { ownBegunState with flow := { ownBegunState.flow with upstream := ownFlowAt .done } }

/-- Another request is built. -/
def besideOwnState : InviteState :=
  { ownDoneState with
    flow := { ownDoneState.flow with upstream := besideOwnDone }
    opened := [ownRequest, otherRequest] }

/-- It is registered, and the first flow is exempted. -/
def exemptedState : InviteState :=
  { besideOwnState with
    flow := { besideOwnState.flow with
      flows := (besideOwnState.flow.flows.register besideOwnDone true "t3"
        (.fromRequest otherRequest)).2 }
    started := [ownRequest, otherRequest] }

/-- The comparison is remembered after all. -/
def rememberedState : InviteState :=
  { exemptedState with
    flow := { exemptedState.flow with
      flows := exemptedState.flow.flows.remember "t2" (.sas ownComparison) } }

/-- One section of a named call among the others. -/
theorem retaining_section {s t : InviteState} {call : InviteCall}
    {res : InviteCall ⊕ Except MachineError Unit} (n : ℕ) (before after : List (ℕ × InviteCall))
    (h : InviteNext s call t res) : retaining.step ⟨s, before ++ (n, call) :: after⟩
      (.section (n, call) (Sum.map (Prod.mk n) id res))
      ⟨t, before ++ (remaining (Sum.map (Prod.mk n) id res) ++ after)⟩ :=
  Calls.naming_section n before after h

theorem ownFlowAt_invites {state : VerificationRequestState} {started : List VerificationRequest}
    (hflow : ∀ v, state = .transitioned v → v.flow = ("t2", "@bob:example.org"))
    (hours : ∀ d, state ≠ .requested d) : (ownFlowAt state).Invites [ownRequest] started [] := by
  refine requesting_invites_of_flows ?_ (by simp) (by simp) ?_
  · intro e he v hv
    obtain rfl := List.mem_singleton.mp he
    exact hflow v hv
  · intro r hr d hd
    have heq := List.mem_singleton.mp hd
    exact hours d (Prod.mk.inj heq).2.symm

theorem besideOwnDone_invites :
    besideOwnDone.Invites [ownRequest, otherRequest] [ownRequest] [] := by
  refine requesting_invites ?_ ?_ (by simp) ?_
  · simp
  · simp
  · simp

/-- The flow is exempted, and a `begin_comparison` is about to remember its comparison. -/
theorem reachable_besideOwnState : retaining.Reachable
    ⟨besideOwnState, [(1, .remembering "t2" (.sas ownComparison)), (2, .opened otherRequest)]⟩ := by
  have hopen : retaining.step ⟨expectingState, []⟩ (.start (0, .opening "@bob:example.org"))
      ⟨expectingState, [(0, .opening "@bob:example.org")]⟩ := Calls.step_start _ trivial
  have hopens : InviteNext expectingState (.opening "@bob:example.org")
      { expectingState with
        flow := { expectingState.flow with upstream := ownFlowAt .created }
        opened := [ownRequest] } (.inl (.opened ownRequest)) :=
    .opens rfl (ownFlowAt_invites (by simp) (by simp))
  have hregisters : InviteNext
      { expectingState with
        flow := { expectingState.flow with upstream := ownFlowAt .created }
        opened := [ownRequest] } (.opened ownRequest) ownOpenedState (.inr (.ok ())) := .registers
  have hready : retaining.step ⟨ownOpenedState, []⟩
      (.world (.upstream (ownFlowAt (.ready [.sasV1] [.sasV1])) [])) ⟨ownReadyState, []⟩ :=
    ⟨.upstream (ownFlowAt_invites (by simp) (by simp)), rfl⟩
  have hfind : retaining.step ⟨ownReadyState, []⟩ (.start (1, .finding "t2" (.begins "t2")))
      ⟨ownReadyState, [(1, .finding "t2" (.begins "t2"))]⟩ := Calls.step_start _ rfl
  have hget : ownReadyState.flow.flows.get? "t2" =
      some ((FlowRecord.fromRequest ownRequest).filled (ownFlowAt .created)) := rfl
  have hfound : InviteNext ownReadyState (.finding "t2" (.begins "t2")) ownFoundState
      (.inl (.acting "t2" ((FlowRecord.fromRequest ownRequest).filled
        (ownFlowAt (.ready [.sasV1] [.sasV1]))).handles)) :=
    .found (@LookupNext.hit ownReadyState.flow "t2" _ hget)
  -- the call takes the machine, and upstream starts a comparison
  have hbegun : ∀ calls, retaining.step ⟨ownFoundState, calls⟩
      (.world (.upstream (ownFlowAt (.transitioned (.sas ownComparison))) []))
      ⟨ownBegunState, calls⟩ := by
    intro calls
    refine ⟨.upstream (ownFlowAt_invites ?_ (by simp)), rfl⟩
    rintro v ⟨⟩
    rfl
  have hdone : ∀ calls, retaining.step ⟨ownBegunState, calls⟩
      (.world (.upstream (ownFlowAt .done) [])) ⟨ownDoneState, calls⟩ :=
    fun calls => ⟨.upstream (ownFlowAt_invites (by simp) (by simp)), rfl⟩
  have hother : ∀ calls, retaining.step ⟨ownDoneState, calls⟩
      (.start (2, .opening "@mallory:example.org"))
      ⟨ownDoneState, calls ++ [(2, .opening "@mallory:example.org")]⟩ :=
    fun calls => Calls.step_start _ trivial
  have hopens₂ : InviteNext ownDoneState (.opening "@mallory:example.org") besideOwnState
      (.inl (.opened otherRequest)) := .opens rfl besideOwnDone_invites
  have hrun := TransitionSystem.Run.cons hopen (.cons (retaining_section 0 [] [] hopens)
    (.cons (retaining_section 0 [] [] hregisters) (.cons hready (.cons hfind
      (.cons (retaining_section 1 [] [] hfound) (.cons (hbegun _)
        (.cons (retaining_section 1 [] [] .becomes) (.cons (hdone _) (.cons (hother _)
          (.single (retaining_section 2 [(1, .remembering "t2" (.sas ownComparison))] []
            hopens₂)))))))))))
  exact ⟨⟨expectingState, []⟩, _, ⟨expectingState_starting, rfl⟩, hrun⟩

/-- The other registration exempts the flow, which is at `Done` by its request. -/
theorem exempts_own : Exempts "t2"
    ((FlowRecord.fromRequest ownRequest).filled (ownFlowAt (.ready [.sasV1] [.sasV1])))
    ⟨besideOwnState, [(1, .remembering "t2" (.sas ownComparison)), (2, .opened otherRequest)]⟩
    2 (.opened otherRequest) (.inr (.ok ()))
    ⟨exemptedState, [(1, .remembering "t2" (.sas ownComparison))]⟩ where
  step := retaining_section 2 [(1, .remembering "t2" (.sas ownComparison))] [] .registers
  registers := ⟨_, _, .opened otherRequest⟩
  held := rfl
  unmarked := ⟨rfl, Or.inr rfl⟩

/-- One section of a named call that moves nothing in upstream. -/
theorem settling_section {s t : InviteState} {call : InviteCall}
    {res : InviteCall ⊕ Except MachineError Unit} (n : ℕ) (before after : List (ℕ × InviteCall))
    (h : InviteNext s call t res) (hup : t.flow.upstream = s.flow.upstream) :
    (retaining.guard Settling).step ⟨s, before ++ (n, call) :: after⟩
      (.section (n, call) (Sum.map (Prod.mk n) id res))
      ⟨t, before ++ (remaining (Sum.map (Prod.mk n) id res) ++ after)⟩ := by
  refine ⟨?_, retaining_section n before after h⟩
  show s.flow.upstream.Settles t.flow.upstream
  rw [hup]
  exact ⟨fun _ _ => rfl, fun _ _ => rfl, fun _ _ => rfl⟩

/-- The call remembers its comparison, and a sync that finds an observer runs whole. -/
theorem synced_rememberedState : ∃ es t, (retaining.guard Settling).Run
    ⟨exemptedState, [(1, .remembering "t2" (.sas ownComparison))]⟩ es t ∧
      Synced 3 ⟨exemptedState, [(1, .remembering "t2" (.sas ownComparison))]⟩ es ∧
      ∃ after, t.shared.flow.flows.get? "t2" = some after ∧ ¬ after.Marked := by
  have hstart : (retaining.guard Settling).step ⟨rememberedState, []⟩ (.start (3, .querying []))
      ⟨rememberedState, [(3, .querying [])]⟩ :=
    ⟨⟨fun _ _ => rfl, fun _ _ => rfl, fun _ _ => rfl⟩, Calls.step_start _ trivial⟩
  have hpasses : ∀ r ∈ [ownRequest, otherRequest], ∀ d,
      rememberedState.passed.flow.upstream.requestState r ≠ .requested d := by
    intro r hr d
    simp only [List.mem_cons, List.not_mem_nil, or_false] at hr
    rcases hr with rfl | rfl
    · rintro ⟨⟩
    · rintro ⟨⟩
  have hlists : InviteNext rememberedState.passed (.listing []) rememberedState.passed
      (.inl (.scanning [ownRequest, otherRequest] [] [])) := .lists (.refl _)
  have hrun := TransitionSystem.Run.cons
    (settling_section 1 [] [] (@InviteNext.remembers exemptedState "t2" (.sas ownComparison)) rfl)
    (.cons hstart (.cons (settling_section 3 [] [] .queries rfl)
      (.cons (settling_section 3 [] [] (.enters rfl) rfl)
        (.cons (settling_section 3 [] [] .takes rfl)
          (.cons (settling_section 3 [] [] hlists rfl)
            (.cons (settling_section 3 [] [] (.passes (hpasses _ (by simp))) rfl)
              (.cons (settling_section 3 [] [] (.passes (hpasses _ (by simp))) rfl)
                (.cons (settling_section 3 [] [] .scanned rfl)
                  (.single (settling_section 3 [] [] .delivered rfl))))))))))
  refine ⟨_, _, hrun, ⟨by simp, by decide, ⟨[], by simp⟩, ⟨.announcing [], .ok (), by simp⟩⟩,
    _, rfl, ?_⟩
  intro hmarked
  exact absurd hmarked.queried (by decide)

/-- **A flow exempted at `Done` is not marked** by the sync that comes next: a call still in
flight put the comparison it had started on it. -/
theorem exemptions_do_not_end : ¬ ExemptionsEnd := by
  intro h
  obtain ⟨es, t, hrun, hsync, after, hafter, hnot⟩ := synced_rememberedState
  exact hnot (h _ _ _ _ _ _ _ _ _ _ reachable_besideOwnState exempts_own hrun hsync after hafter)

end MatrixCrypto
