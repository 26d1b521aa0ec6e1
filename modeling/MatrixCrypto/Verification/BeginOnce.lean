import MatrixCrypto.Lib.Sections
import MatrixCrypto.Verification.Carried

/-!
# A comparison is started once

Any number of `begin_comparison` calls for one ready flow, in any interleaving
of their sections.

## Main definitions

* `beginning` — all interleavings of begins of one flow.
* `BegunOnce` — one call started the comparison, and every other was refused.
* `FindsReady` — the machine finds the request as the stage check found it, and alone.

## Main results

* `begun_stable` — what the calls hold, where each finds the request ready.
* `begunOnce_iff` — **the comparison is started exactly once exactly when every
  call that takes the machine finds the request still ready, and alone.**
* `begun_twice` — a run in which a second call does not.
-/

namespace MatrixCrypto

open Lib

/-- What happens in one step. -/
abbrev BeginEvent := Event BeginCall (Except MachineError Unit) Empty

/-- All interleavings of begins of one flow. -/
def beginning (flowId : String) :
    Calls FlowState BeginCall (Except MachineError Unit) Empty where
  start := fun _ c => c = .finding flowId (.begins flowId)
  next := BeginNext
  world := fun _ e _ => e.elim

/-- The system of all interleavings, from any state. -/
abbrev begins (flowId : String) : TransitionSystem (Pool FlowState BeginCall)
    BeginEvent :=
  (beginning flowId).system fun _ => True

/-- **One call started the comparison**, every other was refused, and the flow
was not cancelled. -/
structure BegunOnce (r : VerificationRequest)
    (es : List BeginEvent) (q : Pool FlowState BeginCall) :
    Prop where
  once : (Calls.returned es).countP Except.isOk = 1
  refused : ∀ out ∈ Calls.returned es, out = .ok () ∨ out = .error .wrongStage
  live : (FlowRecord.fromRequest r).stageOf q.shared.upstream ≠ .cancelled

/-- The step reads the store without failing, and a call that takes the machine
finds its request ready, with a far side that compares strings and with which no other
verification is kept. -/
structure FindsReady (p : Pool FlowState BeginCall)
    (e : BeginEvent) : Prop where
  ready : ∀ id request out, e = .section (.starting id request) out → ∃ ours theirs,
    p.shared.upstream.requestState request = .ready ours theirs ∧ theirs.contains .sasV1 = true
  alone : ∀ id request out, e = .section (.starting id request) out →
    p.shared.upstream.rivals request.otherUser = []
  reads : ∀ call, e ≠ .section call (.inr (.error .store))

/-! ### What the calls hold -/

/-- A call that does not take the machine has nothing to find. -/
theorem FindsReady.of_ne {p : Pool FlowState BeginCall} {e : BeginEvent}
    (hc : ∀ id request out, e ≠ .section (.starting id request) out)
    (hreads : ∀ call, e ≠ .section call (.inr (.error .store))) : FindsReady p e :=
  ⟨fun id request out he => absurd he (hc id request out),
    fun id request out he => absurd he (hc id request out), hreads⟩

theorem FindsReady.request_alone {p : Pool FlowState BeginCall} {c : BeginCall}
    {res : BeginCall ⊕ Except MachineError Unit} (h : FindsReady p (.section c res)) {id : String}
    {request : VerificationRequest} (hc : c = .starting id request) :
    p.shared.upstream.Alone request := by
  obtain ⟨ours, theirs, hready, -⟩ := h.ready id request res (by rw [hc])
  exact ⟨⟨ours, theirs, hready⟩, h.alone id request res (by rw [hc])⟩

/-- **What the calls hold**, in every interleaving of begins that each find the
request ready. -/
theorem begun_stable (flowId : String) (r : VerificationRequest) :
    (beginning flowId).Stable FindsReady (FlowState.HeldAsCarried flowId r)
      (fun s c => c.Of s.upstream flowId r) where
  start := by
    rintro p c - - rfl
    exact ⟨rfl, rfl⟩
  own := by
    intro p c t res hG _ hs hc h
    obtain ⟨hheld, hof, -⟩ := BeginNext.held (fun _ _ _ _ hc _ => hG.request_alone hc) hs hc h
    exact ⟨hheld, hof⟩
  other := by
    intro p c t res m hG _ hs hc hm h
    exact (BeginNext.held (fun _ _ _ _ hc _ => hG.request_alone hc) hs hc h).2.2 m hm
  world := fun _ e => e.elim

/-! ### How many comparisons were started -/

/-- The call holds a comparison it started. -/
def BeginCall.underWay : BeginCall → Bool
  | remembering _ _ _ | queueing _ => true
  | _ => false

/-- While the request is ready nothing was started and nothing returned; once it
is not, one comparison is under way or was returned. -/
def Progress (r : VerificationRequest)
    (es : List BeginEvent) (p : Pool FlowState BeginCall) :
    Prop :=
  ((∃ ours theirs, p.shared.upstream.requestState r = .ready ours theirs) ∧
      p.calls.countP BeginCall.underWay = 0 ∧ Calls.returned es = []) ∨
    (∃ c, p.shared.upstream.Carries r c) ∧
      p.calls.countP BeginCall.underWay + (Calls.returned es).countP Except.isOk = 1 ∧
      ∀ out ∈ Calls.returned es, out = .ok () ∨ out = .error .wrongStage

/-- What one section of a begin that finds its request ready does to the count. -/
inductive Counts (r : VerificationRequest) (u v : Upstream) (c : BeginCall) :
    BeginCall ⊕ Except MachineError Unit → Prop
  | goesOn {c' : BeginCall} (hu : v = u) (h : c'.underWay = c.underWay) :
      Counts r u v c (.inl c')
  | starts {c' : BeginCall} {s : Sas} {ours theirs : List VerificationMethod}
      (hready : u.requestState r = .ready ours theirs) (hcarries : v.Carries r s)
      (h : c.underWay = false) (h' : c'.underWay = true) : Counts r u v c (.inl c')
  | refused {s : Sas} (hu : v = u) (hcarries : u.Carries r s) (h : c.underWay = false) :
      Counts r u v c (.inr (.error .wrongStage))
  | succeeds (hu : v = u) (h : c.underWay = true) : Counts r u v c (.inr (.ok ()))

theorem BeginNext.counts {flowId : String} {r : VerificationRequest} {s t : FlowState}
    {c : BeginCall} {res : BeginCall ⊕ Except MachineError Unit} {ls : List BeginCall}
    (hG : FindsReady ⟨s, ls⟩ (.section c res)) (hs : s.HeldAsCarried flowId r)
    (hc : c.Of s.upstream flowId r) (h : BeginNext s c t res) :
    Counts r s.upstream t.upstream c res := by
  cases h with
  | @finds id l l' t h => rw [h.frame]; exact .goesOn rfl rfl
  | @findsNone id l t e h =>
    obtain ⟨-, -, -, hstore⟩ := h.held hs hc.2
    exact absurd (by rw [hstore e rfl]) (hG.reads (.finding id l))
  | @found id l t handles h => rw [h.frame]; exact .goesOn rfl rfl
  | @notReady id handles h =>
    rcases hs.going with ⟨ours, theirs, hready⟩ | ⟨c, hcarries, -⟩
    · rcases hc.2.stageOf hs.going with ⟨c', hc', -⟩ | ⟨-, hst⟩
      · have hcarries : s.upstream.requestState r = _ := (hc.2.comparisonOf hs.going c' hc').1
        rw [hready] at hcarries
        cases hcarries
      · exact absurd hst h
    · exact .refused rfl hcarries rfl
  | ready h hr => exact .goesOn rfl rfl
  | @requestless id handles h hr =>
    have hreq : handles.request = some r := hc.2.request
    rw [hr] at hreq
    cases hreq
  | @starts id request comparison outgoing u hfresh hflow h =>
    obtain ⟨rfl, rfl⟩ := hc
    obtain ⟨ours, theirs, hready, -⟩ := hG.ready _ _ _ rfl
    exact .starts hready (Upstream.startSas_eq_some h).1 rfl rfl
  | @startsNone id request comparison h =>
    -- the peer supports the method, so upstream starts
    obtain ⟨ours, theirs, hready, hsas⟩ := hG.ready _ _ _ rfl
    rw [Upstream.startSas_of_ready comparison hready, if_pos hsas] at h
    cases h
  | @startFails id request => exact absurd rfl (hG.reads (.starting id request))
  | remembers => exact .goesOn rfl rfl
  | queues => exact .succeeds rfl rfl

/-- The count of calls with a property, one call of the list apart. -/
theorem countP_split {α : Type} (f : α → Bool) (before after : List α) (l : α) :
    (before ++ l :: after).countP f =
      (if f l then 1 else 0) + (before ++ after).countP f := by
  rw [List.countP_append, List.countP_append, List.countP_cons]
  omega

/-- **One section, counted**: the first start is the only one, and what comes after it is
refused. -/
theorem Counts.progress {r : VerificationRequest} {s t : FlowState} {c : BeginCall}
    {res : BeginCall ⊕ Except MachineError Unit} {es : List BeginEvent}
    {before after : List BeginCall} (h : Counts r s.upstream t.upstream c res)
    (hp : Progress r es ⟨s, before ++ c :: after⟩) :
    Progress r (es ++ [.section c res]) ⟨t, before ++ (remaining res ++ after)⟩ := by
  unfold Progress at hp ⊢
  rw [Calls.returned_append]
  dsimp only at hp ⊢
  rw [countP_split] at hp
  generalize t.upstream = v at h ⊢
  cases h with
  | @goesOn c' hu hc =>
    rw [hu, remaining_inl, List.singleton_append, countP_split, hc, Calls.returned_inl,
      List.append_nil]
    exact hp
  | @starts c' d ours theirs hready hcarries hc hc' =>
    -- the first to start: the request was ready, so nothing was under way
    rw [hc] at hp
    rw [remaining_inl, List.singleton_append, countP_split, hc', Calls.returned_inl,
      List.append_nil]
    rcases hp with ⟨-, hcount, hnone⟩ | ⟨⟨c, hc⟩, -⟩
    · refine Or.inr ⟨⟨d, hcarries⟩, ?_, ?_⟩
      · rw [hnone, List.countP_nil]
        simp only [Bool.false_eq_true, if_false] at hcount
        simp only [if_true]
        omega
      · rw [hnone]; simp
    · rw [show s.upstream.requestState r = .transitioned (.sas c) from hc] at hready
      cases hready
  | @refused d hu hcarries hc =>
    -- one that comes too late, and returns the stage error
    rw [hc] at hp
    rw [hu, remaining_inr, List.nil_append, Calls.returned_inr]
    rcases hp with ⟨⟨ours, theirs, hready⟩, -⟩ | ⟨-, hcount, hexp⟩
    · rw [show s.upstream.requestState r = .transitioned (.sas d) from hcarries] at hready
      cases hready
    · refine Or.inr ⟨⟨d, hcarries⟩, ?_, ?_⟩
      · have hout : [(.error .wrongStage : Except MachineError Unit)].countP Except.isOk = 0 :=
          rfl
        simp only [Bool.false_eq_true, if_false, List.countP_append] at hcount ⊢
        omega
      · intro out hout
        rcases List.mem_append.mp hout with hout | hout
        · exact hexp out hout
        · exact Or.inr (List.mem_singleton.mp hout)
  | succeeds hu hc =>
    -- the one that started returns, and is under way no more
    rw [hc] at hp
    rw [hu, remaining_inr, List.nil_append, Calls.returned_inr]
    rcases hp with ⟨-, hcount, -⟩ | ⟨hcarries, hcount, hexp⟩
    · simp only [if_true] at hcount
      omega
    · refine Or.inr ⟨hcarries, ?_, ?_⟩
      · have hout : [(.ok () : Except MachineError Unit)].countP Except.isOk = 1 := rfl
        simp only [if_true, List.countP_append] at hcount ⊢
        omega
      · intro out hout
        rcases List.mem_append.mp hout with hout | hout
        · exact hexp out hout
        · exact Or.inl (List.mem_singleton.mp hout)

theorem progress_step {flowId : String} {r : VerificationRequest}
    {es : List BeginEvent} {p q : Pool FlowState BeginCall} {e : BeginEvent}
    (hG : FindsReady p e) (hstep : (beginning flowId).step p e q)
    (hp : Calls.Asserted (FlowState.HeldAsCarried flowId r)
      (fun s c => BeginCall.Of s.upstream flowId r c) p)
    (h : Progress r es p) : Progress r (es ++ [e]) q := by
  cases e with
  | start l =>
    obtain ⟨rfl, rfl⟩ := hstep
    have hcount : (p.calls ++ [BeginCall.finding flowId (.begins flowId)]).countP
        BeginCall.underWay = p.calls.countP BeginCall.underWay := by
      rw [List.countP_append]; rfl
    unfold Progress at h ⊢
    rw [Calls.returned_append, hcount, Calls.returned_start, List.append_nil]
    exact h
  | world e => exact e.elim
  | «section» l res =>
    obtain ⟨before, after, hsplit, hnext, hcalls⟩ := hstep
    have hcounts := BeginNext.counts hG hp.1 (hp.2 l (Calls.mem_of_split hsplit)) hnext
    obtain ⟨s, calls⟩ := p
    obtain ⟨t, calls'⟩ := q
    obtain rfl : calls = _ := hsplit
    obtain rfl : calls' = _ := hcalls
    exact hcounts.progress h

/-! ### Started exactly once -/

section once

variable {flowId : String} {r : VerificationRequest} {s₀ : FlowState}
  {q : Pool FlowState BeginCall} {es : List BeginEvent}

theorem asserted_start (h : AtReady s₀ flowId r) :
    Calls.Asserted (FlowState.HeldAsCarried flowId r)
      (fun s (c : BeginCall) => c.Of s.upstream flowId r) ⟨s₀, []⟩ :=
  ⟨(h.held _).2, by simp⟩

theorem progress_of_run (h : AtReady s₀ flowId r)
    (hrun : ((begins flowId).restrict FindsReady).Run ⟨s₀, []⟩ es q) : Progress r es q := by
  induction hrun with
  | nil => exact Or.inl ⟨(h.held fun _ => True).1, rfl, rfl⟩
  | @snoc p q es e hrun hstep ih =>
    have hp := (begun_stable flowId r).run hrun (asserted_start h)
    exact progress_step hstep.1 hstep.2 hp ih

/-- Begins that each find the request ready start one comparison. -/
theorem begunOnce_of_findsReady (h : AtReady s₀ flowId r)
    (hrun : ((begins flowId).restrict FindsReady).Run ⟨s₀, []⟩ es q)
    (hdone : q.calls = []) (hsome : 0 < Calls.started es) : BegunOnce r es q := by
  have hlength := Calls.started_add_length hrun.of_restrict
  have hheld := ((begun_stable flowId r).run hrun (asserted_start h)).1
  rcases progress_of_run h hrun with ⟨-, -, hnone⟩ | ⟨-, hcount, hexpected⟩
  · -- a call that began has returned
    rw [hnone, hdone] at hlength
    simp only [List.length_nil] at hlength
    omega
  · rw [hdone, List.countP_nil, Nat.zero_add] at hcount
    refine ⟨hcount, hexpected, fun hcancelled => ?_⟩
    have hlive := (FlowRecord.knows_fromRequest q.shared.upstream r _).not_finished hheld.going
    rw [hcancelled] at hlive
    cases hlive

/-- The run is past repair: some call failed otherwise than by a refusal, or the
flow is cancelled. -/
def Spoiled (r : VerificationRequest)
    (es : List BeginEvent) (p : Pool FlowState BeginCall) :
    Prop :=
  (∃ out ∈ Calls.returned es, ¬ (out = .ok () ∨ out = .error .wrongStage)) ∨
    ∃ c, p.shared.upstream.Carries r c ∧ p.shared.upstream.sasState c = .cancelled

theorem spoiled_step {p q : Pool FlowState BeginCall}
    {e : BeginEvent}
    (hstep : (beginning flowId).step p e q) (h : Spoiled r es p) : Spoiled r (es ++ [e]) q := by
  rcases h with ⟨out, hmem, hout⟩ | ⟨c, hr, hc⟩
  · refine Or.inl ⟨out, ?_, hout⟩
    rw [Calls.returned_append]
    exact List.mem_append_left _ hmem
  · refine Or.inr ?_
    cases e with
    | start l => obtain ⟨-, rfl⟩ := hstep; exact ⟨c, hr, hc⟩
    | world e => exact e.elim
    | «section» l res =>
      obtain ⟨_, _, -, hnext, -⟩ := hstep
      rcases BeginNext.upstream hnext with heq | ⟨_, request, c', -, hfresh, hstart⟩
      · rw [heq]; exact ⟨c, hr, hc⟩
      · exact Upstream.startSas_cancelled hr hc hfresh hstart

theorem not_begunOnce_of_spoiled (h : Spoiled r es q) : ¬ BegunOnce r es q := by
  intro hbegun
  rcases h with ⟨out, hmem, hout⟩ | ⟨c, hr, hc⟩
  · exact hout (hbegun.refused out hmem)
  · refine hbegun.live ?_
    have hsome : (FlowRecord.fromRequest r).comparisonOf q.shared.upstream = some c := by
      rw [FlowRecord.comparisonOf_eq, FlowRecord.became_of_transitioned rfl hr]
      rfl
    rw [FlowRecord.stageOf_of_comparison hsome, hc]
    rfl

/-- Nothing is started of a flow whose far side does not compare strings. -/
theorem idle_stable (flowId : String) (r : VerificationRequest)
    {ours theirs : List VerificationMethod} (hsas : theirs.contains .sasV1 = false) :
    (beginning flowId).Stable (fun _ _ => True)
      (fun s => s.HeldAsCarried flowId r ∧ s.upstream.requestState r = .ready ours theirs)
      (fun s c => c.Of s.upstream flowId r ∧ c.underWay = false) := by
  have never : ∀ {s : FlowState} {id request comparison u},
      s.upstream.requestState r = .ready ours theirs →
      BeginCall.Of s.upstream flowId r (.starting id request) →
      s.upstream.startSas request comparison ≠ some u := by
    intro s id request comparison u hr hof hstart
    rw [hof.2, Upstream.startSas_of_ready comparison hr, hsas] at hstart
    cases hstart
  have key : ∀ {s t : FlowState} {c res}, s.HeldAsCarried flowId r →
      s.upstream.requestState r = .ready ours theirs → c.Of s.upstream flowId r →
      BeginNext s c t res →
      (t.HeldAsCarried flowId r ∧ (∀ c', res = .inl c' → c'.Of t.upstream flowId r) ∧
        ∀ m : BeginCall, m.Of s.upstream flowId r → m.Of t.upstream flowId r) ∧
        t.upstream.requestState r = .ready ours theirs := by
    intro s t c res hs hr hc hnext
    refine ⟨BeginNext.held ?_ hs hc hnext, ?_⟩
    · rintro id request comparison u rfl hstart
      exact absurd hstart (never hr hc)
    · rcases BeginNext.upstream hnext with heq | ⟨id, request, c', rfl, -, hstart⟩
      · rw [heq, hr]
      · exact absurd hstart (never hr hc)
  refine ⟨?_, ?_, ?_, fun _ e => e.elim⟩
  · rintro p c - - rfl
    exact ⟨⟨rfl, rfl⟩, rfl⟩
  · rintro p c t res - - ⟨hs, hr⟩ ⟨hc, hidle⟩ hnext
    obtain ⟨⟨hheld, hof, -⟩, hr'⟩ := key hs hr hc hnext
    refine ⟨⟨hheld, hr'⟩, fun c' hc' => ⟨hof c' hc', ?_⟩⟩
    cases hnext with
    | starts hfresh hflow hstart => exact absurd hstart (never hr hc)
    | remembers => cases hidle
    | _ => cases hc' <;> rfl
  · rintro p c t res m - - ⟨hs, hr⟩ ⟨hc, -⟩ ⟨hm, hidle⟩ hnext
    exact ⟨(key hs hr hc hnext).1.2.2 m hm, hidle⟩

theorem not_begunOnce_of_unsupported {ours theirs : List VerificationMethod}
    (h : AtReady s₀ flowId r) (hready : s₀.upstream.requestState r = .ready ours theirs)
    (hsas : theirs.contains .sasV1 = false) (hrun : (begins flowId).Run ⟨s₀, []⟩ es q) :
    ¬ BegunOnce r es q := by
  have hfails : ∀ (p : Pool FlowState BeginCall) l t (out : Except MachineError Unit),
      l ∈ p.calls → (p.shared.HeldAsCarried flowId r ∧
        p.shared.upstream.requestState r = .ready ours theirs) →
      (l.Of p.shared.upstream flowId r ∧ l.underWay = false) →
      (beginning flowId).next p.shared l t (.inr out) → out.isOk = false := by
    rintro p l t out - - ⟨-, hidle⟩ hnext
    generalize hres : (Sum.inr out : BeginCall ⊕ Except MachineError Unit) = res at hnext
    cases hnext with
    | queues => cases hidle
    | _ => cases hres <;> rfl
  have hfree : ((begins flowId).restrict fun _ _ => True).Run ⟨s₀, []⟩ es q :=
    hrun.restrict_of fun _ _ => trivial
  have hresults := (idle_stable flowId r hsas).results hfails hfree
    ⟨⟨(h.held _).2, hready⟩, by simp⟩
  intro hbegun
  have hzero : (Calls.returned es).countP Except.isOk = 0 := by
    rw [List.countP_eq_zero]
    intro out hout
    obtain ⟨l, hl⟩ := Calls.mem_returned.mp hout
    rw [hresults l out hl]
    decide
  rw [hbegun.once] at hzero
  cases hzero

/-- A step that does not find the request ready and alone spoils the run. -/
theorem spoiled_of_not_findsReady {p q : Pool FlowState BeginCall}
    {e : BeginEvent}
    (hp : Calls.Asserted (FlowState.HeldAsCarried flowId r)
      (fun s (c : BeginCall) => c.Of s.upstream flowId r) p)
    (hsas : ∀ ours theirs, p.shared.upstream.requestState r = .ready ours theirs →
      theirs.contains .sasV1 = true)
    (hstep : (beginning flowId).step p e q) (hG : ¬ FindsReady p e) :
    Spoiled r (es ++ [e]) q := by
  obtain ⟨hheld, hcalls⟩ := hp
  cases e with
  | start l => exact absurd (.of_ne (by simp) (by simp)) hG
  | world e => exact e.elim
  | «section» l res =>
    by_cases hstore : res = .inr (.error .store)
    · subst hstore
      refine Or.inl ⟨.error .store, ?_, by simp⟩
      rw [Calls.returned_append, Calls.returned_inr]
      exact List.mem_append_right _ (List.mem_singleton.mpr rfl)
    -- the call took the machine, and found the request past ready or not alone
    obtain ⟨_, _, hsplit, hnext, -⟩ := hstep
    have hof := hcalls l (Calls.mem_of_split hsplit)
    have hreads : ∀ call, (.section l res : BeginEvent) ≠ .section call (.inr (.error .store)) := by
      intro call he
      cases he
      exact hstore rfl
    have hstarting : ∃ id, l = .starting id r := by
      by_contra hne
      refine hG (.of_ne (fun id request out he => ?_) hreads)
      cases he
      exact absurd ⟨id, by rw [hof.2]⟩ hne
    obtain ⟨id, rfl⟩ := hstarting
    generalize ht : q.shared = t at hnext
    cases hnext with
    | @starts _ _ comparison outgoing u hfresh hflow hstart =>
      obtain ⟨hcarries, ⟨-, ⟨ours, theirs, hready⟩, hrivals⟩ | ⟨hcancelled, -⟩⟩ :=
        Upstream.startSas_eq_some hstart
      · refine absurd ⟨fun id' request out he => ?_, fun id' request out he => ?_, hreads⟩ hG
        · cases he
          exact ⟨ours, theirs, hready, hsas ours theirs hready⟩
        · cases he
          rw [← hflow.2, hrivals]
      · exact Or.inr ⟨comparison, by rw [ht]; exact hcarries, by rw [ht]; exact hcancelled⟩
    | startsNone hstart =>
      -- upstream starts a comparison for a request that is ready, and for one past it
      rcases hheld.going with ⟨ours, theirs, hready⟩ | ⟨c, hc, -⟩
      · rw [Upstream.startSas_of_ready _ hready, if_pos (hsas ours theirs hready)] at hstart
        cases hstart
      · have hr : p.shared.upstream.requestState r = .transitioned (.sas c) := hc
        rw [Upstream.startSas, hr] at hstart
        cases hstart
    | startFails => exact absurd rfl hstore

/-- Either every step so far found the request ready, or the run is past repair. -/
theorem findsReady_or_spoiled (h : AtReady s₀ flowId r)
    (hsas : ∀ ours theirs, s₀.upstream.requestState r = .ready ours theirs →
      theirs.contains .sasV1 = true) (hrun : (begins flowId).Run ⟨s₀, []⟩ es q) :
    (((begins flowId).restrict FindsReady).Run ⟨s₀, []⟩ es q ∧
        ∀ ours theirs, q.shared.upstream.requestState r = .ready ours theirs →
          theirs.contains .sasV1 = true) ∨ Spoiled r es q := by
  induction hrun with
  | nil => exact Or.inl ⟨.nil _, hsas⟩
  | @snoc p q es e _ hstep ih =>
    rcases ih with ⟨hrun, hsas⟩ | hspoiled
    case inr => exact Or.inr (spoiled_step hstep hspoiled)
    have hp := (begun_stable flowId r).run hrun (asserted_start h)
    by_cases hG : FindsReady p e
    case neg => exact Or.inr (spoiled_of_not_findsReady hp hsas hstep hG)
    refine Or.inl ⟨hrun.snoc ⟨hG, hstep⟩, fun ours theirs hr => ?_⟩
    -- the request leaves the ready state for good
    cases e with
    | start l => obtain ⟨-, rfl⟩ := hstep; exact hsas ours theirs hr
    | world e => exact e.elim
    | «section» l res =>
      obtain ⟨_, _, hsplit, hnext, -⟩ := hstep
      have hof := hp.2 l (Calls.mem_of_split hsplit)
      rcases BeginNext.upstream hnext with heq | ⟨id, request, c, rfl, -, hstart⟩
      · rw [heq] at hr; exact hsas ours theirs hr
      · rw [hof.2] at hstart
        rw [(Upstream.startSas_eq_some hstart).1] at hr
        cases hr

end once

/-- **The comparison is started exactly once exactly when every call that takes
the machine finds the request ready, and no other verification with its user.**
Any number of begins of a ready flow, run to their ends in any interleaving. -/
theorem begunOnce_iff {s₀ : FlowState} {flowId : String} {r : VerificationRequest}
    {es : List BeginEvent} {q : Pool FlowState BeginCall}
    (hready : AtReady s₀ flowId r) (hrun : (begins flowId).Run ⟨s₀, []⟩ es q)
    (hdone : q.calls = []) (hsome : 0 < Calls.started es) :
    BegunOnce r es q ↔ ((begins flowId).restrict FindsReady).Run ⟨s₀, []⟩ es q := by
  constructor
  · intro hbegun
    by_cases hsas : ∀ ours theirs, s₀.upstream.requestState r = .ready ours theirs →
        theirs.contains .sasV1 = true
    · rcases findsReady_or_spoiled hready hsas hrun with ⟨hguarded, -⟩ | hspoiled
      · exact hguarded
      · exact absurd hbegun (not_begunOnce_of_spoiled hspoiled)
    · simp only [not_forall] at hsas
      obtain ⟨ours, theirs, hr, hno⟩ := hsas
      exact absurd hbegun (not_begunOnce_of_unsupported hready hr (by simpa using hno) hrun)
  · exact fun hguarded => begunOnce_of_findsReady hready hguarded hdone hsome

/-! ### One begin, and two

A flow with another user, ready.  One begin starts its comparison; a second one
that read the stage before the first took the machine destroys it. -/

/-- The request of the flow. -/
def bobsRequest : VerificationRequest := ⟨0, "f1", "@bob:example.org"⟩

/-- Upstream holds the flow, ready on both sides. -/
def readyUpstream : Upstream where
  userId := "@alice:example.org"
  deviceId := "ALICE"
  trackedUsers := ["@bob:example.org"]
  requestState := fun _ => .ready [.sasV1] [.sasV1]
  sasState := fun _ => .created
  codeState := fun _ => .started
  getVerificationRequest := fun user id =>
    if user = "@bob:example.org" ∧ id = "f1" then some bobsRequest else none
  negotiated := fun _ => ([], [])
  hasCodeKeys := fun _ => true
  scanError := fun _ _ => none
  verifications := fun _ => ∅
  getVerificationRequests := fun _ => []

/-- The record of the flow, once it was looked at. -/
def readyRecord : FlowRecord := (FlowRecord.fromRequest bobsRequest).filled readyUpstream

/-- The registry holds the flow. -/
def readyState : FlowState where
  flows := OrdMap.empty.insert "f1" readyRecord
  upstream := readyUpstream
  requests := .initial
  observed := false

/-- The comparisons this side builds of the flow. -/
def oursOf (n : ℕ) : Sas := ⟨n, "f1", "@bob:example.org", "BOB"⟩

/-- The opening message of one. -/
def openingOf (id : String) : UpstreamOutgoingRequest :=
  ⟨id, .toDeviceRequest ⟨"m.key.verification.start", id, some .null⟩⟩

/-- Upstream has started the first comparison. -/
def startedUpstream : Upstream :=
  (readyUpstream.insertSas (oursOf 1) .created).becomes bobsRequest (.sas (oursOf 1))

/-- A begin has taken the machine. -/
def startedState : FlowState := { readyState with upstream := startedUpstream }

theorem readyState_ready : AtReady readyState "f1" bobsRequest :=
  ⟨rfl, fun _ _ => ⟨readyRecord, rfl, rfl, rfl⟩⟩

theorem fresh_readyUpstream (c : Sas) : readyUpstream.Fresh c := fun _ h => by cases h

theorem readyState_found : BeginNext readyState (.finding "f1" (.begins "f1")) readyState
    (.inl (.checking "f1" readyRecord.handles)) := by
  have hget : readyState.flows.get? "f1" = some readyRecord := rfl
  exact .found (@LookupNext.hit readyState "f1" readyRecord hget)

theorem readyState_checked : BeginNext readyState (.checking "f1" readyRecord.handles) readyState
    (.inl (.starting "f1" bobsRequest)) :=
  .ready rfl rfl

theorem readyState_starts : BeginNext readyState (.starting "f1" bobsRequest) startedState
    (.inl (.remembering "f1" (oursOf 1) (openingOf "o1"))) :=
  .starts (fresh_readyUpstream _) ⟨rfl, rfl⟩ rfl

/-- A begin has remembered its comparison and queued its opening message. -/
def FlowState.finished (s : FlowState) (c : Sas) (out : UpstreamOutgoingRequest) : FlowState :=
  { s with
    flows := s.flows.rememberComparison "f1" c
    requests := s.requests.queueActionRequest out }

/-- A call of these runs begins. -/
theorem begins_step (s : FlowState) (calls : List BeginCall) :
    ((begins "f1").restrict FindsReady).step ⟨s, calls⟩
      (.start (.finding "f1" (.begins "f1"))) ⟨s, calls ++ [.finding "f1" (.begins "f1")]⟩ :=
  ⟨.of_ne (by simp) (by simp), Calls.step_start (beginning "f1") rfl⟩

/-- A call of these runs takes a section that neither needs the machine nor fails. -/
theorem goes_on_step {s t : FlowState} {c : BeginCall} {res : BeginCall ⊕ Except MachineError Unit}
    (before after : List BeginCall) (h : BeginNext s c t res)
    (hc : ∀ id request, c ≠ .starting id request) (hres : res ≠ .inr (.error .store)) :
    ((begins "f1").restrict FindsReady).step ⟨s, before ++ c :: after⟩ (.section c res)
      ⟨t, before ++ (remaining res ++ after)⟩ := by
  refine ⟨.of_ne (fun id request out he => ?_) fun call he => ?_,
    Calls.step_section (beginning "f1") before after h⟩
  · cases he
    exact hc id request rfl
  · cases he
    exact hres rfl

/-- The first call takes the machine, and finds the flow ready. -/
theorem first_starts_step (after : List BeginCall) :
    ((begins "f1").restrict FindsReady).step ⟨readyState, .starting "f1" bobsRequest :: after⟩
      (.section (.starting "f1" bobsRequest) (.inl (.remembering "f1" (oursOf 1) (openingOf "o1"))))
      ⟨startedState, .remembering "f1" (oursOf 1) (openingOf "o1") :: after⟩ := by
  refine ⟨⟨fun id request out _ => ⟨[.sasV1], [.sasV1], rfl, rfl⟩, fun id request out _ => rfl,
    by simp⟩, ?_⟩
  exact Calls.step_section (beginning "f1") [] after readyState_starts

/-- The first call, its comparison started, runs to its end. -/
theorem first_finishes_run (s : FlowState) (c : Sas) (out : UpstreamOutgoingRequest)
    (after : List BeginCall) : ((begins "f1").restrict FindsReady).Run
      ⟨s, .remembering "f1" c out :: after⟩
      [.section (.remembering "f1" c out) (.inl (.queueing out)),
        .section (.queueing out) (.inr (.ok ()))] ⟨s.finished c out, after⟩ :=
  .cons (goes_on_step [] after .remembers (by simp) (by simp))
    (.single (goes_on_step [] after .queues (by simp) (by simp)))

/-- The flow's comparison is started once, by the one call that starts it. -/
theorem begunOnce_readyState : ∃ es q, BegunOnce bobsRequest es q := by
  have hrun := TransitionSystem.Run.cons (begins_step readyState [])
    (.cons (goes_on_step [] [] readyState_found (by simp) (by simp))
      (.cons (goes_on_step [] [] readyState_checked (by simp) (by simp))
        (.cons (first_starts_step [])
          (first_finishes_run startedState (oursOf 1) (openingOf "o1") []))))
  exact ⟨_, _, (begunOnce_iff readyState_ready hrun.of_restrict rfl (by decide)).mpr hrun⟩

/-- Upstream, once a second begin has taken the machine: both comparisons of the
flow are cancelled. -/
def twiceStartedUpstream : Upstream :=
  ((startedUpstream.abandon (.sas (oursOf 1))).insertSas (oursOf 2) .cancelled).becomes
    bobsRequest (.sas (oursOf 2))

/-- Both begins have taken the machine. -/
def twiceStartedState : FlowState := { startedState with upstream := twiceStartedUpstream }

theorem startedState_starts : BeginNext startedState (.starting "f1" bobsRequest)
    twiceStartedState (.inl (.remembering "f1" (oursOf 2) (openingOf "o2"))) := by
  refine .starts (fun r => ?_) ⟨rfl, rfl⟩ rfl
  show (startedUpstream.requestState r) ≠ _
  by_cases hr : r = bobsRequest
  · subst hr
    decide
  · rw [startedUpstream, Upstream.becomes_requestState_of_ne _ _ _ hr]
    show VerificationRequestState.ready [.sasV1] [.sasV1] ≠ _
    simp

/-- **Two begins both succeed, and the flow is cancelled**: the second read the
stage before the first took the machine. -/
theorem begun_twice : ∃ es q, AtReady readyState "f1" bobsRequest ∧
    (begins "f1").Run ⟨readyState, []⟩ es q ∧ q.calls = [] ∧ Calls.started es = 2 ∧
      ¬ BegunOnce bobsRequest es q ∧
        (FlowRecord.fromRequest bobsRequest).stageOf q.shared.upstream = .cancelled := by
  -- both calls read the stage, and the first takes the machine
  have hread := TransitionSystem.Run.cons (begins_step readyState [])
    (.cons (begins_step readyState [.finding "f1" (.begins "f1")])
      (.cons (goes_on_step [] [.finding "f1" (.begins "f1")] readyState_found (by simp) (by simp))
        (.cons (goes_on_step [] [.finding "f1" (.begins "f1")] readyState_checked
            (by simp) (by simp))
          (.cons (goes_on_step [.starting "f1" bobsRequest] [] readyState_found
              (by simp) (by simp))
            (.cons (goes_on_step [.starting "f1" bobsRequest] [] readyState_checked
                (by simp) (by simp))
              (.single (first_starts_step [.starting "f1" bobsRequest])))))))
  have hsecond : (begins "f1").step
      ⟨startedState, [.remembering "f1" (oursOf 1) (openingOf "o1")] ++
        [.starting "f1" bobsRequest]⟩
      (.section (.starting "f1" bobsRequest)
        (.inl (.remembering "f1" (oursOf 2) (openingOf "o2")))) _ :=
    Calls.step_section (beginning "f1") [.remembering "f1" (oursOf 1) (openingOf "o1")] []
      startedState_starts
  -- both remember, queue and return
  have hrest := (first_finishes_run twiceStartedState (oursOf 1) (openingOf "o1")
    [.remembering "f1" (oursOf 2) (openingOf "o2")]).append
      (first_finishes_run _ (oursOf 2) (openingOf "o2") [])
  refine ⟨_, _, readyState_ready, hread.of_restrict.append (.cons hsecond hrest.of_restrict), rfl,
    by decide, ?_, by decide⟩
  exact fun h => absurd h.once (by decide)

end MatrixCrypto
