import MatrixCrypto.Lib.Threads
import MatrixCrypto.Verification.ConfirmOrder

/-!
# What a confirmation that returns did

`confirm_flow` reads the stage off a handle it was given, and upstream confirms in a
later section.  Other confirmations, cancellations and syncs run beside it, and each may
move the comparison in between.

## Main definitions

* `Upstream.cancelFlow` — what `cancel_flow` cancels.
* `ClosingCall`, `ClosingNext`, `closingFlows` — confirmations, cancellations, syncs and takes.
* `Unmoved` — nothing moves a comparison off the strings while it is being confirmed.
* `ConfirmedSomething` — a named call acted at that stage, and queued what it produced.

## Main results

* `closing_thread` — **what a confirmation did on its way to `Ok`.**
* `stillShown_of_unmoved` — what the check found on screen is there when upstream confirms.
* `confirmedSomething_of_unmoved` — a confirmation that returns `Ok` confirmed something.
* `confirms_nothing` — one that returns `Ok` after a cancellation did not.
-/

namespace MatrixCrypto

open Lib Relation

/-! ### Cancelling -/

/-- What `cancel_flow` cancels: the comparison, else the code, else the request; nothing
that is over. -/
def Upstream.cancelFlow (u : Upstream) (handles : Handles) : Option Upstream :=
  match handles.comparison, handles.code, handles.request with
  | some comparison, _, _ =>
    if (u.sasState comparison).isFinal then none else some (u.setSas comparison .cancelled)
  | none, some code, _ =>
    if (u.codeState code).isFinal then none else some (u.setCode code .cancelled)
  | none, none, some request =>
    if (u.requestState request).isFinal then none else some (u.setRequest request .cancelled)
  | none, none, none => none

/-- A call, between two of its sections. -/
inductive ClosingCall
  /-- `confirm_flow`, a sync or a take. -/
  | confirm (call : ConfirmCall)
  /-- `cancel_flow`, finding its flow. -/
  | finding (l : Lookup)
  /-- It has the handles; about to cancel. -/
  | cancelling (handles : Handles)
  | queueing (outgoing : UpstreamOutgoingRequest)

/-- What a call returns. -/
inductive ClosingResult
  | confirm (out : ConfirmResult)
  | cancelled (out : Except MachineError Unit)

/-- One section of a call. -/
inductive ClosingNext (M : Messages) (account : String) (s : ConfirmState) :
    ClosingCall → ConfirmState → ClosingCall ⊕ ClosingResult → Prop
  | confirm {call : ConfirmCall} {t : ConfirmState} {r : ConfirmCall ⊕ ConfirmResult}
      (h : ConfirmNext M account s call t r) :
      ClosingNext M account s (.confirm call) t (Sum.map .confirm .confirm r)
  | finds {l l' : Lookup} {f : FlowState} (h : LookupNext s.flow l f (.inl l')) :
      ClosingNext M account s (.finding l) { s with flow := f } (.inl (.finding l'))
  | findsNone {l : Lookup} {f : FlowState} {e : MachineError}
      (h : LookupNext s.flow l f (.inr (.error e))) :
      ClosingNext M account s (.finding l) { s with flow := f } (.inr (.cancelled (.error e)))
  | found {l : Lookup} {f : FlowState} {handles : Handles}
      (h : LookupNext s.flow l f (.inr (.ok handles))) :
      ClosingNext M account s (.finding l) { s with flow := f } (.inl (.cancelling handles))
  -- upstream cancels what the handle is part of along with it
  | cancels {handles : Handles} {u v : Upstream} {outgoing : UpstreamOutgoingRequest}
      (h : s.flow.upstream.cancelFlow handles = some u)
      (hmore : ReflTransGen Upstream.Advance u v) :
      ClosingNext M account s (.cancelling handles)
        { s with flow := { s.flow with upstream := v } } (.inl (.queueing outgoing))
  | cancelsNone {handles : Handles} (h : s.flow.upstream.cancelFlow handles = none) :
      ClosingNext M account s (.cancelling handles) s (.inr (.cancelled (.error .wrongStage)))
  | queues {outgoing : UpstreamOutgoingRequest} :
      ClosingNext M account s (.queueing outgoing)
        { s with flow := { s.flow with requests := s.flow.requests.queueActionRequest outgoing } }
        (.inr (.cancelled (.ok ())))

/-- A call begins before its first section. -/
def ClosingCall.Begins : ClosingCall → Prop
  | confirm call => call.Begins
  | finding (.begins _) => True
  | _ => False

/-- Confirmations, cancellations, syncs and takes; the rest of the world as where there
are no cancellations. -/
def closingFlows (M : Messages) (account : String) :
    Calls ConfirmState ClosingCall ClosingResult ConfirmMove where
  start := fun _ call => call.Begins
  next := ClosingNext M account
  world := (confirming M account).world

abbrev ClosingEvent := Event (ℕ × ClosingCall) ClosingResult ConfirmMove

/-- All interleavings of them, from any state; the calls are named by numbers. -/
def closings (M : Messages) (account : String) :
    TransitionSystem (Pool ConfirmState (ℕ × ClosingCall)) ClosingEvent :=
  ((closingFlows M account).naming ℕ).system fun _ => True

/-! ### What a confirmation did -/

/-- Upstream's `confirm` acted for the call named, and returned messages to it. -/
def confirmedEvent (n : ℕ) (c : Sas) (messages : List UpstreamOutgoingRequest) : ClosingEvent :=
  .section (n, .confirm (.confirming c)) (.inl (n, .confirm (.queueing messages)))

/-- The call named queues the first of its messages. -/
def queuedEvent (n : ℕ) (r : UpstreamOutgoingRequest) (rest : List UpstreamOutgoingRequest) :
    ClosingEvent :=
  .section (n, .confirm (.queueing (r :: rest))) (.inl (n, .confirm (.queueing rest)))

/-- The call returns `Ok` from `confirm_flow`. -/
def confirmOk (l : ℕ × ClosingCall) : ClosingEvent :=
  .section l (.inr (.confirm (.confirmed (.ok ()))))

/-- The id waits to be handed out, or was handed out and is not resolved. -/
def RequestState.Queued (s : RequestState) (id : String) : Prop :=
  (∃ n r, (n, r) ∈ s.queuedAction ∧ r.requestId = id) ∨ s.pending.get? id ≠ none

/-- Between `p` and `q` the call acted while its comparison was at `KeysExchanged`, queued
the confirmation that came of it, and returned `Ok`. -/
def ConfirmedSomething (M : Messages) (account : String) (p : Pool ConfirmState (ℕ × ClosingCall))
    (es : List ClosingEvent) (q : Pool ConfirmState (ℕ × ClosingCall)) (l : ℕ × ClosingCall) :
    Prop :=
  ∃ c rest before s t after,
    es = before ++ confirmedEvent l.1 c (M.confirmation c :: rest) :: after ∧
    (closings M account).Run p before s ∧
    (closings M account).step s (confirmedEvent l.1 c (M.confirmation c :: rest)) t ∧
    (closings M account).Run t after q ∧
    stageOfComparison (s.shared.flow.upstream.sasState c) = .keysExchanged ∧
    [queuedEvent l.1 (M.confirmation c) rest, confirmOk l].Sublist after ∧
    ∀ v w, (closings M account).step v (queuedEvent l.1 (M.confirmation c) rest) w →
      w.shared.flow.requests.Queued (M.confirmation c).requestId

/-- The step moves no comparison off the strings that a confirmation is past its check of, and
has yet to take the machine for. -/
def Unmoved (p : Pool ConfirmState (ℕ × ClosingCall)) (_ : ClosingEvent)
    (q : Pool ConfirmState (ℕ × ClosingCall)) : Prop :=
  ∀ n c, (n, .confirm (.confirming c)) ∈ p.calls → (n, .confirm (.confirming c)) ∈ q.calls →
    stageOfComparison (p.shared.flow.upstream.sasState c) = .keysExchanged →
      stageOfComparison (q.shared.flow.upstream.sasState c) = .keysExchanged

section

variable {M : Messages} {account : String}

/-- Messages are at hand to be queued after upstream's `confirm`, or after one of them
was queued; upstream's `confirm` returns the confirmation first, or nothing where the strings
are not on screen. -/
theorem confirmNext_queueing {s t : ConfirmState} {call : ConfirmCall}
    {messages : List UpstreamOutgoingRequest}
    (h : ConfirmNext M account s call t (.inl (.queueing messages))) :
    (∃ c, call = .confirming c ∧
        (messages = [] ∧ stageOfComparison (s.flow.upstream.sasState c) ≠ .keysExchanged ∨
          ∃ rest, messages = M.confirmation c :: rest)) ∨
      ∃ r, call = .queueing (r :: messages) := by
  cases h with
  | @confirms c state upload _ _ _ =>
    refine Or.inl ⟨c, rfl, Or.inr ?_⟩
    unfold Messages.confirm
    split
    · exact ⟨_, rfl⟩
    · exact ⟨_, rfl⟩
  | confirmsNothing hnot => exact Or.inl ⟨_, rfl, Or.inl ⟨rfl, hnot⟩⟩
  | @queues r rest => exact Or.inr ⟨r, rfl⟩

/-- `confirm_flow` returns `Ok` with nothing left to queue. -/
theorem confirmNext_ok {s t : ConfirmState} {call : ConfirmCall}
    (h : ConfirmNext M account s call t (.inr (.confirmed (.ok ())))) :
    call = .queueing [] := by
  cases h with
  | returns => rfl

theorem closingNext_queueing {s t : ConfirmState} {a : ClosingCall}
    {messages : List UpstreamOutgoingRequest}
    (h : ClosingNext M account s a t (.inl (.confirm (.queueing messages)))) :
    (∃ c, a = .confirm (.confirming c) ∧
        (messages = [] ∧ stageOfComparison (s.flow.upstream.sasState c) ≠ .keysExchanged ∨
          ∃ rest, messages = M.confirmation c :: rest)) ∨
      ∃ r, a = .confirm (.queueing (r :: messages)) := by
  generalize hr : (.inl (.confirm (.queueing messages)) : ClosingCall ⊕ ClosingResult) = r' at h
  cases h with
  | @confirm call t r h =>
    cases r with
    | inr out => cases hr
    | inl call' =>
      obtain rfl : .queueing messages = call' := ClosingCall.confirm.inj (Sum.inl.inj hr)
      rcases confirmNext_queueing h with ⟨c, rfl, hmessages⟩ | ⟨r, rfl⟩
      · exact Or.inl ⟨c, rfl, hmessages⟩
      · exact Or.inr ⟨r, rfl⟩
  | _ => cases hr

theorem closingNext_ok {s t : ConfirmState} {a : ClosingCall}
    (h : ClosingNext M account s a t (.inr (.confirm (.confirmed (.ok ()))))) :
    a = .confirm (.queueing []) := by
  generalize hr : (.inr (.confirm (.confirmed (.ok ()))) : ClosingCall ⊕ ClosingResult) = r' at h
  cases h with
  | @confirm call t r h =>
    cases r with
    | inl call' => cases hr
    | inr out =>
      obtain rfl : .confirmed (.ok ()) = out := ClosingResult.confirm.inj (Sum.inr.inj hr)
      rw [confirmNext_ok h]
  | _ => cases hr

/-- **What a confirmation did on its way to `Ok`**, where upstream's `confirm` never did
nothing: it was confirmed, and queued the confirmation. -/
theorem closing_thread {ts : List ClosingEvent} {cur : Option (ℕ × ClosingCall)}
    (h : ((closingFlows M account).naming ℕ).Thread ts cur)
    (hacts : ∀ n c, confirmedEvent n c [] ∉ ts) :
    (∀ n messages, cur = some (n, .confirm (.queueing messages)) → ∃ c rest,
        (messages = M.confirmation c :: rest ∧
          [confirmedEvent n c (M.confirmation c :: rest)].Sublist ts) ∨
        [confirmedEvent n c (M.confirmation c :: rest),
          queuedEvent n (M.confirmation c) rest].Sublist ts) ∧
      ∀ l, confirmOk l ∈ ts → ∃ c rest, [confirmedEvent l.1 c (M.confirmation c :: rest),
        queuedEvent l.1 (M.confirmation c) rest, confirmOk l].Sublist ts := by
  induction h with
  | @start s l hl =>
    refine ⟨?_, fun l hmem => by simp [confirmOk] at hmem⟩
    rintro n messages ⟨⟩
    have hbegins : (ClosingCall.confirm (.queueing messages)).Begins := hl
    exact hbegins.elim
  | @goes es s t l l' hes hnext ih =>
    have ih := ih fun n c hmem => hacts n c (List.mem_append_left _ hmem)
    refine ⟨?_, fun l hmem => ?_⟩
    · rintro n messages ⟨⟩
      obtain ⟨m, a⟩ := l
      obtain ⟨r', hnext, hr⟩ := hnext
      cases r' with
      | inr out => cases hr
      | inl a' =>
        obtain ⟨rfl, rfl⟩ := Prod.mk.inj (Sum.inl.inj hr)
        rcases closingNext_queueing hnext with ⟨c, rfl, ⟨rfl, -⟩ | ⟨rest, rfl⟩⟩ | ⟨r, rfl⟩
        · exact absurd (List.mem_append_right es (List.mem_singleton_self _)) (hacts n c)
        · exact ⟨c, rest, Or.inl ⟨rfl, List.sublist_append_right es _⟩⟩
        · obtain ⟨c, rest, ⟨heq, hsub⟩ | hsub⟩ := ih.1 n _ rfl
          · -- the message it queued is the confirmation
            obtain ⟨rfl, rfl⟩ := List.cons.inj heq
            exact ⟨c, messages, Or.inr (hsub.append (List.Sublist.refl _))⟩
          · exact ⟨c, rest, Or.inr (hsub.trans (List.sublist_append_left es _))⟩
    · rcases List.mem_append.mp hmem with hmem | hmem
      · exact absurd hmem hes.not_returned
      · simp [confirmOk] at hmem
  | @returns es s t l out hes hnext ih =>
    have ih := ih fun n c hmem => hacts n c (List.mem_append_left _ hmem)
    refine ⟨fun _ _ hcur => (by cases hcur), fun l' hmem => ?_⟩
    rcases List.mem_append.mp hmem with hmem | hmem
    · exact absurd hmem hes.not_returned
    · rw [List.mem_singleton] at hmem
      cases hmem
      obtain ⟨m, a⟩ := l
      obtain ⟨r', hnext, hr⟩ := hnext
      cases r' with
      | inl a' => cases hr
      | inr out =>
        obtain rfl : .confirm (.confirmed (.ok ())) = out := Sum.inr.inj hr
        obtain rfl := closingNext_ok hnext
        obtain ⟨c, rest, ⟨heq, -⟩ | hsub⟩ := ih.1 m _ rfl
        · cases heq
        · exact ⟨c, rest, hsub.append (List.Sublist.refl _)⟩

/-- What is queued waits, or was handed out before and is not resolved. -/
theorem queued_of_queuedEvent {v w : Pool ConfirmState (ℕ × ClosingCall)} {n : ℕ}
    {r : UpstreamOutgoingRequest} {rest : List UpstreamOutgoingRequest}
    (h : (closings M account).step v (queuedEvent n r rest) w) :
    w.shared.flow.requests.Queued r.requestId := by
  obtain ⟨_, _, -, ⟨r', hnext, hr⟩, -⟩ := h
  generalize w.shared = t at hnext
  cases hnext with
  | @confirm call t r'' h =>
    cases h with
    | queues =>
      have hqueued := v.shared.flow.requests.queued_queueActionRequest r
      unfold RequestState.Queued
      rwa [show (v.shared.flow.requests.queueActionRequest r).pending = _ from
        RequestState.queueActionRequest_pending _ r]

/-- `confirm_flow` goes on to the machine with a comparison whose strings are on screen. -/
theorem keysExchanged_of_comparisonToConfirm {u : Upstream} {handles : Handles} {c : Sas}
    (h : comparisonToConfirm u handles = .ok c) :
    stageOfComparison (u.sasState c) = .keysExchanged := by
  unfold comparisonToConfirm at h
  split at h
  · cases h
  split at h
  · next hstage =>
    cases h
    exact hstage
  · cases h
  · cases h

/-- The section that takes a confirmation to the machine found the strings on screen. -/
theorem closingNext_confirming {s t : ConfirmState} {a : ClosingCall} {c : Sas}
    (h : ClosingNext M account s a t (.inl (.confirm (.confirming c)))) :
    stageOfComparison (t.flow.upstream.sasState c) = .keysExchanged := by
  generalize hr : (.inl (.confirm (.confirming c)) : ClosingCall ⊕ ClosingResult) = r' at h
  cases h with
  | @confirm call t r h =>
    cases r with
    | inr out => cases hr
    | inl call' =>
      obtain rfl : .confirming c = call' := ClosingCall.confirm.inj (Sum.inl.inj hr)
      cases h with
      | checks hchecks => exact keysExchanged_of_comparisonToConfirm hchecks
  | _ => cases hr

/-- **What the check found on screen is there when upstream confirms**, where no step in between
moved it. -/
theorem stillShown_of_unmoved {p q : Pool ConfirmState (ℕ × ClosingCall)} {es : List ClosingEvent}
    (hp : p.calls = []) (hrun : ((closings M account).guard Unmoved).Run p es q) {n : ℕ} {c : Sas}
    (hmem : (n, .confirm (.confirming c)) ∈ q.calls) :
    stageOfComparison (q.shared.flow.upstream.sasState c) = .keysExchanged := by
  let A : ConfirmState → ℕ × ClosingCall → Prop := fun s l => ∀ c, l.2 = .confirm (.confirming c) →
    stageOfComparison (s.flow.upstream.sasState c) = .keysExchanged
  have hall : ∀ l ∈ q.calls, A q.shared l := by
    refine hrun.invariant (I := fun p => ∀ l ∈ p.calls, A p.shared l) ?_ (by simp [hp])
    rintro p e q hp ⟨hunmoved, hstep⟩
    refine Calls.step_calls hstep ?_ ?_ ?_ hp
    · -- a call begins by finding its flow
      rintro ⟨n, l⟩ hl c rfl
      have hbegins : ClosingCall.Begins (.confirm (.confirming c)) := hl
      exact hbegins.elim
    · rintro ⟨n, l⟩ ⟨n', l'⟩ ⟨r, hnext, hr⟩ c rfl
      cases r with
      | inr out => cases hr
      | inl a =>
        obtain ⟨-, rfl⟩ := Prod.mk.inj (Sum.inl.inj hr)
        exact closingNext_confirming hnext
    · rintro ⟨n, l⟩ hmem hmem' hshown c rfl
      exact hunmoved n c hmem hmem' (hshown c rfl)
  exact hall _ hmem c rfl

/-- Where the strings are still on screen, upstream's `confirm` acts. -/
theorem not_confirmedNothing {p q : Pool ConfirmState (ℕ × ClosingCall)} {es : List ClosingEvent}
    (hp : p.calls = []) (hrun : ((closings M account).guard Unmoved).Run p es q) (n : ℕ) (c : Sas) :
    confirmedEvent n c [] ∉ es := by
  intro hmem
  obtain ⟨before, after, rfl⟩ := List.mem_iff_append.mp hmem
  obtain ⟨s, hbefore, hrest⟩ := hrun.split
  obtain ⟨t, ⟨-, _, _, hsplit, ⟨r', hnext, hr⟩, -⟩, -⟩ := hrest.uncons
  have hshown := stillShown_of_unmoved hp hbefore (Calls.mem_of_split hsplit)
  cases r' with
  | inr out => cases hr
  | inl a =>
    obtain ⟨-, rfl⟩ := Prod.mk.inj (Sum.inl.inj hr)
    obtain ⟨c', hc, ⟨-, hnot⟩ | ⟨rest, hmessages⟩⟩ | ⟨r, hr⟩ := closingNext_queueing hnext
    · obtain rfl := ConfirmCall.confirming.inj (ClosingCall.confirm.inj hc)
      exact hnot hshown
    · cases hmessages
    · cases hr

/-- **A confirmation that returns `Ok` confirmed something**, in every run in which no step moves
a comparison off the strings between a confirmation's check of it and its trip. -/
theorem confirmedSomething_of_unmoved {p q : Pool ConfirmState (ℕ × ClosingCall)}
    {es : List ClosingEvent} {l : ℕ × ClosingCall} (hp : p.calls = [])
    (hrun : ((closings M account).guard Unmoved).Run p es q)
    (honce : Calls.begun Prod.fst l.1 es ≤ 1) (hok : confirmOk l ∈ es) :
    ConfirmedSomething M account p es q l := by
  have hnamed : Event.Named Prod.fst l.1 (confirmOk l) := rfl
  have hown : confirmOk l ∈ Calls.events Prod.fst l.1 es := Calls.mem_events.mpr ⟨hok, hnamed⟩
  cases Calls.thread_of_run (fun _ _ _ _ h => Calls.naming_keeps h) hrun.of_guard hp honce with
  | apart hes _ =>
    rw [hes] at hown
    cases hown
  | thread hthread _ =>
    have hacts : ∀ n c, confirmedEvent n c [] ∉ Calls.events Prod.fst l.1 es :=
      fun n c hmem => not_confirmedNothing hp hrun n c (Calls.mem_events.mp hmem).1
    obtain ⟨c, rest, hsub⟩ := (closing_thread hthread hacts).2 l hown
    have hsub := hsub.trans List.filter_sublist
    obtain ⟨front, back, rfl, hfront, hback⟩ := List.cons_sublist_iff.mp hsub
    obtain ⟨before, between, rfl⟩ := List.mem_iff_append.mp hfront
    rw [List.append_assoc, List.cons_append] at hrun ⊢
    obtain ⟨s, hbefore, hrest⟩ := hrun.split
    obtain ⟨t, ⟨-, hstep⟩, hafter⟩ := hrest.uncons
    have ⟨_, _, hsplit, _⟩ := hstep
    have hshown := stillShown_of_unmoved hp hbefore (Calls.mem_of_split hsplit)
    exact ⟨c, rest, before, s, t, between ++ back, rfl, hbefore.of_guard, hstep,
      hafter.of_guard, hshown, hback.trans (List.sublist_append_right between back),
      fun _ _ h => queued_of_queuedEvent h⟩

end

/-! ### A comparison that is cancelled in between -/

/-- The runs over the comparison of `shownState`. -/
abbrev shownClosings : TransitionSystem (Pool ConfirmState (ℕ × ClosingCall)) ClosingEvent :=
  closings closingMessages "@alice:example.org"

theorem shownClosings_start {s : ConfirmState} (calls : List (ℕ × ClosingCall)) (n : ℕ)
    {l : ClosingCall} (h : l.Begins) :
    shownClosings.step ⟨s, calls⟩ (.start (n, l)) ⟨s, calls ++ [(n, l)]⟩ := ⟨h, rfl⟩

/-- A section of the call begun last. -/
theorem shownClosings_section {s t : ConfirmState} {l : ClosingCall}
    {r : ClosingCall ⊕ ClosingResult} (before : List (ℕ × ClosingCall)) (n : ℕ)
    (h : ClosingNext closingMessages "@alice:example.org" s l t r) :
    shownClosings.step ⟨s, before ++ [(n, l)]⟩ (.section (n, l) (Sum.map (Prod.mk n) id r))
      ⟨t, before ++ (remaining (Sum.map (Prod.mk n) id r) ++ [])⟩ :=
  Calls.naming_section n before [] h

/-- A section of a call that is alone, and is not confirming before it or not after it. -/
theorem shownClosings_alone {s t : ConfirmState} {l : ClosingCall}
    {r : ClosingCall ⊕ ClosingResult} (n : ℕ)
    (h : ClosingNext closingMessages "@alice:example.org" s l t r)
    (hl : (∀ c, l ≠ .confirm (.confirming c)) ∨ ∀ c, r ≠ .inl (.confirm (.confirming c))) :
    (shownClosings.guard Unmoved).step ⟨s, [(n, l)]⟩ (.section (n, l) (Sum.map (Prod.mk n) id r))
      ⟨t, remaining (Sum.map (Prod.mk n) id r) ++ []⟩ := by
  refine ⟨fun m c hp hq _ => ?_, shownClosings_section [] n h⟩
  exfalso
  rcases hl with hl | hr
  · have hmem : (m, ClosingCall.confirm (.confirming c)) = (n, l) := List.mem_singleton.mp hp
    exact hl c (Prod.mk.inj hmem).2.symm
  · cases r with
    | inr out => cases hq
    | inl l' =>
      have hmem : (m, ClosingCall.confirm (.confirming c)) = (n, l') := List.mem_singleton.mp hq
      exact hr c (by rw [(Prod.mk.inj hmem).2])

theorem shownState_hit : LookupNext shownFlow (.begins "f1") lookedState.flow
    (.inr (.ok shownHandles)) :=
  @LookupNext.hit shownFlow "f1" (.fromComparison shownComparison) rfl

/-- The first call looks up its flow, and finds the strings on screen. -/
theorem run_checked : ∃ es, (shownClosings.guard Unmoved).Run ⟨shownState, []⟩ es
    ⟨lookedState, [(1, .confirm (.confirming shownComparison))]⟩ ∧
      Calls.begun Prod.fst 1 es = 1 ∧ ∀ c messages, confirmedEvent 1 c messages ∉ es := by
  have hfound : ClosingNext closingMessages "@alice:example.org" shownState
      (.confirm (.finding (.begins "f1"))) lookedState (.inl (.confirm (.checking shownHandles))) :=
    .confirm (.found shownState_hit)
  have hchecks : ClosingNext closingMessages "@alice:example.org" lookedState
      (.confirm (.checking shownHandles)) lookedState
      (.inl (.confirm (.confirming shownComparison))) := .confirm (.checks rfl)
  have hstart : (shownClosings.guard Unmoved).step ⟨shownState, []⟩
      (.start (1, .confirm (.finding (.begins "f1"))))
      ⟨shownState, [(1, .confirm (.finding (.begins "f1")))]⟩ := by
    refine ⟨fun m c hp _ _ => ?_, shownClosings_start [] 1 trivial⟩
    cases hp
  refine ⟨_, .cons hstart
    (.cons (shownClosings_alone 1 hfound (Or.inl (by simp)))
      (.single (shownClosings_alone 1 hchecks (Or.inl (by simp))))), rfl, ?_⟩
  intro c messages hmem
  simp [confirmedEvent] at hmem

/-- It confirms the comparison, queues the confirmation, and returns. -/
theorem confirmedSomething_shownState : ∃ es q,
    (shownClosings.guard Unmoved).Run ⟨shownState, []⟩ es q ∧
      ConfirmedSomething closingMessages "@alice:example.org" ⟨shownState, []⟩ es q
        (1, .confirm (.queueing [])) := by
  obtain ⟨es, hchecked, honce, -⟩ := run_checked
  have hconfirms : ClosingNext closingMessages "@alice:example.org" lookedState
      (.confirm (.confirming shownComparison)) confirmedState
      (.inl (.confirm (.queueing [closingMessages.confirmation shownComparison]))) :=
    .confirm (@ConfirmNext.confirms _ _ lookedState shownComparison .confirmed none rfl
      (Or.inl rfl) (by simp))
  have hqueues : ClosingNext closingMessages "@alice:example.org" confirmedState
      (.confirm (.queueing [closingMessages.confirmation shownComparison]))
      (confirmedState.queue (closingMessages.confirmation shownComparison))
      (.inl (.confirm (.queueing []))) := .confirm .queues
  have hreturns : ClosingNext closingMessages "@alice:example.org"
      (confirmedState.queue (closingMessages.confirmation shownComparison))
      (.confirm (.queueing []))
      (confirmedState.queue (closingMessages.confirmation shownComparison))
      (.inr (.confirm (.confirmed (.ok ())))) := .confirm .returns
  have hrun := hchecked.append
    (.cons (shownClosings_alone 1 hconfirms (Or.inr (by simp)))
      (.cons (shownClosings_alone 1 hqueues (Or.inl (by simp)))
        (.single (shownClosings_alone 1 hreturns (Or.inl (by simp))))))
  refine ⟨_, _, hrun, confirmedSomething_of_unmoved rfl hrun ?_ ?_⟩
  · rw [Calls.begun_append, honce]
    exact Nat.le_refl 1
  · exact List.mem_append_right es (by simp [confirmOk])

/-- The comparison is cancelled. -/
def cancelledState : ConfirmState :=
  { lookedState with flow := { lookedState.flow with
    upstream := lookedState.flow.upstream.setSas shownComparison .cancelled } }

/-- The message of a cancellation. -/
def cancelMessage : UpstreamOutgoingRequest := closingMessage "m.key.verification.cancel" "cancel1"
  "cancel" shownComparison

/-- **A confirmation that returns `Ok` and confirmed nothing**: between its check and
upstream's `confirm` the person refuses the comparison. -/
theorem confirms_nothing : ∃ es q, shownClosings.Run ⟨shownState, []⟩ es q ∧
    Calls.begun Prod.fst 1 es = 1 ∧ confirmOk (1, .confirm (.queueing [])) ∈ es ∧
      ¬ ConfirmedSomething closingMessages "@alice:example.org" ⟨shownState, []⟩ es q
        (1, .confirm (.queueing [])) := by
  obtain ⟨es, hchecked, honce, hnone⟩ := run_checked
  have hfound : ClosingNext closingMessages "@alice:example.org" lookedState
      (.finding (.begins "f1")) lookedState (.inl (.cancelling shownHandles)) :=
    .found (@LookupNext.hit lookedState.flow "f1" (.fromComparison shownComparison) rfl)
  have hcancels : ClosingNext closingMessages "@alice:example.org" lookedState
      (.cancelling shownHandles) cancelledState (.inl (.queueing cancelMessage)) :=
    .cancels rfl .refl
  have hqueues : ClosingNext closingMessages "@alice:example.org" cancelledState
      (.queueing cancelMessage) (cancelledState.queue cancelMessage)
      (.inr (.cancelled (.ok ()))) := .queues
  -- upstream's `confirm` finds the comparison cancelled
  have hnothing : ClosingNext closingMessages "@alice:example.org"
      (cancelledState.queue cancelMessage) (.confirm (.confirming shownComparison))
      (cancelledState.queue cancelMessage) (.inl (.confirm (.queueing []))) :=
    .confirm (.confirmsNothing (by decide))
  have hreturns : ClosingNext closingMessages "@alice:example.org"
      (cancelledState.queue cancelMessage) (.confirm (.queueing []))
      (cancelledState.queue cancelMessage) (.inr (.confirm (.confirmed (.ok ())))) :=
    .confirm .returns
  obtain ⟨fs, hrun, hbegun, hok, hfs⟩ : ∃ fs, shownClosings.Run
      ⟨lookedState, [(1, .confirm (.confirming shownComparison))]⟩ fs
        ⟨cancelledState.queue cancelMessage, []⟩ ∧ Calls.begun Prod.fst 1 fs = 0 ∧
          confirmOk (1, .confirm (.queueing [])) ∈ fs ∧
            ∀ c r rest, confirmedEvent 1 c (r :: rest) ∉ fs := by
    refine ⟨_, .cons (shownClosings_start [(1, .confirm (.confirming shownComparison))] 2
      (l := .finding (.begins "f1")) trivial)
      (.cons (shownClosings_section [(1, .confirm (.confirming shownComparison))] 2 hfound)
        (.cons (shownClosings_section [(1, .confirm (.confirming shownComparison))] 2 hcancels)
          (.cons (shownClosings_section [(1, .confirm (.confirming shownComparison))] 2 hqueues)
            (.cons (shownClosings_section [] 1 hnothing)
              (.single (shownClosings_section [] 1 hreturns)))))), rfl, by simp [confirmOk], ?_⟩
    intro c r rest hmem
    simp [confirmedEvent] at hmem
  refine ⟨es ++ fs, _, hchecked.of_guard.append hrun, ?_, List.mem_append_right es hok, ?_⟩
  · rw [Calls.begun_append, honce, hbegun]
  · rintro ⟨c, rest, before, s, t, after, heq, -⟩
    have hmem : confirmedEvent 1 c (closingMessages.confirmation c :: rest) ∈ es ++ fs := by
      rw [heq]
      exact List.mem_append_right before List.mem_cons_self
    rcases List.mem_append.mp hmem with hmem | hmem
    · exact hnone c _ hmem
    · exact hfs c _ rest hmem

end MatrixCrypto
