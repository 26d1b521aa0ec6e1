import MatrixCrypto.Verification.InvitedOnce
import MatrixCrypto.Verification.Reasons

/-!
# The real reason a code is refused for

What two sides announced is remembered in the record that is in the registry, and copied with
the handles.  While no step forgets it, every refusal is explained by it.

## Main definitions

* `ReasonState.Keeps`, `ReasonCall.Holds` — what the registry and a call in flight have of
  the negotiations.
* `Misexplained` — a refusal is explained by the stage where a method was not announced.

## Main results

* `ReasonNext.keeps`, `ReasonNext.holds` — one section.
* `reasons_stable` — what every call holds of the negotiations.
* `negotiation_kept` — a recorded negotiation stays as it is.
* `reasonGiven_of_remembers` — **in runs that forget none, the real reason is given.**
* `reason_not_given`, `reason_swept_away` — two runs where another is.
-/

namespace MatrixCrypto

open Lib

/-! ### What every call holds -/

section invariants

variable {F : CodeFormat} {announced : VerificationRequest → Announced}

/-- The registry has what was announced on every request that was looked up while it was
ready, as long as the request is not over. -/
structure ReasonState.Keeps (announced : VerificationRequest → Announced) (s : ReasonState) :
    Prop where
  announces : s.upstream.Announces announced
  noted : s.flows.All fun id record => record.Noted announced id
  looked : ∀ r ∈ s.looked, (s.upstream.requestState r).isFinal = true ∨
    ∃ record, s.flows.get? r.flowId = some record ∧ record.request = some r ∧
      record.negotiation.isSome = true

/-- What a call was given of the negotiation was announced, and is there if it had been read
when the call was given it. -/
structure Given (announced : VerificationRequest → Announced) (u : Upstream)
    (seen : List VerificationRequest) (r : VerificationRequest) (n : Option CodeNegotiation) :
    Prop where
  announced : ∀ m, n = some m → m = (announced r).negotiation
  seen : r ∈ seen → n.isSome = true ∨ (u.requestState r).isFinal = true

/-- What a call in flight holds. -/
def ReasonCall.Holds (announced : VerificationRequest → Announced) (s : ReasonState) :
    ReasonCall → Prop
  | invite (.finding _ l) => l.Noted announced
  | invite (.registering c _ _ _) => c.record.Noted announced c.flowId
  | read _ (.finding _ l) => l.Noted announced
  | read seen (.building _ r n) | read seen (.explaining r n) => Given announced s.upstream seen r n
  | _ => True

/-- A section passes every record on, drops it, or registers the record it was given. -/
theorem ReasonNext.passesOn {s t : ReasonState} {call : ReasonCall}
    {res : ReasonCall ⊕ ReasonResult} (h : ReasonNext F announced s call t res) :
    OrdMap.Passes (FlowRecord.Reads s.upstream) (call.Drops s.invite.flow) call.Registers
      s.flows t.flows := by
  cases h with
  | invite h _ =>
    refine h.passesOn.mono ?_ ?_
    · intro k record hdrops
      exact .invite hdrops
    · intro k record hregisters
      exact .invite hregisters
  | @read seen call flow res h =>
    refine h.passesOn.mono ?_ ?_
    · rintro k record ⟨⟨f, id, given, rfl⟩, hret⟩
      exact .read hret
    · rintro k record ⟨f, rfl⟩
      exact .read seen f k record

/-- What a call is about to register was announced. -/
theorem ReasonCall.Registers.noted {s : ReasonState} {call : ReasonCall} {id : String}
    {given : FlowRecord} (h : call.Registers id given) (hholds : call.Holds announced s) :
    given.Noted announced id := by
  cases h with
  | invite h =>
    cases h with
    | opened r => exact FlowRecord.noted_fromRequest r
    | announced c left starts signals => exact hholds
    | adopted f id given => exact hholds
  | read seen f id given => exact hholds

theorem Upstream.goesOn_refl {u : Upstream} (hu : u.Announces announced) : u.GoesOn announced u :=
  ⟨fun _ _ => rfl, hu⟩

/-- A request that is over stays over. -/
theorem Upstream.GoesOn.isFinal {u v : Upstream} (h : u.GoesOn announced v)
    {r : VerificationRequest} (hr : (u.requestState r).isFinal = true) :
    (v.requestState r).isFinal = true := by
  rw [h.settled r hr]
  exact hr

/-- A code upstream builds is built of a request that was not over. -/
theorem Upstream.goesOn_carryCode {u : Upstream} {r : VerificationRequest} {q : QrVerification}
    {state : QrVerificationState} (hu : u.Announces announced) (hbuilds : u.buildsCodes r = true) :
    u.GoesOn announced (u.carryCode r q state) := by
  obtain ⟨w, state', hretires, -, hinsert⟩ := retires_insertCode u q state
  have hother : ∀ r', r' ≠ r → (u.carryCode r q state).requestState r' = w.requestState r' := by
    intro r' hne
    unfold carryCode
    rw [becomes_requestState_of_ne _ _ _ hne, hinsert]
    rfl
  have hthis := carryCode_requestState u r q state
  constructor
  · intro r' hfinal
    have hne : r' ≠ r := by
      rintro rfl
      unfold buildsCodes at hbuilds
      cases hstate : u.requestState r' with
      | done => rw [hstate] at hbuilds; cases hbuilds
      | cancelled => rw [hstate] at hbuilds; cases hbuilds
      | _ => rw [hstate] at hfinal; cases hfinal
    rw [hother r' hne]
    refine hretires.requestState fun v hv => ?_
    rw [hv] at hfinal
    cases hfinal
  · intro r' ours theirs hready
    by_cases hr : r' = r
    · rw [hr, hthis] at hready
      cases hready
    · rw [hother r' hr] at hready
      rcases hretires.request r' with hsame | ⟨-, hcancelled⟩
      · exact hu r' ours theirs (hsame ▸ hready)
      · rw [hcancelled] at hready
        cases hready

/-- Upstream goes on over every section. -/
theorem ReasonNext.goesOn {s t : ReasonState} {call : ReasonCall}
    {res : ReasonCall ⊕ ReasonResult} (hu : s.upstream.Announces announced)
    (h : ReasonNext F announced s call t res) : s.upstream.GoesOn announced t.upstream := by
  cases h with
  | invite _ hup => exact hup
  | @read seen call flow res h =>
    have hkept : flow.upstream = s.upstream → s.upstream.GoesOn announced flow.upstream := by
      intro heq
      rw [heq]
      exact Upstream.goesOn_refl hu
    cases h with
    | finds hl => exact hkept hl.upstream
    | findsNone hl => exact hkept hl.upstream
    | found hl _ => exact hkept hl.upstream
    | requestless hl _ => exact hkept hl.upstream
    | @builds k r n q v hflow hgenerate =>
      unfold Upstream.generateQrCode at hgenerate
      split at hgenerate
      · next hshows =>
        obtain rfl := Option.some.inj hgenerate
        exact Upstream.goesOn_carryCode hu (Upstream.buildsCodes_of_showsCode hshows)
      · cases hgenerate
    | _ => exact hkept rfl

theorem Upstream.mem_whileReady {u : Upstream} {request : Option VerificationRequest}
    {r : VerificationRequest} (h : r ∈ u.whileReady request) :
    request = some r ∧ ∃ ours theirs, u.requestState r = .ready ours theirs := by
  unfold whileReady at h
  obtain ⟨hmem, hready⟩ := List.mem_filter.mp h
  refine ⟨Option.mem_toList.mp hmem, ?_⟩
  cases hstate : u.requestState r with
  | ready ours theirs => exact ⟨ours, theirs, rfl⟩
  | _ =>
    rw [hstate] at hready
    cases hready

/-- A request that comes to have been looked up is that of a record the lookup leaves. -/
theorem ReasonNext.looked {s t : ReasonState} {call : ReasonCall} {res : ReasonCall ⊕ ReasonResult}
    {r : VerificationRequest} (h : ReasonNext F announced s call t res) (hr : r ∈ t.looked) :
    r ∈ s.looked ∨ (∃ ours theirs, s.upstream.requestState r = .ready ours theirs) ∧
      ∃ (id : String) (record : FlowRecord), record.request = some r ∧
        t.flows.get? id = some (record.filled s.upstream) := by
  cases h with
  | @invite call t res h _ =>
    rcases List.mem_append.mp hr with hold | hnew
    · exact Or.inl hold
    · obtain ⟨hgiven, hready⟩ := Upstream.mem_whileReady hnew
      refine Or.inr ⟨hready, ?_⟩
      cases h with
      | found hl =>
        obtain ⟨id, record, hget, rfl⟩ := hl.answered
        exact ⟨id, record, hgiven, hget⟩
      | _ => cases hgiven
  | @read seen call flow res h =>
    rcases List.mem_append.mp hr with hold | hnew
    · exact Or.inl hold
    · obtain ⟨hgiven, hready⟩ := Upstream.mem_whileReady hnew
      refine Or.inr ⟨hready, ?_⟩
      cases h with
      | found hl hrequest =>
        obtain ⟨id, record, hget, rfl⟩ := hl.answered
        obtain rfl := Option.some.inj hgiven
        exact ⟨id, record, hrequest, hget⟩
      | _ => cases hgiven

/-- **A section keeps what was announced in the registry**, if it drops no negotiation. -/
theorem ReasonNext.keeps {s t : ReasonState} {call : ReasonCall} {res : ReasonCall ⊕ ReasonResult}
    (hs : s.Keeps announced) (hholds : call.Holds announced s)
    (hdrops : ∀ k record, call.Drops s.invite.flow k record → s.flows.get? k = some record →
      record.negotiation.isSome = true → record.requestIsOver s.upstream = true)
    (h : ReasonNext F announced s call t res) : t.Keeps announced := by
  have hgo := h.goesOn hs.announces
  have hnoted : t.flows.All fun id record => record.Noted announced id := by
    intro id after hget
    rcases h.passesOn.only id after hget with ⟨record, hbefore, hreads⟩ | ⟨record, hgiven, hreads⟩
    · exact hreads.noted hs.announces (hs.noted id record hbefore)
    · exact hreads.noted hs.announces (hgiven.noted hholds)
  refine ⟨hgo.announces, hnoted, ?_⟩
  intro r hr
  rcases h.looked hr with hold | ⟨⟨ours, theirs, hready⟩, id, record, hrequest, hget⟩
  · rcases hs.looked r hold with hover | ⟨record, hget, hrequest, hsome⟩
    · exact Or.inl (hgo.isFinal hover)
    · rcases h.passesOn.on r.flowId record hget with hdropped | ⟨after, hafter, hreads⟩
      · -- what is dropped all the same is over
        have hover := hdrops r.flowId record hdropped hget hsome
        unfold FlowRecord.requestIsOver at hover
        rw [hrequest] at hover
        exact Or.inl (hgo.isFinal hover)
      · obtain ⟨n, hn⟩ := Option.isSome_iff_exists.mp hsome
        refine Or.inr ⟨after, hafter, hreads.request.trans hrequest, ?_⟩
        rw [hreads.kept hn, Option.isSome_some]
  · have hid : r.flowId = id := (hnoted id _ hget).id r hrequest
    refine Or.inr ⟨record.filled s.upstream, by rw [hid]; exact hget, hrequest, ?_⟩
    exact FlowRecord.isSome_negotiation_filled hrequest hready

/-- What a call holds, it holds however upstream goes on. -/
theorem ReasonCall.Holds.goesOn {s t : ReasonState} {call : ReasonCall}
    (h : call.Holds announced s) (hgo : s.upstream.GoesOn announced t.upstream) :
    call.Holds announced t := by
  have hgiven : ∀ {seen r n}, Given announced s.upstream seen r n →
      Given announced t.upstream seen r n := by
    intro seen r n hgiven
    refine ⟨hgiven.announced, fun hr => ?_⟩
    rcases hgiven.seen hr with hsome | hover
    · exact Or.inl hsome
    · exact Or.inr (hgo.isFinal hover)
  cases call with
  | invite call =>
    cases call with
    | finding f l => exact h
    | registering c left starts signals => exact h
    | _ => trivial
  | read seen call =>
    cases call with
    | finding f l => exact h
    | building k r n => exact hgiven h
    | explaining r n => exact hgiven h
    | _ => trivial

/-- What a call is given with the handles, once what it has seen is what was looked up. -/
theorem given_of_answered {t : ReasonState} {id : String} {record : FlowRecord}
    {r : VerificationRequest} (ht : t.Keeps announced) (hget : t.flows.get? id = some record)
    (hr : record.request = some r) :
    Given announced t.upstream t.looked r record.negotiation := by
  have hnoted := ht.noted id record hget
  constructor
  · intro n hn
    obtain ⟨r', hr', rfl⟩ := hnoted.negotiation n hn
    rw [hr] at hr'
    rw [Option.some.inj hr']
  · intro hlooked
    rcases ht.looked r hlooked with hover | ⟨record', hget', -, hsome⟩
    · exact Or.inr hover
    · rw [hnoted.id r hr, hget] at hget'
      obtain rfl := Option.some.inj hget'
      exact Or.inl hsome

/-- **A call goes on with what it holds.** -/
theorem ReasonNext.holds {s t : ReasonState} {call call' : ReasonCall} (ht : t.Keeps announced)
    (hholds : call.Holds announced s) (h : ReasonNext F announced s call t (.inl call')) :
    call'.Holds announced t := by
  generalize hr : (Sum.inl call' : ReasonCall ⊕ ReasonResult) = res at h
  cases h with
  | @invite call t res h _ =>
    cases h with
    | finds hl =>
      obtain rfl := Sum.inl.inj hr
      exact LookupNext.noted hholds hl
    | @sees r left starts signals d _ =>
      obtain rfl := Sum.inl.inj hr
      exact FlowRecord.noted_fromRequest r
    | @begun start starts signals c hbare =>
      obtain rfl := Sum.inl.inj hr
      unfold bareStart at hbare
      split at hbare
      · cases hbare
      · split at hbare
        · cases hbare
        · split at hbare
          · cases hbare
          · obtain rfl := Option.some.inj hbare
            exact FlowRecord.noted_fromComparison _ _
    | refused | registers | silent | gone | delivered | findsNone | acts | remembers => cases hr
    | _ => exact Sum.inl.inj hr ▸ trivial
  | @read seen call flow res h =>
    cases h with
    | finds hl =>
      obtain rfl := Sum.inl.inj hr
      exact LookupNext.noted hholds hl
    | found hl hrequest =>
      obtain rfl := Sum.inl.inj hr
      obtain ⟨id, record, hget, rfl⟩ := hl.answered
      exact given_of_answered ht hget hrequest
    | buildsNone =>
      obtain rfl := Sum.inl.inj hr
      exact hholds
    | builds | draws => exact Sum.inl.inj hr ▸ trivial
    | _ => cases hr

/-- **What every call holds of the negotiations** survives every step that forgets none. -/
theorem reasons_stable : (reasoning F announced).Stable Remembers
    (ReasonState.Keeps announced) (fun s call => call.Holds announced s) where
  start := by
    intro p call _ _ hbegins
    cases call with
    | invite call =>
      cases call with
      | finding f l =>
        obtain rfl : l = .begins f := hbegins
        trivial
      | registering c left starts signals => exact hbegins.elim
      | _ => trivial
    | read seen call =>
      cases call with
      | finding f l =>
        obtain rfl : l = .begins f := hbegins
        trivial
      | building k r n => exact hbegins.elim
      | explaining r n => exact hbegins.elim
      | _ => trivial
  own := by
    intro p call t res hremembers _ hs hholds hnext
    have ht := hnext.keeps hs hholds fun k record => hremembers.records call res k record rfl
    refine ⟨ht, ?_⟩
    rintro call' rfl
    exact hnext.holds ht hholds
  other := by
    intro p call t res other _ _ hs _ hother hnext
    exact hother.goesOn (hnext.goesOn hs.announces)
  world := by
    intro p move t _ hs hmove
    cases hmove with
    | @invite move t h hup =>
      refine ⟨⟨hup.announces, ?_, ?_⟩, fun call hcall => hcall.goesOn hup⟩
      · cases h with
        | upstream _ => exact hs.noted
        | observes => exact hs.noted
      · intro r hr
        rcases hs.looked r hr with hover | hrecord
        · exact Or.inl (hup.isFinal hover)
        · cases h with
          | upstream _ => exact Or.inr hrecord
          | observes => exact Or.inr hrecord
    | identities =>
      exact ⟨⟨hs.announces, hs.noted, hs.looked⟩,
        fun call hcall => hcall.goesOn (Upstream.goesOn_refl hs.announces)⟩

/-- All of it holds in every state of a run that forgets no negotiation. -/
theorem asserted_of_reachable {p : ReasonPool}
    (hp : ((reasonings F announced).restrict Remembers).Reachable p) :
    Calls.Asserted (ReasonState.Keeps announced) (fun s call => ReasonCall.Holds announced s call)
      p := by
  obtain ⟨p₀, es, ⟨hstarting, hcalls⟩, hrun⟩ := hp
  refine reasons_stable.run hrun ⟨⟨hstarting.announces, ?_, ?_⟩, ?_⟩
  · intro id record hget
    rw [ReasonState.flows, hstarting.invite.flows, OrdMap.get?_empty] at hget
    cases hget
  · intro r hr
    rw [hstarting.looked] at hr
    cases hr
  · intro call hcall
    rw [hcalls] at hcall
    cases hcall

/-- What a call that explains itself returns. -/
theorem ReasonNext.explains {s t : ReasonState} {seen : List VerificationRequest}
    {r : VerificationRequest} {n : Option CodeNegotiation} {res : ReasonCall ⊕ ReasonResult}
    (h : ReasonNext F announced s (.read seen (.explaining r n)) t res) :
    res = .inr (.read (.error (whyNoCode s.upstream s.identities r n))) := by
  generalize hcall : ReasonCall.read seen (.explaining r n) = call at h
  cases h with
  | invite => cases hcall
  | read h =>
    obtain ⟨-, rfl⟩ := ReasonCall.read.inj hcall
    cases h with
    | explains => rfl

/-- No move of the outside world touches the registry. -/
theorem ReasonMoves.flows {s t : ReasonState} {move : ReasonMove}
    (h : ReasonMoves announced s move t) : t.flows = s.flows := by
  cases h with
  | invite h _ =>
    cases h with
    | upstream _ => rfl
    | observes => rfl
  | identities => rfl

/-- **A recorded negotiation stays as it is**, in every step that does not drop its record. -/
theorem negotiation_kept {p q : ReasonPool} {e : ReasonEvent} {k : String} {record : FlowRecord}
    {n : CodeNegotiation} (hstep : (reasonings F announced).step p e q)
    (hget : p.shared.flows.get? k = some record) (hn : record.negotiation = some n)
    (hstays : ∀ call res, e = .section call res → ¬ call.Drops p.shared.invite.flow k record) :
    ∃ after, q.shared.flows.get? k = some after ∧ after.request = record.request ∧
      after.negotiation = some n := by
  cases e with
  | start call =>
    obtain ⟨-, rfl⟩ := hstep
    exact ⟨record, hget, rfl, hn⟩
  | «section» call res =>
    obtain ⟨before, after, -, hnext, -⟩ := hstep
    rcases hnext.passesOn.on k record hget with hdrops | ⟨after, hafter, hreads⟩
    · exact absurd hdrops (hstays call res rfl)
    · exact ⟨after, hafter, hreads.request, hreads.kept hn⟩
  | world move =>
    have hmove : ReasonMoves announced p.shared move q.shared := hstep.1
    exact ⟨record, by rw [hmove.flows]; exact hget, rfl, hn⟩

/-- The registry has what was announced on a request that was looked up while it was ready. -/
theorem ReasonState.Keeps.recorded {s : ReasonState} {r : VerificationRequest}
    (h : s.Keeps announced) (hr : r ∈ s.looked)
    (hlive : (s.upstream.requestState r).isFinal = false) :
    ∃ record, s.flows.get? r.flowId = some record ∧ record.request = some r ∧
      record.negotiation = some (announced r).negotiation := by
  rcases h.looked r hr with hover | ⟨record, hget, hrequest, hsome⟩
  · rw [hlive] at hover
    cases hover
  · obtain ⟨n, hn⟩ := Option.isSome_iff_exists.mp hsome
    obtain ⟨r', hr', rfl⟩ := (h.noted _ record hget).negotiation n hn
    rw [hrequest] at hr'
    obtain rfl := Option.some.inj hr'
    exact ⟨record, hget, hrequest, hn⟩

/-- What a call was given before is what was announced, of a request that has moved on. -/
theorem Given.of_seen {u : Upstream} {seen : List VerificationRequest} {r : VerificationRequest}
    {n : Option CodeNegotiation} {v : Verification} (h : Given announced u seen r n)
    (hseen : r ∈ seen) (hmoved : u.requestState r = .transitioned v) :
    n = some (announced r).negotiation := by
  rcases h.seen hseen with hsome | hover
  · obtain ⟨m, hm⟩ := Option.isSome_iff_exists.mp hsome
    rw [hm, h.announced m hm]
  · rw [hmoved] at hover
    cases hover

/-- **In runs that forget no negotiation, a refusal of a code names the real reason.** -/
theorem reasonGiven_of_remembers (F : CodeFormat) (announced : VerificationRequest → Announced)
    {p q : ReasonPool} {e : ReasonEvent}
    (hp : ((reasonings F announced).restrict Remembers).Reachable p)
    (hstep : ((reasonings F announced).restrict Remembers).step p e q) :
    ReasonGiven announced p e q := by
  obtain ⟨hkeeps, hholds⟩ := asserted_of_reachable hp
  obtain ⟨hremembers, hstep⟩ := hstep
  refine ⟨?_, fun k record n hget hn hstays => negotiation_kept hstep hget hn hstays,
    fun r hr hlive => hkeeps.recorded hr hlive⟩
  rintro seen r n res known rfl hknown hlooked
  obtain ⟨before, after, hsplit, hnext, -⟩ := hstep
  have hgiven : Given announced p.shared.upstream seen r n := hholds _ (Calls.mem_of_split hsplit)
  have hreason : whyNoCode p.shared.upstream p.shared.identities r n =
      refusal p.shared.upstream known p.shared.identities.complete r (announced r) := by
    apply whyNoCode_eq_refusal hknown (hkeeps.announces r)
    intro hmoved
    -- the negotiation was read before this call was given its handles
    have hseen := hremembers.handles seen r n res rfl hmoved (hlooked hmoved)
    obtain ⟨v, hv⟩ := hmoved
    exact hgiven.of_seen hseen hv
  rw [← hreason]
  exact hnext.explains

end invariants

/-! ### Three runs

A request of this process was made without a code to show.  It is ready, and then a comparison
is started for it. -/

section runs

/-- What was announced: the other side shows and scans codes, this side only scans them. -/
def unshown : Announced where
  ours := [.sasV1, .qrCodeScanV1, .reciprocateV1]
  theirs := [.sasV1, .qrCodeShowV1, .qrCodeScanV1, .reciprocateV1]

/-- Upstream holds these requests, and one it does not hold is not built yet. -/
def askingFor (requests : List (VerificationRequest × VerificationRequestState)) : Upstream :=
  { requesting requests none with
    requestState := fun r =>
      ((requests.find? fun e => decide (e.1 = r)).map Prod.snd).getD .created }

theorem requestState_askingFor {requests : List (VerificationRequest × VerificationRequestState)}
    {r : VerificationRequest} {state : VerificationRequestState}
    (h : (askingFor requests).requestState r = state) (hstate : state ≠ .created) :
    (requesting requests none).requestState r = state ∧ (r, state) ∈ requests := by
  have hfind : ((requests.find? fun e => decide (e.1 = r)).map Prod.snd).getD .created = state := h
  cases hget : requests.find? fun e => decide (e.1 = r) with
  | none =>
    rw [hget] at hfind
    exact absurd hfind.symm hstate
  | some e =>
    rw [hget] at hfind
    have heq : e.1 = r := by simpa using List.find?_some hget
    have hsnd : e.2 = state := hfind
    constructor
    · show ((requests.find? fun e => decide (e.1 = r)).map Prod.snd).getD .done = state
      rw [hget]
      exact hsnd
    · rw [← heq, ← hsnd]
      exact List.mem_of_find?_eq_some hget

theorem askingFor_invites {requests : List (VerificationRequest × VerificationRequestState)}
    {opened started : List VerificationRequest} {arrived : List (String × String)}
    (h : (requesting requests none).Invites opened started arrived) :
    (askingFor requests).Invites opened started arrived where
  coherent := ⟨h.coherent.request, h.coherent.requests, h.coherent.sas,
    fun r c hr => h.coherent.becameSas r c (requestState_askingFor hr (by simp)).1,
    fun r q hr => h.coherent.becameCode r q (requestState_askingFor hr (by simp)).1⟩
  requests := h.requests
  comparisons := h.comparisons
  ours := fun r hr d hd => h.ours r hr d (requestState_askingFor hd (by simp)).1

/-- What upstream shows here was announced, and it goes on to whatever was. -/
theorem askingFor_announces {requests : List (VerificationRequest × VerificationRequestState)}
    (h : ∀ e ∈ requests, ∀ ours theirs, e.2 = .ready ours theirs → unshown = ⟨ours, theirs⟩) :
    (askingFor requests).Announces fun _ => unshown := by
  intro r ours theirs hready
  exact h _ (requestState_askingFor hready (by simp)).2 ours theirs rfl

theorem askingFor_goesOn {requests : List (VerificationRequest × VerificationRequestState)}
    {v : Upstream} (hlive : ∀ e ∈ requests, e.2.isFinal = false)
    (hv : v.Announces fun _ => unshown) : (askingFor requests).GoesOn (fun _ => unshown) v := by
  refine ⟨?_, hv⟩
  intro r hfinal
  by_cases hcreated : (askingFor requests).requestState r = .created
  · rw [hcreated] at hfinal
    cases hfinal
  · have hmem := (requestState_askingFor rfl hcreated).2
    rw [hlive _ hmem] at hfinal
    cases hfinal

/-- The request, in one state. -/
def askedAt (state : VerificationRequestState) : Upstream := askingFor [(ownRequest, state)]

/-- A process that has just started. -/
def beginningState : ReasonState where
  invite := { expectingState with flow := { expectingState.flow with upstream := askingFor [] } }
  identities := ⟨fun _ => .ok true, true⟩
  looked := []

theorem beginningState_starting : beginningState.Starting fun _ => unshown where
  invite := ⟨rfl, rfl, rfl, rfl, rfl, rfl,
    askingFor_invites (requesting_invites (by simp) (by simp) (by simp) (by simp))⟩
  looked := rfl
  announces := askingFor_announces (by simp)

/-- The request is built. -/
def builtState : ReasonState :=
  { beginningState with
    invite := { beginningState.invite with
      flow := { beginningState.invite.flow with upstream := askedAt .created }
      opened := [ownRequest] } }

/-- It is registered. -/
def ownAskedState : ReasonState :=
  { builtState with
    invite := { builtState.invite with
      flow := { builtState.invite.flow with
        flows := (builtState.flows.register (askedAt .created) true "t2"
          (.fromRequest ownRequest)).2 }
      started := [ownRequest] } }

/-- Upstream goes on. -/
def ReasonState.reaches (s : ReasonState) (u : Upstream) : ReasonState :=
  { s with invite := { s.invite with flow := { s.invite.flow with upstream := u } } }

theorem remembers_section {p : ReasonPool} {call : ReasonCall} {res : ReasonCall ⊕ ReasonResult}
    (hdrops : ∀ k record, call.Drops p.shared.invite.flow k record →
      p.shared.flows.get? k ≠ some record)
    (hexplains : ∀ seen r n, call ≠ .read seen (.explaining r n)) :
    Remembers p (.section call res) := by
  constructor
  · rintro call res k record ⟨⟩ hdropped hget
    exact absurd hget (hdrops k record hdropped)
  · rintro seen r n res ⟨⟩
    exact absurd rfl (hexplains seen r n)

theorem remembers_other {p : ReasonPool} {e : ReasonEvent}
    (h : ∀ call res, e ≠ .section call res) : Remembers p e :=
  ⟨fun call res _ _ he => absurd he (h call res), fun _ _ _ res he => absurd he (h _ res)⟩

/-- One section of a call among the others. -/
theorem reason_section {F : CodeFormat} {announced : VerificationRequest → Announced}
    {s t : ReasonState} {call : ReasonCall} {res : ReasonCall ⊕ ReasonResult}
    (before after : List ReasonCall) (h : ReasonNext F announced s call t res) :
    (reasonings F announced).step ⟨s, before ++ call :: after⟩ (.section call res)
      ⟨t, before ++ (remaining res ++ after)⟩ :=
  Calls.step_section (reasoning F announced) before after h

/-- Upstream goes on, whatever the calls are at. -/
theorem reaches_step {F : CodeFormat} {s : ReasonState} {u : Upstream} (calls : List ReasonCall)
    (harrived : s.invite.arrived = []) (hu : u.Invites s.invite.opened s.invite.started [])
    (hgo : s.upstream.GoesOn (fun _ => unshown) u) :
    (reasonings F fun _ => unshown).step ⟨s, calls⟩ (.world (.invite (.upstream u [])))
      ⟨s.reaches u, calls⟩ := by
  have hmove : InviteMoves s.invite (.upstream u []) (s.reaches u).invite := by
    have hheld : (s.reaches u).invite = { s.invite with
        flow := { s.invite.flow with upstream := u }
        arrived := s.invite.arrived ++ [] } := by
      rw [List.append_nil]
      rfl
    rw [hheld]
    refine .upstream ?_
    rw [harrived]
    exact hu
  exact ⟨.invite hmove hgo, rfl⟩

theorem askedAt_invites {state : VerificationRequestState} {started : List VerificationRequest}
    (hflow : ∀ v, state = .transitioned v → v.flow = ("t2", "@bob:example.org"))
    (hours : ∀ d, state ≠ .requested d) : (askedAt state).Invites [ownRequest] started [] := by
  apply askingFor_invites
  refine requesting_invites_of_flows ?_ (by simp) (by simp) ?_
  · intro e he v hv
    obtain rfl := List.mem_singleton.mp he
    exact hflow v hv
  · intro r _ d hd
    have heq := List.mem_singleton.mp hd
    exact hours d (Prod.mk.inj heq).2.symm

/-- The request is made and registered, and nothing is forgotten. -/
theorem asked_run (F : CodeFormat) : ∃ es, ((reasonings F fun _ => unshown).restrict
    Remembers).Run ⟨beginningState, []⟩ es ⟨ownAskedState, []⟩ := by
  have hopen : (reasonings F fun _ => unshown).step ⟨beginningState, []⟩
      (.start (.invite (.opening "@bob:example.org")))
      ⟨beginningState, [.invite (.opening "@bob:example.org")]⟩ := Calls.step_start _ trivial
  have hopens : InviteNext beginningState.invite (.opening "@bob:example.org") builtState.invite
      (.inl (.opened ownRequest)) := .opens rfl (askedAt_invites (by simp) (by simp))
  have hregisters : InviteNext builtState.invite (.opened ownRequest) ownAskedState.invite
      (.inr (.ok ())) := .registers
  have hannounces : (askedAt .created).Announces fun _ => unshown := askingFor_announces (by simp)
  have hgo : (askingFor []).GoesOn (fun _ => unshown) (askedAt .created) :=
    askingFor_goesOn (by simp) hannounces
  refine ⟨_, .cons ⟨remembers_other (by simp), hopen⟩
    (.cons ⟨remembers_section ?_ (by simp), reason_section [] [] (.invite hopens hgo)⟩
      (.single ⟨remembers_section ?_ (by simp),
        reason_section [] [] (.invite hregisters (Upstream.goesOn_refl hannounces))⟩))⟩
  · rintro k record - hget
    cases hget
  · rintro k record - hget
    cases hget

/-- The request, once it is ready. -/
def readyAsked : Upstream := askedAt (.ready unshown.ours unshown.theirs)

/-- The request, once a comparison is started for it. -/
def startedAsked : Upstream := askedAt (.transitioned (.sas ownComparison))

theorem readyAsked_invites : readyAsked.Invites [ownRequest] [ownRequest] [] :=
  askedAt_invites (by simp) (by simp)

theorem startedAsked_invites : startedAsked.Invites [ownRequest] [ownRequest] [] := by
  apply askedAt_invites
  · rintro v ⟨⟩
    rfl
  · simp

theorem readyAsked_announces : readyAsked.Announces fun _ => unshown := by
  apply askingFor_announces
  simp only [List.mem_singleton, forall_eq]
  rintro ours theirs ⟨⟩
  rfl

theorem startedAsked_announces : startedAsked.Announces fun _ => unshown :=
  askingFor_announces (by simp)

/-- What a call is given that finds the request in the registry. -/
def handlesAt (u : Upstream) : Handles :=
  (((FlowRecord.fromRequest ownRequest).filled (askedAt .created)).filled u).handles

/-- A registry lookup of the request. -/
def ReasonState.lookedUp (s : ReasonState) : FlowState :=
  { s.invite.flow with flows := (s.flows.cached s.upstream "t2").2 }

/-- `read_code` looks the ready request up, and then a comparison is started for it. -/
def readState : ReasonState :=
  ((ownAskedState.reaches readyAsked).afterReading (ownAskedState.reaches readyAsked).lookedUp
    (.inl (.building "t2" ownRequest (handlesAt readyAsked).negotiation))).reaches startedAsked

theorem askedAt_goesOn {state : VerificationRequestState} {v : Upstream}
    (hlive : state.isFinal = false) (hv : v.Announces fun _ => unshown) :
    (askedAt state).GoesOn (fun _ => unshown) v :=
  askingFor_goesOn (by simpa using hlive) hv

/-- `read_code` finds the request while it is ready. -/
theorem readyAsked_found : ReadNext exampleFormat ⟨fun _ => .ok true, true⟩
    (ownAskedState.reaches readyAsked).invite.flow (.finding "t2" (.begins "t2"))
    (ownAskedState.reaches readyAsked).lookedUp
    (.inl (.building "t2" ownRequest (handlesAt readyAsked).negotiation)) := by
  have hget : (ownAskedState.reaches readyAsked).flows.get? "t2" =
      some ((FlowRecord.fromRequest ownRequest).filled (askedAt .created)) := rfl
  exact .found (@LookupNext.hit (ownAskedState.reaches readyAsked).invite.flow "t2" _ hget) rfl

/-- Upstream builds no code, and the call has nothing left but to explain itself. -/
theorem readState_run : ∃ es, ((reasonings exampleFormat fun _ => unshown).restrict Remembers).Run
    ⟨beginningState, []⟩ es
    ⟨readState,
      [.read [ownRequest] (.explaining ownRequest (handlesAt readyAsked).negotiation)]⟩ := by
  obtain ⟨es, hasked⟩ := asked_run exampleFormat
  have hready : (reasonings exampleFormat fun _ => unshown).step ⟨ownAskedState, []⟩
      (.world (.invite (.upstream readyAsked []))) ⟨ownAskedState.reaches readyAsked, []⟩ :=
    reaches_step [] rfl readyAsked_invites (askedAt_goesOn rfl readyAsked_announces)
  have hstart : (reasonings exampleFormat fun _ => unshown).step
      ⟨ownAskedState.reaches readyAsked, []⟩ (.start (.read [] (.finding "t2" (.begins "t2"))))
      ⟨ownAskedState.reaches readyAsked, [.read [] (.finding "t2" (.begins "t2"))]⟩ :=
    Calls.step_start _ rfl
  have hstarted : (reasonings exampleFormat fun _ => unshown).step
      ⟨_, [.read [ownRequest] (.building "t2" ownRequest (handlesAt readyAsked).negotiation)]⟩
      (.world (.invite (.upstream startedAsked [])))
      ⟨readState, [.read [ownRequest] (.building "t2" ownRequest
        (handlesAt readyAsked).negotiation)]⟩ :=
    reaches_step _ rfl startedAsked_invites (askedAt_goesOn rfl startedAsked_announces)
  have hnone : ReadNext exampleFormat readState.identities readState.invite.flow
      (.building "t2" ownRequest (handlesAt readyAsked).negotiation) readState.invite.flow
      (.inl (.explaining ownRequest (handlesAt readyAsked).negotiation)) := .buildsNone
  refine ⟨_, hasked.append (.cons ⟨remembers_other (by simp), hready⟩
    (.cons ⟨remembers_other (by simp), hstart⟩
      (.cons ⟨remembers_section ?_ (by simp), reason_section [] [] (.read readyAsked_found)⟩
        (.cons ⟨remembers_other (by simp), hstarted⟩
          (.single ⟨remembers_section ?_ (by simp), reason_section [] [] (.read hnone)⟩)))))⟩
  · rintro k record ⟨⟩
  · rintro k record ⟨⟩

/-- **A refusal is explained by what was announced**, on a request that has moved on since. -/
theorem reasonGiven_readState : ∃ p q n, ReasonGiven (fun _ => unshown) p
    (.section (.read [ownRequest] (.explaining ownRequest n))
      (.inr (.read (.error .codeNotOffered)))) q ∧
    p.shared.upstream.requestState ownRequest = .transitioned (.sas ownComparison) ∧
      ownRequest ∈ p.shared.looked := by
  obtain ⟨es, hrun⟩ := readState_run
  have hexplains : ReadNext exampleFormat readState.identities readState.invite.flow
      (.explaining ownRequest (handlesAt readyAsked).negotiation) readState.invite.flow
      (.inr (.error .codeNotOffered)) := .explains
  have hstep : ((reasonings exampleFormat fun _ => unshown).restrict Remembers).step
      ⟨readState, [.read [ownRequest] (.explaining ownRequest (handlesAt readyAsked).negotiation)]⟩
      (.section (.read [ownRequest] (.explaining ownRequest (handlesAt readyAsked).negotiation))
        (.inr (.read (.error .codeNotOffered))))
      ⟨readState.afterReading readState.invite.flow (.inr (.error .codeNotOffered)), []⟩ := by
    refine ⟨⟨?_, ?_⟩, reason_section [] [] (.read hexplains)⟩
    · rintro call res k record ⟨⟩ ⟨⟩
    · rintro seen r n res ⟨⟩ - -
      exact List.mem_singleton_self _
  exact ⟨_, _, _, reasonGiven_of_remembers exampleFormat (fun _ => unshown)
    ⟨_, es, ⟨beginningState_starting, rfl⟩, hrun⟩ hstep, rfl, List.mem_singleton_self _⟩

/-- Another call is given the handles of the request. -/
def ReasonState.foundBy (s : ReasonState) : ReasonState :=
  { s with
    invite := { s.invite with
      flow := s.lookedUp
      held := s.invite.held ++ ["t2"] }
    looked := s.looked ++ s.upstream.whileReady (some ownRequest) }

/-- Another call looks the request up in the registry, and returns. -/
theorem foundBy_run {s : ReasonState} {record : FlowRecord} (calls : List ReasonCall)
    (hget : s.flows.get? "t2" = some record) (hrequest : record.request = some ownRequest)
    (hu : s.upstream.Announces fun _ => unshown) : ∃ es,
    (reasonings exampleFormat fun _ => unshown).Run ⟨s, calls⟩ es ⟨s.foundBy, calls⟩ := by
  have hstart : (reasonings exampleFormat fun _ => unshown).step ⟨s, calls⟩
      (.start (.invite (.finding "t2" (.begins "t2"))))
      ⟨s, calls ++ [.invite (.finding "t2" (.begins "t2"))]⟩ := Calls.step_start _ rfl
  have hfound : InviteNext s.invite (.finding "t2" (.begins "t2")) s.foundBy.invite
      (.inl (.acting "t2" (record.filled s.upstream).handles)) :=
    .found (@LookupNext.hit s.invite.flow "t2" record hget)
  have hlooked : ReasonNext exampleFormat (fun _ => unshown) s
      (.invite (.finding "t2" (.begins "t2"))) s.foundBy
      (.inl (.invite (.acting "t2" (record.filled s.upstream).handles))) := by
    have hgiven : (record.filled s.upstream).handles.request = some ownRequest := hrequest
    have hnext : ReasonNext exampleFormat (fun _ => unshown) s
        (.invite (.finding "t2" (.begins "t2")))
        { s with
          invite := s.foundBy.invite
          looked := s.looked ++
            s.upstream.whileReady (record.filled s.upstream).handles.request }
        (.inl (.invite (.acting "t2" (record.filled s.upstream).handles))) :=
      .invite hfound (Upstream.goesOn_refl hu)
    rw [hgiven] at hnext
    exact hnext
  have hacts : ReasonNext exampleFormat (fun _ => unshown) s.foundBy
      (.invite (.acting "t2" (record.filled s.upstream).handles)) s.foundBy
      (.inr (.invite (.ok ()))) := by
    have hnext : ReasonNext exampleFormat (fun _ => unshown) s.foundBy
        (.invite (.acting "t2" (record.filled s.upstream).handles))
        { s.foundBy with looked := s.foundBy.looked ++ [] } (.inr (.invite (.ok ()))) :=
      .invite .acts (Upstream.goesOn_refl hu)
    rwa [List.append_nil] at hnext
  have hactsStep := reason_section calls [] hacts
  rw [remaining_inr, List.nil_append, List.append_nil] at hactsStep
  exact ⟨_, .cons hstart (.cons (reason_section calls [] hlooked) (.single hactsStep))⟩

/-- `read_code` explains a refusal by the stage, of a request that had been looked up while it
was ready and on which this side announced no code. -/
def Misexplained (p : ReasonPool) : Prop :=
  ∃ seen n q, (reasonings exampleFormat fun _ => unshown).step p
    (.section (.read seen (.explaining ownRequest n))
      (.inr (.read (.error (.machine .wrongStage))))) q ∧
    ownRequest ∈ p.shared.looked ∧ p.shared.identities.stored ownRequest.otherUser = .ok true ∧
      refusal p.shared.upstream true p.shared.identities.complete ownRequest unshown =
        .codeNotOffered

/-- A call that was given no negotiation blames the stage. -/
theorem misexplained_of_none {s : ReasonState} {seen : List VerificationRequest}
    {v : Verification} (hlooked : ownRequest ∈ s.looked)
    (hids : s.identities = ⟨fun _ => .ok true, true⟩)
    (hstate : s.upstream.requestState ownRequest = .transitioned v)
    (huser : s.upstream.userId = "@alice:example.org") :
    Misexplained ⟨s, [.read seen (.explaining ownRequest none)]⟩ := by
  have hreason : whyNoCode s.upstream s.identities ownRequest none = .machine .wrongStage := by
    unfold whyNoCode whyAgreed
    rw [hstate, hids, huser]
    rfl
  have hexplains : ReadNext exampleFormat s.identities s.invite.flow (.explaining ownRequest none)
      s.invite.flow (.inr (.error (.machine .wrongStage))) := by
    rw [← hreason]
    exact .explains
  refine ⟨seen, none, _, reason_section [] [] (.read hexplains), hlooked, ?_, ?_⟩
  · show s.identities.stored _ = _
    rw [hids]
  · show refusal s.upstream true s.identities.complete ownRequest unshown = _
    unfold refusal reasons
    rw [hstate]
    rfl

/-- `read_code` has looked the request up before it was ready. -/
def foundEarlyState : ReasonState :=
  ownAskedState.afterReading ownAskedState.lookedUp (.inl (.building "t2" ownRequest none))

/-- **The real reason is not given**: `read_code` looks the request up before it is ready, and
before upstream is asked for the code, another call looks it up while it is ready and a
comparison is started for it. -/
theorem reason_not_given : ∃ p, (reasonings exampleFormat fun _ => unshown).Reachable p ∧
    Misexplained p := by
  obtain ⟨es, hasked⟩ := asked_run exampleFormat
  have hstart : (reasonings exampleFormat fun _ => unshown).step ⟨ownAskedState, []⟩
      (.start (.read [] (.finding "t2" (.begins "t2"))))
      ⟨ownAskedState, [.read [] (.finding "t2" (.begins "t2"))]⟩ := Calls.step_start _ rfl
  have hget : ownAskedState.flows.get? "t2" =
      some ((FlowRecord.fromRequest ownRequest).filled (askedAt .created)) := rfl
  have hfound : ReadNext exampleFormat ownAskedState.identities ownAskedState.invite.flow
      (.finding "t2" (.begins "t2")) ownAskedState.lookedUp
      (.inl (.building "t2" ownRequest none)) :=
    .found (@LookupNext.hit ownAskedState.invite.flow "t2" _ hget) rfl
  have hready : (reasonings exampleFormat fun _ => unshown).step
      ⟨foundEarlyState, [.read [] (.building "t2" ownRequest none)]⟩
      (.world (.invite (.upstream readyAsked [])))
      ⟨foundEarlyState.reaches readyAsked, [.read [] (.building "t2" ownRequest none)]⟩ :=
    reaches_step _ rfl readyAsked_invites (askedAt_goesOn rfl readyAsked_announces)
  obtain ⟨es', hother⟩ := foundBy_run (s := foundEarlyState.reaches readyAsked)
    [.read [] (.building "t2" ownRequest none)] rfl rfl readyAsked_announces
  have hstarted : (reasonings exampleFormat fun _ => unshown).step
      ⟨(foundEarlyState.reaches readyAsked).foundBy, [.read [] (.building "t2" ownRequest none)]⟩
      (.world (.invite (.upstream startedAsked [])))
      ⟨(foundEarlyState.reaches readyAsked).foundBy.reaches startedAsked,
        [.read [] (.building "t2" ownRequest none)]⟩ :=
    reaches_step _ rfl startedAsked_invites (askedAt_goesOn rfl startedAsked_announces)
  have hrun := hasked.of_restrict.append (.cons hstart
    (.cons (reason_section [] [] (.read hfound)) (.cons hready (hother.append (.cons hstarted
      (.single (reason_section [] [] (.read .buildsNone))))))))
  exact ⟨_, ⟨_, _, ⟨beginningState_starting, rfl⟩, hrun⟩,
    misexplained_of_none (List.mem_singleton_self _) rfl rfl rfl⟩

/-- Another comparison of the flow. -/
def secondComparison : Sas := ⟨1, "t2", "@bob:example.org", "BOB"⟩

/-- The comparison runs out, and the request stays as it is. -/
def lapsedAsked : Upstream := startedAsked.setSas ownComparison .cancelled

/-- Upstream holds another request beside it. -/
def besideAsked (c : Sas) : Upstream :=
  (askingFor [(ownRequest, .transitioned (.sas c)), (otherRequest, .created)]).setSas
    ownComparison .cancelled

theorem Upstream.Invites.setSas {u : Upstream} {opened started : List VerificationRequest}
    {arrived : List (String × String)} (h : u.Invites opened started arrived) (c : Sas)
    (state : SasState) : (u.setSas c state).Invites opened started arrived :=
  ⟨⟨h.coherent.request, h.coherent.requests, h.coherent.sas, h.coherent.becameSas,
    h.coherent.becameCode⟩, h.requests, h.comparisons, h.ours⟩

theorem besideAsked_invites {c : Sas} {started : List VerificationRequest}
    (hflow : (c.flowId, c.otherUserId) = ("t2", "@bob:example.org")) :
    (besideAsked c).Invites [ownRequest, otherRequest] started [] := by
  refine Upstream.Invites.setSas (askingFor_invites ?_) _ _
  refine requesting_invites_of_flows ?_ (by simp) (by simp) (by simp)
  intro e he v hv
  simp only [List.mem_cons, List.not_mem_nil, or_false] at he
  rcases he with rfl | rfl
  · cases hv
    exact hflow
  · cases hv

theorem besideAsked_announces (c : Sas) : (besideAsked c).Announces fun _ => unshown := by
  have h : (askingFor [(ownRequest, .transitioned (.sas c)), (otherRequest, .created)]).Announces
      fun _ => unshown := askingFor_announces (by simp)
  exact h

theorem besideAsked_goesOn {c : Sas} {v : Upstream} (hv : v.Announces fun _ => unshown) :
    (besideAsked c).GoesOn (fun _ => unshown) v := by
  have hlive : ∀ e ∈ [(ownRequest, VerificationRequestState.transitioned (.sas c)),
      (otherRequest, .created)], e.2.isFinal = false := by
    simp only [List.mem_cons, List.not_mem_nil, or_false, forall_eq_or_imp, forall_eq]
    exact ⟨rfl, rfl⟩
  have h := askingFor_goesOn hlive hv
  exact ⟨h.settled, h.announces⟩

/-- A call has looked the ready request up, and its comparison has started and run out. -/
def lapsedState : ReasonState :=
  ((ownAskedState.reaches readyAsked).foundBy.reaches startedAsked).reaches lapsedAsked

/-- Another request is built. -/
def anotherBuiltState : ReasonState :=
  { lapsedState with
    invite := { lapsedState.invite with
      flow := { lapsedState.invite.flow with upstream := besideAsked ownComparison }
      opened := [ownRequest, otherRequest] } }

/-- It is registered, and the sweep drops the flow whose comparison ran out. -/
def anotherAskedState : ReasonState :=
  { anotherBuiltState with
    invite := { anotherBuiltState.invite with
      flow := { anotherBuiltState.invite.flow with
        flows := (anotherBuiltState.flows.register (besideAsked ownComparison) true "t3"
          (.fromRequest otherRequest)).2 }
      started := [ownRequest, otherRequest] } }

/-- The other side starts another comparison for the request. -/
def againState : ReasonState := anotherAskedState.reaches (besideAsked secondComparison)

/-- The request is looked up, its comparison runs out, and another registration sweeps it. -/
theorem anotherAsked_run : ∃ es, (reasonings exampleFormat fun _ => unshown).Run
    ⟨beginningState, []⟩ es ⟨anotherAskedState, []⟩ := by
  obtain ⟨es, hasked⟩ := asked_run exampleFormat
  have hready : (reasonings exampleFormat fun _ => unshown).step ⟨ownAskedState, []⟩
      (.world (.invite (.upstream readyAsked []))) ⟨ownAskedState.reaches readyAsked, []⟩ :=
    reaches_step [] rfl readyAsked_invites (askedAt_goesOn rfl readyAsked_announces)
  obtain ⟨es', hother⟩ := foundBy_run (s := ownAskedState.reaches readyAsked) [] rfl rfl
    readyAsked_announces
  have hstarted : (reasonings exampleFormat fun _ => unshown).step
      ⟨(ownAskedState.reaches readyAsked).foundBy, []⟩
      (.world (.invite (.upstream startedAsked [])))
      ⟨(ownAskedState.reaches readyAsked).foundBy.reaches startedAsked, []⟩ :=
    reaches_step _ rfl startedAsked_invites (askedAt_goesOn rfl startedAsked_announces)
  have hlapsed : (reasonings exampleFormat fun _ => unshown).step
      ⟨(ownAskedState.reaches readyAsked).foundBy.reaches startedAsked, []⟩
      (.world (.invite (.upstream lapsedAsked []))) ⟨lapsedState, []⟩ :=
    reaches_step _ rfl (startedAsked_invites.setSas _ _) (askedAt_goesOn rfl startedAsked_announces)
  have hopen : (reasonings exampleFormat fun _ => unshown).step ⟨lapsedState, []⟩
      (.start (.invite (.opening "@mallory:example.org")))
      ⟨lapsedState, [.invite (.opening "@mallory:example.org")]⟩ := Calls.step_start _ trivial
  have hopens : InviteNext lapsedState.invite (.opening "@mallory:example.org")
      anotherBuiltState.invite (.inl (.opened otherRequest)) :=
    .opens rfl (besideAsked_invites rfl)
  have hgo : lapsedAsked.GoesOn (fun _ => unshown) (besideAsked ownComparison) := by
    have h := @askedAt_goesOn (.transitioned (.sas ownComparison)) _ rfl
      (besideAsked_announces ownComparison)
    exact ⟨h.settled, h.announces⟩
  have hregisters : InviteNext anotherBuiltState.invite (.opened otherRequest)
      anotherAskedState.invite (.inr (.ok ())) := .registers
  exact ⟨_, hasked.of_restrict.append (.cons hready (hother.append (.cons hstarted (.cons hlapsed
    (.cons hopen (.cons (reason_section [] [] (.invite hopens hgo))
      (.single (reason_section [] [] (.invite hregisters
        (Upstream.goesOn_refl (besideAsked_announces ownComparison)))))))))))⟩

/-- The record upstream answers with, as the adoption looks at it. -/
def adoptedRecord : FlowRecord :=
  (FlowRecord.fromRequest ownRequest).lookedAt (besideAsked secondComparison)

/-- The registry, once the request is adopted again. -/
def readoptedFlow : FlowState :=
  { againState.invite.flow with
    flows := (againState.flows.register (besideAsked secondComparison) true "t2"
      adoptedRecord).2 }

/-- The flow is adopted again, with no negotiation. -/
theorem readopted_run : ∃ es seen, (reasonings exampleFormat fun _ => unshown).Run
    ⟨againState, [.read [] (.finding "t2" (.begins "t2"))]⟩ es
    ⟨{ againState with invite := { againState.invite with flow := readoptedFlow } },
      [.read seen (.building "t2" ownRequest none)]⟩ := by
  have hmiss : ReadNext exampleFormat againState.identities againState.invite.flow
      (.finding "t2" (.begins "t2")) againState.invite.flow (.inl (.finding "t2" (.missed "t2"))) :=
    .finds (.miss rfl)
  have htrip : ReadNext exampleFormat againState.identities againState.invite.flow
      (.finding "t2" (.missed "t2")) againState.invite.flow
      (.inl (.finding "t2" (.found (.fromRequest ownRequest)))) :=
    .finds (.trip (.refl _) rfl)
  have hlive : ReadNext exampleFormat againState.identities againState.invite.flow
      (.finding "t2" (.found (.fromRequest ownRequest))) againState.invite.flow
      (.inl (.finding "t2" (.adopting "t2" adoptedRecord))) :=
    .finds (.live rfl rfl)
  have hregister : ReadNext exampleFormat againState.identities againState.invite.flow
      (.finding "t2" (.adopting "t2" adoptedRecord)) readoptedFlow
      (.inl (.building "t2" ownRequest none)) :=
    .found .register rfl
  exact ⟨_, _, .cons (reason_section [] [] (.read hmiss))
    (.cons (reason_section [] [] (.read htrip)) (.cons (reason_section [] [] (.read hlive))
      (.single (reason_section [] [] (.read hregister)))))⟩

/-- **A recorded negotiation is swept away**: it goes with its record, whose comparison ran out,
and the flow is adopted again when its request has moved on. -/
theorem reason_swept_away : ∃ p, (reasonings exampleFormat fun _ => unshown).Reachable p ∧
    Misexplained p := by
  obtain ⟨es, hasked⟩ := anotherAsked_run
  have hagain : (reasonings exampleFormat fun _ => unshown).step ⟨anotherAskedState, []⟩
      (.world (.invite (.upstream (besideAsked secondComparison) []))) ⟨againState, []⟩ :=
    reaches_step _ rfl (besideAsked_invites rfl)
      (besideAsked_goesOn (besideAsked_announces secondComparison))
  have hstart : (reasonings exampleFormat fun _ => unshown).step ⟨againState, []⟩
      (.start (.read [] (.finding "t2" (.begins "t2"))))
      ⟨againState, [.read [] (.finding "t2" (.begins "t2"))]⟩ := Calls.step_start _ rfl
  obtain ⟨es', seen, hreadopted⟩ := readopted_run
  have hrun := hasked.append (.cons hagain (.cons hstart (hreadopted.append
    (.single (reason_section [] [] (.read .buildsNone))))))
  exact ⟨_, ⟨_, _, ⟨beginningState_starting, rfl⟩, hrun⟩,
    misexplained_of_none (List.mem_singleton_self _) rfl rfl rfl⟩

end runs

end MatrixCrypto
