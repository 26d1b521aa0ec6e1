import MatrixCrypto.Lib.Sections
import MatrixCrypto.Verification.Negotiation

/-!
# The reasons a code is refused for

Upstream shows what the two sides announced about codes on a request that is ready, and on
no other.  `read_code` explains a refusal by what it was given with the handles of the flow,
where the request has moved on since.

## Main definitions

* `Announced`, `refusal` — what the two sides announced, and the first reason that holds.
* `ReasonState`, `ReasonCall`, `ReasonNext`, `reasoning` — `read_code` among the calls that
  register and look up flows, and among the syncs.
* `Remembers` — a step forgets no negotiation, and explains nothing by one that is not there.
* `ReasonGiven` — what one step comes to.
* `FlowRecord.Noted` — what a record has of the negotiation was announced.

## Main results

* `whyNoCode_eq_refusal` — the reason given is the first that holds, if the negotiation is
  remembered.
* `Reads.noted`, `LookupNext.noted` — what is read was announced.
-/

namespace MatrixCrypto

open Lib

/-! ### The reasons -/

/-- What the two sides announced on a request. -/
structure Announced where
  ours : List VerificationMethod
  theirs : List VerificationMethod
  deriving DecidableEq, Repr

/-- What it says about codes. -/
def Announced.negotiation (a : Announced) : CodeNegotiation :=
  ⟨a.ours.contains .qrCodeShowV1, a.theirs.contains .qrCodeScanV1⟩

/-- Not agreed to yet by one side or the other, or over. -/
def VerificationRequestState.notUnderWay : VerificationRequestState → Bool
  | created | requested _ | done | cancelled => true
  | ready _ _ | transitioned _ => false

/-- The reasons, in their order, each beside whether it holds: `known` says whether the
identity of the other user is stored, `complete` whether this account's private keys are. -/
def reasons (u : Upstream) (known complete : Bool) (r : VerificationRequest) (a : Announced) :
    List (Bool × CodeError) :=
  let ours := r.otherUser == u.userId
  [((u.requestState r).notUnderWay, .machine .wrongStage),
    (!a.ours.contains .qrCodeShowV1, .codeNotOffered),
    (!a.theirs.contains .qrCodeScanV1, .peerCannotScan),
    (!known, if ours then .machine .identityNotKnown else .peerIdentityNotKnown),
    (!ours && !complete, .machine .privateKeysNotHeld)]

/-- The first that holds. -/
def firstReason : List (Bool × CodeError) → CodeError
  | [] => .machine .wrongStage
  | (holds, e) :: rest => if holds then e else firstReason rest

/-- The real reason a code is refused for. -/
def refusal (u : Upstream) (known complete : Bool) (r : VerificationRequest) (a : Announced) :
    CodeError := firstReason (reasons u known complete r a)

/-- The second half of the call gives the rest of the reasons, in their order. -/
theorem whyAgreed_eq {u : Upstream} {ids : Identities} {r : VerificationRequest} {known : Bool}
    {a : Announced} (hknown : ids.stored r.otherUser = .ok known) :
    whyAgreed u ids r (some a.negotiation) =
      firstReason (reasons u known ids.complete r a).tail := by
  unfold whyAgreed reasons Announced.negotiation
  rw [hknown]
  cases known with
  | false => simp [firstReason]
  | true =>
    by_cases hours : r.otherUser = u.userId
    · simp [firstReason, hours]
    · simp [firstReason, hours]

/-- **The reason given is the first that holds**: what is ready shows what was announced, and
what has moved on is remembered. -/
theorem whyNoCode_eq_refusal {u : Upstream} {ids : Identities} {r : VerificationRequest}
    {n : Option CodeNegotiation} {known : Bool} {a : Announced}
    (hknown : ids.stored r.otherUser = .ok known)
    (hready : ∀ ours theirs, u.requestState r = .ready ours theirs → a = ⟨ours, theirs⟩)
    (hmoved : (∃ v, u.requestState r = .transitioned v) → n = some a.negotiation) :
    whyNoCode u ids r n = refusal u known ids.complete r a := by
  have hagreed := whyAgreed_eq (u := u) (a := a) hknown
  unfold whyNoCode refusal
  rw [reasons, firstReason]
  cases hstate : u.requestState r with
  | ready ours theirs =>
    obtain rfl := hready ours theirs hstate
    exact hagreed
  | transitioned v =>
    rw [hmoved ⟨v, hstate⟩]
    exact hagreed
  | created => rfl
  | requested d => rfl
  | done => rfl
  | cancelled => rfl

/-! ### The calls -/

namespace Upstream

/-- What a ready request shows is what was announced on it. -/
def Announces (announced : VerificationRequest → Announced) (u : Upstream) : Prop :=
  ∀ r ours theirs, u.requestState r = .ready ours theirs → announced r = ⟨ours, theirs⟩

/-- Upstream goes on: no request comes back from being over, and none comes to show other
lists than it did. -/
structure GoesOn (announced : VerificationRequest → Announced) (u v : Upstream) : Prop where
  settled : ∀ r, (u.requestState r).isFinal = true → v.requestState r = u.requestState r
  announces : v.Announces announced

/-- The request, if it is ready. -/
def whileReady (u : Upstream) (request : Option VerificationRequest) : List VerificationRequest :=
  request.toList.filter fun r =>
    match u.requestState r with
    | .ready _ _ => true
    | _ => false

end Upstream

/-- What the calls read and write, and what was looked up. -/
structure ReasonState where
  invite : InviteState
  identities : Identities
  /-- The requests that a call was given the handles of while they were ready. -/
  looked : List VerificationRequest

/-- The flows of the registry. -/
abbrev ReasonState.flows (s : ReasonState) : Registry := s.invite.flow.flows

/-- What upstream holds. -/
abbrev ReasonState.upstream (s : ReasonState) : Upstream := s.invite.flow.upstream

/-- A call, between two of its sections. -/
inductive ReasonCall
  | invite (call : InviteCall)
  /-- `read_code`, with what had been looked up when it was given its handles. -/
  | read (seen : List VerificationRequest) (call : ReadCall)

/-- What a call returns. -/
inductive ReasonResult
  | invite (out : Except MachineError Unit)
  | read (out : Except CodeError ScannableCode)

/-- The request a section was given the handles of. -/
def InviteCall.givenOf : InviteCall ⊕ Except MachineError Unit → Option VerificationRequest
  | .inl (.acting _ handles) => handles.request
  | _ => none

def ReadCall.givenOf : ReadCall ⊕ Except CodeError ScannableCode → Option VerificationRequest
  | .inl (.building _ request _) => some request
  | _ => none

/-- While a call finds its flow, what it will have seen grows. -/
def ReadCall.seenBy (seen looked : List VerificationRequest) : ReadCall → List VerificationRequest
  | finding _ _ => looked
  | _ => seen

/-- A section of `read_code` leaves this. -/
def ReasonState.afterReading (s : ReasonState) (flow : FlowState)
    (res : ReadCall ⊕ Except CodeError ScannableCode) : ReasonState :=
  { s with
    invite := { s.invite with flow := flow }
    looked := s.looked ++ s.upstream.whileReady (ReadCall.givenOf res) }

/-- One section of a call. -/
inductive ReasonNext (F : CodeFormat) (announced : VerificationRequest → Announced)
    (s : ReasonState) : ReasonCall → ReasonState → ReasonCall ⊕ ReasonResult → Prop
  | invite {call : InviteCall} {t : InviteState} {res : InviteCall ⊕ Except MachineError Unit}
      (h : InviteNext s.invite call t res) (hup : s.upstream.GoesOn announced t.flow.upstream) :
      ReasonNext F announced s (.invite call)
        { s with
          invite := t
          looked := s.looked ++ s.upstream.whileReady (InviteCall.givenOf res) }
        (Sum.map .invite .invite res)
  | read {seen : List VerificationRequest} {call : ReadCall} {flow : FlowState}
      {res : ReadCall ⊕ Except CodeError ScannableCode}
      (h : ReadNext F s.identities s.invite.flow call flow res) :
      ReasonNext F announced s (.read seen call) (s.afterReading flow res)
        (Sum.map (.read (call.seenBy seen (s.afterReading flow res).looked)) .read res)

/-- The moves of the outside world. -/
inductive ReasonMove
  | invite (move : IdentifierMove)
  /-- What is stored of the identities changes. -/
  | identities (ids : Identities)

inductive ReasonMoves (announced : VerificationRequest → Announced) (s : ReasonState) :
    ReasonMove → ReasonState → Prop
  | invite {move : IdentifierMove} {t : InviteState} (h : InviteMoves s.invite move t)
      (hup : s.upstream.GoesOn announced t.flow.upstream) :
      ReasonMoves announced s (.invite move) { s with invite := t }
  | identities {ids : Identities} :
      ReasonMoves announced s (.identities ids) { s with identities := ids }

/-- The calls that may begin. -/
def ReasonCall.Begins : ReasonCall → Prop
  | invite call => call.Begins
  | read _ (.finding flowId l) => l = .begins flowId
  | _ => False

/-- `read_code` among all the calls that register and look up flows. -/
def reasoning (F : CodeFormat) (announced : VerificationRequest → Announced) :
    Calls ReasonState ReasonCall ReasonResult ReasonMove where
  start := fun _ call => call.Begins
  next := ReasonNext F announced
  world := ReasonMoves announced

/-- What happens in one step. -/
abbrev ReasonEvent := Event ReasonCall ReasonResult ReasonMove

/-- The calls in flight. -/
abbrev ReasonPool := Pool ReasonState ReasonCall

/-- A process at its start. -/
structure ReasonState.Starting (announced : VerificationRequest → Announced) (s : ReasonState) :
    Prop where
  invite : s.invite.Starting
  looked : s.looked = []
  announces : s.upstream.Announces announced

/-- All interleavings, from the start of a process. -/
abbrev reasonings (F : CodeFormat) (announced : VerificationRequest → Announced) :
    TransitionSystem ReasonPool ReasonEvent :=
  (reasoning F announced).system (ReasonState.Starting announced)

/-! ### What a step forgets -/

/-- The call is about to register the record under the id. -/
inductive ReasonCall.Registers : ReasonCall → String → FlowRecord → Prop
  | invite {call : InviteCall} {id : String} {given : FlowRecord} (h : call.Registers id given) :
      Registers (.invite call) id given
  | read (seen : List VerificationRequest) (f id : String) (given : FlowRecord) :
      Registers (.read seen (.finding f (.adopting id given))) id given

/-- The call is about to drop the flow from the registry. -/
inductive ReasonCall.Drops (s : FlowState) : ReasonCall → String → FlowRecord → Prop
  | invite {call : InviteCall} {k : String} {record : FlowRecord} (h : call.Drops s k record) :
      Drops s (.invite call) k record
  | read {seen : List VerificationRequest} {f id k : String} {given record : FlowRecord}
      (hret : record.retained s.upstream s.observed = false) :
      Drops s (.read seen (.finding f (.adopting id given))) k record

/-- No flow is dropped whose negotiation is recorded and whose request is not over; and a call
that explains a refusal, of a request that has moved on, was given its handles after the
look-up that recorded what it is to explain it by. -/
structure Remembers (p : ReasonPool) (e : ReasonEvent) : Prop where
  records : ∀ call res k record, e = .section call res →
    call.Drops p.shared.invite.flow k record → p.shared.flows.get? k = some record →
      record.negotiation.isSome = true → record.requestIsOver p.shared.upstream = true
  handles : ∀ seen r n res, e = .section (.read seen (.explaining r n)) res →
    (∃ v, p.shared.upstream.requestState r = .transitioned v) → r ∈ p.shared.looked → r ∈ seen

/-- What one step comes to. -/
structure ReasonGiven (announced : VerificationRequest → Announced) (p : ReasonPool)
    (e : ReasonEvent) (q : ReasonPool) : Prop where
  /-- A refusal is explained by the first reason that holds, for a request that has moved on
  if some call looked it up while it was ready. -/
  reason : ∀ seen r n res known, e = .section (.read seen (.explaining r n)) res →
    p.shared.identities.stored r.otherUser = .ok known →
      ((∃ v, p.shared.upstream.requestState r = .transitioned v) → r ∈ p.shared.looked) →
        res = .inr (.read (.error
          (refusal p.shared.upstream known p.shared.identities.complete r (announced r))))
  /-- A recorded negotiation stays as it is while the flow stays. -/
  kept : ∀ k record n, p.shared.flows.get? k = some record → record.negotiation = some n →
    (∀ call res, e = .section call res → ¬ call.Drops p.shared.invite.flow k record) →
      ∃ after, q.shared.flows.get? k = some after ∧ after.request = record.request ∧
        after.negotiation = some n
  /-- The registry has every flow that was looked up while it was ready and whose request is
  not over, with what was announced on it. -/
  recorded : ∀ r ∈ p.shared.looked, (p.shared.upstream.requestState r).isFinal = false →
    ∃ record, p.shared.flows.get? r.flowId = some record ∧ record.request = some r ∧
      record.negotiation = some (announced r).negotiation

/-! ### What the records know -/

namespace FlowRecord

/-- The record is of a flow of this id, and what it has of the negotiation was announced. -/
structure Noted (announced : VerificationRequest → Announced) (id : String)
    (record : FlowRecord) : Prop where
  id : ∀ r, record.request = some r → r.flowId = id
  negotiation : ∀ n, record.negotiation = some n →
    ∃ r, record.request = some r ∧ n = (announced r).negotiation

variable {announced : VerificationRequest → Announced} {u : Upstream} {id : String}
  {record after : FlowRecord}

/-- What is read off a request was announced. -/
theorem negotiated_eq_some (hu : u.Announces announced) {n : CodeNegotiation}
    (h : record.negotiated u = some n) :
    ∃ r, record.request = some r ∧ n = (announced r).negotiation := by
  unfold negotiated at h
  cases hr : record.request with
  | none =>
    rw [hr] at h
    cases h
  | some r =>
    refine ⟨r, rfl, ?_⟩
    rw [hr, Option.map_some] at h
    cases hstate : u.requestState r with
    | ready ours theirs =>
      rw [hstate] at h
      rw [hu r ours theirs hstate]
      exact (Option.some.inj h).symm
    | _ =>
      rw [hstate] at h
      cases h

/-- **Reading leaves what was announced.** -/
theorem Reads.noted (h : Reads u record after) (hu : u.Announces announced)
    (hnoted : record.Noted announced id) : after.Noted announced id := by
  constructor
  · intro r hr
    exact hnoted.id r (by rw [← h.request, hr])
  · intro n hn
    rw [h.request]
    rcases h.negotiation with heq | heq
    · rw [heq] at hn
      exact hnoted.negotiation n hn
    · rw [heq, Option.or_eq_some_iff] at hn
      rcases hn with hn | ⟨-, hn⟩
      · exact hnoted.negotiation n hn
      · exact negotiated_eq_some hu hn

theorem noted_of_none (hid : ∀ r, record.request = some r → r.flowId = id)
    (hnone : record.negotiation = none) : record.Noted announced id := by
  refine ⟨hid, ?_⟩
  intro n hn
  rw [hnone] at hn
  cases hn

theorem noted_fromRequest (r : VerificationRequest) :
    (fromRequest r).Noted announced r.flowId := by
  apply noted_of_none
  · intro r' hr'
    rw [← Option.some.inj hr']
  · rfl

theorem noted_fromComparison (c : Sas) (id : String) :
    (fromComparison c).Noted announced id := by
  apply noted_of_none
  · intro r hr
    cases hr
  · rfl

end FlowRecord

/-- What a lookup in flight has in hand. -/
def Lookup.Noted (announced : VerificationRequest → Announced) : Lookup → Prop
  | begins _ | missed _ => True
  | found record => record.negotiation = none
  | adopting id record => record.Noted announced id

/-- A lookup goes on with a record whose negotiation was announced, if it has one. -/
theorem LookupNext.noted {announced : VerificationRequest → Announced} {s t : FlowState}
    {l l' : Lookup} (hl : l.Noted announced) (h : LookupNext s l t (.inl l')) :
    l'.Noted announced := by
  generalize hr : (Sum.inl l' : Lookup ⊕ Except MachineError Handles) = res at h
  cases h with
  | miss _ => exact Sum.inl.inj hr ▸ trivial
  | trip _ hfind =>
    obtain rfl := Sum.inl.inj hr
    rcases findFlow_eq_some hfind with ⟨_, _, r, _, rfl⟩ | ⟨_, _, c, _, rfl⟩
    · rfl
    · rfl
  | @live record flowId _ hid =>
    obtain rfl := Sum.inl.inj hr
    have hnone : record.negotiation = none := hl
    apply FlowRecord.noted_of_none
    · intro r hrequest
      unfold FlowRecord.upstreamFlowId at hid
      rw [hrequest] at hid
      exact Option.some.inj hid
    · rw [FlowRecord.negotiation_lookedAt, hnone]
  | _ => cases hr

end MatrixCrypto
