import MatrixCrypto.Lib.Sections
import MatrixCrypto.Verification.BeginOnce

/-!
# Both sides start the comparison

One `begin_comparison` of this side, the peer's own start of the same flow, and
any number of calls that look the flow up, in any order of their sections.
Upstream lets one of the two comparisons survive and has the request carry it.

## Main definitions

* `BothState`, `BothMoves`, `startingBoth` — the begin, the peer's start and the
  lookups over one flow.
* `AnswersSurvivor` — the registry answers with the comparison that survived.
* `Undisturbed` — where the peer's start finds the flow.

## Main results

* `sound_stable`, `doomed_stable` — what holds while no start disturbs the flow,
  and what holds once one did.
* `answersSurvivor_iff` — **the registry answers with the survivor exactly when
  the peer's start comes before this side is past its stage check, or when this
  side's own start survives.**
* `answers_loser` — a run in which it does neither.
-/

namespace MatrixCrypto

open Lib

/-- This side's `begin_comparison`. -/
inductive OwnBegin
  | notBegun
  | inFlight (c : BeginCall)
  | returned (out : Except MachineError Unit)

/-- The begin after one of its sections. -/
def OwnBegin.after : BeginCall ⊕ Except MachineError Unit → OwnBegin
  | .inl c => inFlight c
  | .inr out => returned out

/-- The flow, with this side's begin and the comparison the peer started. -/
structure BothState where
  flow : FlowState
  own : OwnBegin
  peer : Option Sas

/-- What happens to the flow other than a lookup of it. -/
inductive BothMove
  | begins
  | proceeds (c : BeginCall) (res : BeginCall ⊕ Except MachineError Unit)
  | peerStarts (theirs : Sas)
  /-- A comparison goes on, for a message of either side. -/
  | advances (c : Sas) (state : SasState)

/-- The moves.  The peer starts a comparison once, and one that is new. -/
inductive BothMoves (flowId : String) (r : VerificationRequest) (s : BothState) :
    BothMove → BothState → Prop
  | begins (h : s.own = .notBegun) :
      BothMoves flowId r s .begins { s with own := .inFlight (.finding flowId (.begins flowId)) }
  | proceeds {c : BeginCall} {res : BeginCall ⊕ Except MachineError Unit} {flow : FlowState}
      (hown : s.own = .inFlight c) (h : BeginNext s.flow c flow res) :
      BothMoves flowId r s (.proceeds c res) { s with flow := flow, own := .after res }
  | peerStarts {theirs : Sas} (hpeer : s.peer = none) (hfresh : s.flow.upstream.Fresh theirs)
      (hflow : theirs.flowId = r.flowId ∧ theirs.otherUserId = r.otherUser) :
      BothMoves flowId r s (.peerStarts theirs)
        { s with
          flow := { s.flow with upstream := s.flow.upstream.receiveStart r theirs }
          peer := some theirs }
  | advances {c : Sas} {state : SasState} (h : (s.flow.upstream.sasState c).isFinal = false)
      (hstate : state.isFinal = false) :
      BothMoves flowId r s (.advances c state)
        { s with flow := { s.flow with upstream := s.flow.upstream.setSas c state } }

/-- What happens in one step. -/
abbrev BothEvent := Event Lookup (Except MachineError Handles) BothMove

/-- All interleavings with lookups of the flow. -/
def startingBoth (flowId : String) (r : VerificationRequest) :
    Calls BothState Lookup (Except MachineError Handles) BothMove where
  start := fun _ l => l = .begins flowId
  next := fun s l t res => ∃ flow, LookupNext s.flow l flow res ∧ t = { s with flow := flow }
  world := BothMoves flowId r

/-- The system of all interleavings, from any state. -/
abbrev bothStarts (flowId : String) (r : VerificationRequest) :
    TransitionSystem (Pool BothState Lookup) BothEvent :=
  (startingBoth flowId r).system fun _ => True

/-- **The registry answers with the survivor**: the comparison the request
carries, which is not cancelled. -/
def AnswersSurvivor (flowId : String) (r : VerificationRequest) (s : FlowState) : Prop :=
  ∃ c, s.upstream.Carries r c ∧ s.upstream.sasState c ≠ .cancelled ∧
    ∃ handles, (s.flows.cached s.upstream flowId).1 = some handles ∧ handles.comparison = some c

/-- The peer's start finds a request that is ready, with no begin of this side
past its stage check, or one that carries a comparison of this side that
survives it. -/
def Undisturbed (r : VerificationRequest) (p : Pool BothState Lookup) (e : BothEvent) : Prop :=
  ∀ theirs, e = .world (.peerStarts theirs) →
    ((∃ ours theirs, p.shared.flow.upstream.requestState r = .ready ours theirs) ∧
        ∀ id request, p.shared.own ≠ .inFlight (.starting id request)) ∨
      (∃ ours, p.shared.flow.upstream.Carries r ours) ∧
        p.shared.flow.upstream.ourStartSurvives theirs = true

/-! ### What holds while nothing disturbs the flow -/

namespace OwnBegin

/-- What the begin holds of the flow; a request it is about to start is ready. -/
def Of (u : Upstream) (flowId : String) (r : VerificationRequest) : OwnBegin → Prop
  | inFlight c => c.Of u flowId r ∧
      ∀ id request, c = .starting id request → ∃ ours theirs, u.requestState r = .ready ours theirs
  | _ => True

/-- The begin has found its flow. -/
def hasFound : OwnBegin → Bool
  | notBegun | inFlight (.finding _ _) | returned (.error .store) => false
  | _ => true

/-- The begin has remembered the comparison it started. -/
def hasRemembered : OwnBegin → Bool
  | inFlight (.queueing _) | returned (.ok ()) => true
  | _ => false

end OwnBegin

/-- The begin is about to remember the comparison, or the record holds it. -/
def BothState.Remembers (flowId : String) (c : Sas) (s : BothState) : Prop :=
  (∃ out, s.own = .inFlight (.remembering flowId c out)) ∨ s.own.hasRemembered = true ∧
    ∃ record, s.flow.flows.get? flowId = some record ∧ record.comparison = some c

/-- Nothing disturbed the flow. -/
structure BothState.Sound (flowId : String) (r : VerificationRequest) (s : BothState) : Prop where
  held : s.flow.HeldAsCarried flowId r
  own : s.own.Of s.flow.upstream flowId r
  registered : s.own.hasFound = true → ∃ record, s.flow.flows.get? flowId = some record
  crossed : s.peer.isSome = true → ∃ c, s.flow.upstream.Carries r c
  /-- A comparison that is started now lives. -/
  alone : (∃ ours theirs, s.flow.upstream.requestState r = .ready ours theirs) →
    s.flow.upstream.rivals r.otherUser = []
  /-- Until the peer starts, what the request carries this side started. -/
  started : s.peer = none → ∀ c, s.flow.upstream.Carries r c → s.Remembers flowId c

theorem Upstream.Carries.not_ready {u : Upstream} {r : VerificationRequest} {c : Sas}
    (hc : u.Carries r c) {ours theirs : List VerificationMethod} :
    u.requestState r ≠ .ready ours theirs := by
  rw [show u.requestState r = .transitioned (.sas c) from hc]
  simp

theorem Upstream.Carries.unique {u : Upstream} {r : VerificationRequest} {c c' : Sas}
    (hc : u.Carries r c) (hc' : u.Carries r c') : c = c' := by
  have heq : VerificationRequestState.transitioned (.sas c) = .transitioned (.sas c') :=
    Eq.trans (Eq.symm hc) hc'
  cases heq
  rfl

namespace BothState.Sound

variable {flowId : String} {r : VerificationRequest} {s : BothState}

/-- A ready flow, before either side starts. -/
theorem of_atReady (h : AtReady s.flow flowId r) (hrivals : s.flow.upstream.rivals r.otherUser = [])
    (hown : s.own = .notBegun) (hpeer : s.peer = none) : s.Sound flowId r := by
  obtain ⟨⟨ours, theirs, hready⟩, hheld⟩ := h.held (s.flow.upstream.Carries r)
  refine ⟨hheld, ?_, ?_, ?_, fun _ => hrivals, fun _ c hc => absurd hready hc.not_ready⟩
  · rw [hown]
    trivial
  · intro hfound
    rw [hown] at hfound
    cases hfound
  · intro hsome
    rw [hpeer] at hsome
    cases hsome

/-- A lookup of the flow. -/
theorem looks (hs : s.Sound flowId r) {l : Lookup} {flow : FlowState}
    {res : Lookup ⊕ Except MachineError Handles}
    (hl : l.Of s.flow.upstream flowId r (s.flow.upstream.Carries r))
    (h : LookupNext s.flow l flow res) :
    Sound flowId r { s with flow := flow } ∧ ∀ l', res = .inl l' →
      l'.Of flow.upstream flowId r (flow.upstream.Carries r) := by
  have hkept : ∀ record, s.flow.flows.get? flowId = some record →
      ∃ after, flow.flows.get? flowId = some after ∧
        ∀ c, record.comparison = some c → after.comparison = some c := by
    intro record hget
    obtain ⟨after, hafter, -, hsame⟩ := h.registered hs.held.going hget (hs.held.record record hget)
    exact ⟨after, hafter, hsame⟩
  obtain ⟨hheld, hof, -, -⟩ := h.held hs.held hl
  have hframe := h.frame
  have hup : flow.upstream = s.flow.upstream := by rw [hframe]
  refine ⟨⟨?_, ?_, fun hfound => ?_, fun hpeer => ?_, ?_, fun hpeer c hc => ?_⟩,
    fun l' hl' => ?_⟩
  · show flow.Held flowId r (flow.upstream.Carries r)
    rw [hup]
    exact hheld
  · show s.own.Of flow.upstream flowId r
    rw [hup]
    exact hs.own
  · obtain ⟨record, hget⟩ := hs.registered hfound
    obtain ⟨after, hafter, -⟩ := hkept record hget
    exact ⟨after, hafter⟩
  · show ∃ c, flow.upstream.Carries r c
    rw [hup]
    exact hs.crossed hpeer
  · show (∃ ours theirs, flow.upstream.requestState r = .ready ours theirs) →
      flow.upstream.rivals r.otherUser = []
    rw [hup]
    exact hs.alone
  · have hc : flow.upstream.Carries r c := hc
    rw [hup] at hc
    rcases hs.started hpeer c hc with hinflight | ⟨hrem, record, hget, hcomp⟩
    · exact Or.inl hinflight
    · obtain ⟨after, hafter, hsame⟩ := hkept record hget
      exact Or.inr ⟨hrem, after, hafter, hsame c hcomp⟩
  · rw [hup]
    exact hof l' hl'

/-- A begin that has found its flow has it registered, section after section. -/
theorem proceeds_registered (hs : s.Sound flowId r) {c : BeginCall} {flow : FlowState}
    {res : BeginCall ⊕ Except MachineError Unit} (hown : s.own = .inFlight c)
    (hc : c.Of s.flow.upstream flowId r) (h : BeginNext s.flow c flow res)
    (hfound : (OwnBegin.after res).hasFound = true) :
    ∃ record, flow.flows.get? flowId = some record := by
  have hbefore := hs.registered
  rw [hown] at hbefore
  cases h with
  | finds h => cases hfound
  | @findsNone id l t e h =>
    -- only the store fails a lookup of a flow that is held
    obtain ⟨-, -, -, hstore⟩ := h.held hs.held hc.2
    rw [hstore e rfl] at hfound
    cases hfound
  | @found id l t handles h =>
    obtain ⟨-, -, hfind, -⟩ := h.held hs.held hc.2
    exact (hfind handles rfl).2
  | @remembers id comparison out =>
    obtain ⟨rfl, -⟩ := hc
    obtain ⟨record, hget⟩ := hbefore rfl
    exact ⟨record.setComparison comparison, Registry.get?_rememberComparison_self hget _⟩
  | startFails => cases hfound
  | _ => exact hbefore rfl

/-- Until the peer starts, what the request carries is on its way to the record, or in it. -/
theorem proceeds_started (hs : s.Sound flowId r) {c : BeginCall} {flow : FlowState}
    {res : BeginCall ⊕ Except MachineError Unit} (hown : s.own = .inFlight c)
    (hc : c.Of s.flow.upstream flowId r) (h : BeginNext s.flow c flow res) (hpeer : s.peer = none)
    {carried : Sas} (hcarries : flow.upstream.Carries r carried) :
    BothState.Remembers flowId carried { s with flow := flow, own := .after res } := by
  have hbefore : ∀ c, s.flow.upstream.Carries r c → s.Remembers flowId c := hs.started hpeer
  unfold Remembers at hbefore
  rw [hown] at hbefore
  cases h with
  | @starts id request comparison outgoing u hfresh hflow hstart =>
    -- the comparison this section starts is the one it is about to remember
    obtain ⟨rfl, rfl⟩ := hc
    obtain rfl := hcarries.unique (Upstream.startSas_eq_some hstart).1
    exact Or.inl ⟨outgoing, rfl⟩
  | @remembers id comparison outgoing =>
    obtain ⟨rfl, hcomparison⟩ := hc
    obtain rfl := hcomparison.unique hcarries
    have hregistered := hs.registered
    rw [hown] at hregistered
    obtain ⟨record, hget⟩ := hregistered rfl
    exact Or.inr ⟨rfl, record.setComparison comparison,
      Registry.get?_rememberComparison_self hget _, rfl⟩
  | @queues outgoing =>
    rcases hbefore carried hcarries with ⟨out, hout⟩ | ⟨-, hrecord⟩
    · cases hout
    · exact Or.inr ⟨rfl, hrecord⟩
  | @finds id l l' t h | @findsNone id l t e h | @found id l t handles h =>
    -- before its start nothing of this side is carried
    have hcarries : flow.upstream.Carries r carried := hcarries
    rw [h.frame] at hcarries
    rcases hbefore carried hcarries with ⟨out, hout⟩ | ⟨hrem, -⟩
    · cases hout
    · cases hrem
  | _ =>
    rcases hbefore carried hcarries with ⟨out, hout⟩ | ⟨hrem, -⟩
    · cases hout
    · cases hrem

/-- One section of the begin of a flow nothing disturbed. -/
theorem proceeds (hs : s.Sound flowId r) {c : BeginCall} {flow : FlowState}
    {res : BeginCall ⊕ Except MachineError Unit} (hown : s.own = .inFlight c)
    (h : BeginNext s.flow c flow res) :
    Sound flowId r { s with flow := flow, own := .after res } ∧
      ∀ m : BeginCall, m.Of s.flow.upstream flowId r → m.Of flow.upstream flowId r := by
  obtain ⟨hc, hstarting⟩ : c.Of s.flow.upstream flowId r ∧ ∀ id request,
      c = .starting id request → ∃ ours theirs,
        s.flow.upstream.requestState r = .ready ours theirs := by
    have hof := hs.own
    rwa [hown] at hof
  have halone : ∀ id request comparison u, c = .starting id request →
      s.flow.upstream.startSas request comparison = some u → s.flow.upstream.Alone request := by
    intro id request comparison u heq _
    have hready := hstarting id request heq
    rw [heq] at hc
    rw [hc.2]
    exact ⟨hready, hs.alone hready⟩
  obtain ⟨hheld, hof, hothers⟩ := BeginNext.held halone hs.held hc h
  refine ⟨⟨hheld, ?_, hs.proceeds_registered hown hc h, ?_, ?_, fun hpeer carried =>
    hs.proceeds_started hown hc h hpeer⟩, hothers⟩
  · -- the stage check passes a request that is ready
    cases res with
    | inr out => trivial
    | inl c' =>
      refine ⟨hof c' rfl, fun id request heq => ?_⟩
      subst heq
      cases h with
      | ready hst hr => exact (FlowRecord.of_stageOf_ready hc.2.request hst).1
  · -- the peer has started: the begin takes the machine no more
    intro hpeer
    obtain ⟨carried, hcarries⟩ := hs.crossed hpeer
    rcases h.upstream with heq | ⟨id, request, comparison, hstart, -⟩
    · exact ⟨carried, by rw [← heq] at hcarries; exact hcarries⟩
    · obtain ⟨ours, theirs, hr⟩ := hstarting id request hstart
      exact absurd hr hcarries.not_ready
  · -- a request that is ready still was ready before, and nothing was started
    rintro ⟨ours, theirs, hr⟩
    rcases h.upstream with heq | ⟨id, request, comparison, hstart, -, hstarts⟩
    · have hr : flow.upstream.requestState r = .ready ours theirs := hr
      show flow.upstream.rivals r.otherUser = []
      rw [heq] at hr ⊢
      exact hs.alone ⟨ours, theirs, hr⟩
    · rw [hstart] at hc
      rw [hc.2] at hstarts
      have hcarries : flow.upstream.Carries r comparison := (Upstream.startSas_eq_some hstarts).1
      exact absurd hr hcarries.not_ready

/-- The peer's start, where it disturbs nothing. -/
theorem peerStarts (hs : s.Sound flowId r) {theirs : Sas}
    (htheirs : theirs.otherUserId = r.otherUser)
    (hG : ((∃ ours theirs, s.flow.upstream.requestState r = .ready ours theirs) ∧
        ∀ id request, s.own ≠ .inFlight (.starting id request)) ∨
      (∃ ours, s.flow.upstream.Carries r ours) ∧
        s.flow.upstream.ourStartSurvives theirs = true) :
    Sound flowId r { s with
      flow := { s.flow with upstream := s.flow.upstream.receiveStart r theirs }
      peer := some theirs } ∧
      ∀ m : BeginCall, m.Of s.flow.upstream flowId r →
        m.Of (s.flow.upstream.receiveStart r theirs) flowId r := by
  rcases hG with ⟨⟨ours, methods, hready⟩, hnot⟩ | ⟨⟨ours, hcarries⟩, hsurvives⟩
  · -- theirs is the only comparison there is
    have hreceive : s.flow.upstream.receiveStart r theirs =
        ((s.flow.upstream.setSas theirs .started).route theirs.otherUserId theirs.flowId
          (.sas theirs)).becomes r (.sas theirs) := by
      have hrivals := hs.alone ⟨ours, methods, hready⟩
      rw [← htheirs] at hrivals
      unfold Upstream.receiveStart
      rw [hready, ← Upstream.insertSas_of_no_rivals hrivals]
    have hlive : ((s.flow.upstream.receiveStart r theirs).sasState theirs).isFinal = false := by
      rw [hreceive, Upstream.becomes_sasState, Upstream.route_sasState, Upstream.setSas_sasState]
      rfl
    have hbecomes : (s.flow.upstream.receiveStart r theirs).Carries r theirs := by
      rw [hreceive]
      exact Upstream.becomes_requestState ..
    obtain ⟨hheld, hcarries, hof⟩ := hs.held.becomes hready hbecomes hlive (by rw [hreceive]; rfl)
      (by rw [hreceive]; rfl)
    refine ⟨⟨hheld, ?_, hs.registered, fun _ => ⟨theirs, hcarries⟩, fun ⟨_, _, hr⟩ =>
      absurd hr hcarries.not_ready, fun h => by cases h⟩, hof⟩
    have hown := hs.own
    show s.own.Of _ flowId r
    cases hc : s.own with
    | notBegun => trivial
    | returned out => trivial
    | inFlight c =>
      rw [hc] at hown
      exact ⟨hof c hown.1, fun id request heq => absurd (heq ▸ hc) (hnot id request)⟩
  · -- ours survives, and nothing moves
    have hreceive : s.flow.upstream.receiveStart r theirs = s.flow.upstream := by
      unfold Upstream.receiveStart
      rw [show s.flow.upstream.requestState r = .transitioned (.sas ours) from hcarries]
      exact if_pos hsurvives
    rw [hreceive]
    exact ⟨⟨hs.held, hs.own, hs.registered, fun _ => ⟨ours, hcarries⟩, hs.alone,
      fun h => by cases h⟩, fun _ hm => hm⟩

/-- A comparison goes on. -/
theorem advances (hs : s.Sound flowId r) (c : Sas) {state : SasState}
    (hc : (s.flow.upstream.sasState c).isFinal = false) (hstate : state.isFinal = false) :
    Sound flowId r { s with
      flow := { s.flow with upstream := s.flow.upstream.setSas c state } } ∧
      ∀ m : BeginCall, m.Of s.flow.upstream flowId r →
        m.Of (s.flow.upstream.setSas c state) flowId r := by
  obtain ⟨hheld, hof⟩ := hs.held.advances c hstate
  refine ⟨⟨hheld, ?_, hs.registered, hs.crossed, fun hready =>
    Upstream.rivals_setSas (hs.alone hready) hc state, hs.started⟩, hof⟩
  have hown := hs.own
  show s.own.Of _ flowId r
  cases hc : s.own with
  | notBegun => trivial
  | returned out => trivial
  | inFlight begin =>
    rw [hc] at hown
    exact ⟨hof begin hown.1, hown.2⟩

/-- The registry answers with the survivor, once both sides have started. -/
theorem answersSurvivor (hs : s.Sound flowId r) (hpeer : s.peer.isSome = true)
    (hfound : s.own.hasFound = true) : AnswersSurvivor flowId r s.flow := by
  obtain ⟨c, hc⟩ := hs.crossed hpeer
  obtain ⟨record, hget⟩ := hs.registered hfound
  have hknows := hs.held.record record hget
  have hlive : (s.flow.upstream.sasState c).isFinal = false := by
    rcases hs.held.going with ⟨ours, theirs, hready⟩ | ⟨c', -, hc', hfin⟩
    · exact absurd hready hc.not_ready
    · rw [hc.unique hc', hfin]
  refine ⟨c, hc, fun hcancelled => ?_, (record.filled s.flow.upstream).handles, ?_, ?_⟩
  · rw [hcancelled] at hlive
    cases hlive
  · rw [Registry.cached_of_some hget]
  · -- what the record answers with is what the request carries
    have hanswers : (record.comparisonOf s.flow.upstream).isSome = true := by
      rw [FlowRecord.comparisonOf_eq, FlowRecord.became_of_transitioned hknows.request hc]
      cases record.comparison <;> rfl
    obtain ⟨c', hc'⟩ := Option.isSome_iff_exists.mp hanswers
    have hcarried := (hknows.comparisonOf hs.held.going c' hc').1
    rw [hc.unique hcarried]
    exact hc'

end BothState.Sound

/-- **What holds while no start disturbs the flow.** -/
theorem sound_stable (flowId : String) (r : VerificationRequest) :
    (startingBoth flowId r).Stable (Undisturbed r) (BothState.Sound flowId r)
      (fun s l => l.Of s.flow.upstream flowId r (s.flow.upstream.Carries r)) where
  start := by
    rintro p l - - rfl
    exact rfl
  own := by
    rintro p l t res - - hs hl ⟨flow, hnext, rfl⟩
    exact hs.looks hl hnext
  other := by
    rintro p l t res m - - - - hm ⟨flow, hnext, rfl⟩
    show m.Of flow.upstream flowId r (flow.upstream.Carries r)
    rw [hnext.frame]
    exact hm
  world := by
    intro p e t hG hs hmove
    -- a lookup is what a begin in its first section is doing
    suffices h : t.Sound flowId r ∧ ∀ m : BeginCall,
        m.Of p.shared.flow.upstream flowId r → m.Of t.flow.upstream flowId r from
      ⟨h.1, fun l hl => (h.2 (.finding flowId l) ⟨rfl, hl⟩).2⟩
    cases hmove with
    | begins h =>
      refine ⟨⟨hs.held, ⟨⟨rfl, rfl⟩, by simp⟩, (fun h => by cases h), hs.crossed, hs.alone, ?_⟩,
        fun _ hm => hm⟩
      intro hpeer c hc
      rcases hs.started hpeer c hc with ⟨out, hout⟩ | ⟨hrem, -⟩
      · rw [h] at hout
        cases hout
      · rw [h] at hrem
        cases hrem
    | proceeds hown h => exact hs.proceeds hown h
    | peerStarts hpeer hfresh hflow => exact hs.peerStarts hflow.2 (hG _ rfl)
    | @advances c state h hstate => exact hs.advances c h hstate

/-! ### What holds once a start disturbed it -/

/-- The registry is left with the comparison of this side that did not survive. -/
structure BothState.Stale (flowId : String) (r : VerificationRequest) (ours theirs : Sas)
    (s : BothState) : Prop where
  ne : ours ≠ theirs
  carries : s.flow.upstream.Carries r theirs
  going : s.flow.upstream.Going r fun c => c = ours ∨ c = theirs
  open_ours : (s.flow.upstream.sasState ours).isFinal = false
  own : (∃ out, s.own = .inFlight (.remembering flowId ours out)) ∨ s.own.hasRemembered = true
  record : ∃ record, s.flow.flows.get? flowId = some record ∧
    record.Knows s.flow.upstream r (fun c => c = ours ∨ c = theirs) ∧
      (s.own.hasRemembered = true → record.comparison = some ours)

/-- A start disturbed the flow: a begin past its stage check is about to start a
second comparison, the comparison was cancelled, the store failed, or the
registry is left with the loser. -/
inductive BothState.Doomed (flowId : String) (r : VerificationRequest) (s : BothState) : Prop
  | crossing (id : String) (c : Sas) (hown : s.own = .inFlight (.starting id r))
      (hc : s.flow.upstream.Carries r c)
  | destroyed (c : Sas) (hc : s.flow.upstream.Carries r c)
      (h : s.flow.upstream.sasState c = .cancelled)
  | failed (h : s.own = .returned (.error .store))
  | stale (ours theirs : Sas) (h : s.Stale flowId r ours theirs)

namespace BothState

variable {flowId : String} {r : VerificationRequest} {s : BothState}

theorem Stale.looks {ours theirs : Sas} (hs : s.Stale flowId r ours theirs) {l : Lookup}
    {flow : FlowState} {res : Lookup ⊕ Except MachineError Handles}
    (h : LookupNext s.flow l flow res) : Stale flowId r ours theirs { s with flow := flow } := by
  obtain ⟨record, hget, hknows, hrem⟩ := hs.record
  obtain ⟨after, hafter, hknows', hsame⟩ := h.registered hs.going hget hknows
  have hup : flow.upstream = s.flow.upstream := h.upstream
  refine ⟨hs.ne, ?_, ?_, ?_, hs.own, after, hafter, ?_, fun h => hsame ours (hrem h)⟩
  · show flow.upstream.Carries r theirs
    rw [hup]
    exact hs.carries
  · show flow.upstream.Going r _
    rw [hup]
    exact hs.going
  · show (flow.upstream.sasState ours).isFinal = false
    rw [hup]
    exact hs.open_ours
  · show after.Knows flow.upstream r _
    rw [hup]
    exact hknows'

/-- The begin that is left remembers the loser, and goes on to return. -/
theorem Stale.proceeds {ours theirs : Sas} (hs : s.Stale flowId r ours theirs) {c : BeginCall}
    {flow : FlowState} {res : BeginCall ⊕ Except MachineError Unit} (hown : s.own = .inFlight c)
    (h : BeginNext s.flow c flow res) :
    Stale flowId r ours theirs { s with flow := flow, own := .after res } := by
  obtain ⟨record, hget, hknows, hrem⟩ := hs.record
  have hphase := hs.own
  rw [hown] at hphase hrem
  cases h with
  | @remembers id comparison outgoing =>
    obtain ⟨out, hout⟩ | hqueued := hphase
    case inr => cases hqueued
    cases hout
    refine ⟨hs.ne, hs.carries, hs.going, hs.open_ours, Or.inr rfl, record.setComparison ours,
      Registry.get?_rememberComparison_self hget ours, ⟨hknows.request, hknows.code, ?_⟩,
      fun _ => rfl⟩
    intro c hc
    obtain rfl : ours = c := Option.some.inj hc
    exact ⟨Or.inl rfl, hs.open_ours⟩
  | @queues outgoing =>
    exact ⟨hs.ne, hs.carries, hs.going, hs.open_ours, Or.inr rfl, record, hget, hknows,
      fun _ => hrem rfl⟩
  | _ =>
    rcases hphase with ⟨out, hout⟩ | hqueued
    · cases hout
    · cases hqueued

theorem Stale.advances {ours theirs : Sas} (hs : s.Stale flowId r ours theirs) (c : Sas)
    {state : SasState} (hstate : state.isFinal = false) : Stale flowId r ours theirs { s with
      flow := { s.flow with upstream := s.flow.upstream.setSas c state } } := by
  obtain ⟨record, hget, hknows, hrem⟩ := hs.record
  refine ⟨hs.ne, hs.carries, hs.going.advances hstate, ?_, hs.own, record, hget,
    hknows.advances hstate, hrem⟩
  show ((s.flow.upstream.setSas c state).sasState ours).isFinal = false
  by_cases heq : ours = c
  · rw [heq, Upstream.setSas_sasState, hstate]
  · rw [Upstream.setSas_sasState_of_ne _ _ heq]
    exact hs.open_ours

/-- A lookup repairs nothing. -/
theorem Doomed.looks (hs : s.Doomed flowId r) {l : Lookup} {flow : FlowState}
    {res : Lookup ⊕ Except MachineError Handles} (h : LookupNext s.flow l flow res) :
    Doomed flowId r { s with flow := flow } := by
  have hup : flow.upstream = s.flow.upstream := h.upstream
  cases hs with
  | crossing id c hown hc =>
    refine .crossing id c hown ?_
    show flow.upstream.Carries r c
    rw [hup]
    exact hc
  | destroyed c hc hcancelled =>
    refine .destroyed c ?_ ?_
    · show flow.upstream.Carries r c
      rw [hup]
      exact hc
    · show flow.upstream.sasState c = .cancelled
      rw [hup]
      exact hcancelled
  | failed hfail => exact .failed hfail
  | stale ours theirs hstale => exact .stale ours theirs (hstale.looks h)

/-- Nor does the begin: one that starts a second comparison destroys both. -/
theorem Doomed.proceeds (hs : s.Doomed flowId r) {c : BeginCall} {flow : FlowState}
    {res : BeginCall ⊕ Except MachineError Unit} (hown : s.own = .inFlight c)
    (h : BeginNext s.flow c flow res) :
    Doomed flowId r { s with flow := flow, own := .after res } := by
  cases hs with
  | crossing id carried hstarting hc =>
    rw [hown] at hstarting
    cases hstarting
    -- the request carries the peer's comparison, so a second start cancels both
    cases h with
    | @starts _ _ comparison outgoing u hfresh hflow hstart =>
      obtain ⟨hcarries, ⟨-, ⟨ours, theirs, hready⟩, -⟩ | ⟨hcancelled, -⟩⟩ :=
        Upstream.startSas_eq_some hstart
      · exact absurd hready hc.not_ready
      · exact .destroyed comparison hcarries hcancelled
    | startsNone hstart =>
      rw [Upstream.startSas, show s.flow.upstream.requestState r = .transitioned (.sas carried)
        from hc] at hstart
      cases hstart
    | startFails => exact .failed rfl
  | destroyed carried hc hcancelled =>
    rcases h.upstream with heq | ⟨id, request, comparison, rfl, hfresh, hstart⟩
    · refine .destroyed carried ?_ ?_
      · show flow.upstream.Carries r carried
        rw [heq]
        exact hc
      · show flow.upstream.sasState carried = .cancelled
        rw [heq]
        exact hcancelled
    · obtain ⟨c', hc', hcancelled'⟩ := Upstream.startSas_cancelled hc hcancelled hfresh hstart
      exact .destroyed c' hc' hcancelled'
  | failed hfail =>
    rw [hown] at hfail
    cases hfail
  | stale ours theirs hstale => exact .stale ours theirs (hstale.proceeds hown h)

/-- Nor does a comparison that goes on: one that is cancelled does not. -/
theorem Doomed.advances (hs : s.Doomed flowId r) {c : Sas} {state : SasState}
    (hc : (s.flow.upstream.sasState c).isFinal = false) (hstate : state.isFinal = false) :
    Doomed flowId r { s with
      flow := { s.flow with upstream := s.flow.upstream.setSas c state } } := by
  cases hs with
  | crossing id carried hown hcarries => exact .crossing id carried hown hcarries
  | destroyed carried hcarries hcancelled =>
    refine .destroyed carried hcarries ?_
    have hne : carried ≠ c := by
      intro heq
      rw [← heq, hcancelled] at hc
      cases hc
    show (s.flow.upstream.setSas c state).sasState carried = .cancelled
    rw [Upstream.setSas_sasState_of_ne _ _ hne, hcancelled]
  | failed hfail => exact .failed hfail
  | stale ours theirs hstale => exact .stale ours theirs (hstale.advances c hstate)

/-- The peer's start, where it disturbs a flow that nothing disturbed before. -/
theorem Sound.disturbed (hs : s.Sound flowId r) {theirs : Sas} (hpeer : s.peer = none)
    (hfresh : s.flow.upstream.Fresh theirs)
    (hstarting : (∃ ours methods, s.flow.upstream.requestState r = .ready ours methods) →
      ∃ id request, s.own = .inFlight (.starting id request))
    (hloses : (∃ ours, s.flow.upstream.Carries r ours) →
      s.flow.upstream.ourStartSurvives theirs = false) :
    Doomed flowId r { s with
      flow := { s.flow with upstream := s.flow.upstream.receiveStart r theirs }
      peer := some theirs } := by
  rcases hs.held.going with ⟨ours, methods, hready⟩ | ⟨ours, hours, -, hfin⟩
  · -- a begin is past its stage check: it will start a second comparison
    obtain ⟨id, request, hown⟩ := hstarting ⟨ours, methods, hready⟩
    have hof := hs.own
    rw [hown] at hof
    obtain ⟨rfl, rfl⟩ := hof.1
    refine .crossing id theirs hown ?_
    show (s.flow.upstream.receiveStart request theirs).requestState request = _
    unfold Upstream.receiveStart
    rw [hready]
    exact Upstream.becomes_requestState ..
  · -- ours did not survive, and it is what the registry is left with
    have hne : ours ≠ theirs := by
      intro heq
      exact hfresh r (heq ▸ hours)
    have hreceive : s.flow.upstream.receiveStart r theirs =
        s.flow.upstream.carryTheirs r theirs := by
      unfold Upstream.receiveStart
      rw [show s.flow.upstream.requestState r = .transitioned (.sas ours) from hours, hloses
        ⟨ours, hours⟩]
      rfl
    have hcarries : (s.flow.upstream.carryTheirs r theirs).Carries r theirs :=
      Upstream.becomes_requestState ..
    have hopen : ((s.flow.upstream.carryTheirs r theirs).sasState ours).isFinal = false := by
      rw [Upstream.carryTheirs, Upstream.becomes_sasState, Upstream.route_sasState,
        Upstream.setSas_sasState_of_ne _ _ hne, hfin]
    have hgoing : (s.flow.upstream.carryTheirs r theirs).Going r
        fun c => c = ours ∨ c = theirs := by
      refine Or.inr ⟨theirs, hcarries, Or.inr rfl, ?_⟩
      rw [Upstream.carryTheirs, Upstream.becomes_sasState, Upstream.route_sasState,
        Upstream.setSas_sasState]
      rfl
    have hknows : ∀ record, s.flow.flows.get? flowId = some record →
        record.Knows (s.flow.upstream.carryTheirs r theirs) r fun c => c = ours ∨ c = theirs := by
      intro record hget
      have hrec := hs.held.record record hget
      refine ⟨hrec.request, hrec.code, fun c hc => ?_⟩
      obtain rfl := hours.unique (hrec.comparison c hc).1
      exact ⟨Or.inl rfl, hopen⟩
    rw [hreceive]
    refine .stale ours theirs ?_
    rcases hs.started hpeer ours hours with ⟨out, hown⟩ | ⟨hrem, record, hget, hcomp⟩
    · obtain ⟨record, hget⟩ := hs.registered (by rw [hown]; rfl)
      refine ⟨hne, hcarries, hgoing, hopen, Or.inl ⟨out, hown⟩, record, hget,
        hknows record hget, fun hrem => ?_⟩
      have hrem : s.own.hasRemembered = true := hrem
      rw [hown] at hrem
      cases hrem
    · exact ⟨hne, hcarries, hgoing, hopen, Or.inr hrem, record, hget, hknows record hget,
        fun _ => hcomp⟩

/-- A flow that was disturbed is not answered with its survivor. -/
theorem Doomed.not_answersSurvivor (hs : s.Doomed flowId r) {out : Except MachineError Unit}
    (hown : s.own = .returned out) (hstore : out ≠ .error .store) :
    ¬ AnswersSurvivor flowId r s.flow := by
  rintro ⟨c, hc, hlive, handles, hcached, hcomp⟩
  cases hs with
  | crossing id carried hstarting _ =>
    rw [hown] at hstarting
    cases hstarting
  | destroyed carried hcarries hcancelled =>
    obtain rfl := hcarries.unique hc
    exact hlive hcancelled
  | failed hfail =>
    rw [hown] at hfail
    cases hfail
    exact hstore rfl
  | stale ours theirs hstale =>
    obtain ⟨record, hget, -, hholds⟩ := hstale.record
    have hrem : s.own.hasRemembered = true := by
      rcases hstale.own with ⟨out', hout⟩ | hrem
      · rw [hown] at hout
        cases hout
      · exact hrem
    rw [Registry.cached_of_some hget] at hcached
    obtain rfl := Option.some.inj hcached
    have hours : record.comparisonOf s.flow.upstream = some ours :=
      FlowRecord.comparisonOf_of_some (hholds hrem)
    have heq : some ours = some c := hours.symm.trans hcomp
    obtain rfl := Option.some.inj heq
    exact hstale.ne (hc.unique hstale.carries)

end BothState

/-- **What holds once a start disturbed the flow.** -/
theorem doomed_stable (flowId : String) (r : VerificationRequest) :
    (startingBoth flowId r).Stable (fun _ _ => True)
      (fun s => s.peer.isSome = true ∧ s.Doomed flowId r) (fun _ _ => True) where
  start := fun _ _ _ _ _ => trivial
  own := by
    rintro p l t res - - hs - ⟨flow, hnext, rfl⟩
    exact ⟨⟨hs.1, hs.2.looks hnext⟩, fun _ _ => trivial⟩
  other := fun _ _ _ _ _ _ _ _ _ _ _ => trivial
  world := by
    intro p e t _ hs hmove
    refine ⟨?_, fun _ _ => trivial⟩
    obtain ⟨hpeer, hdoomed⟩ := hs
    cases hmove with
    | begins h =>
      refine ⟨hpeer, ?_⟩
      cases hdoomed with
      | crossing id c hown _ => rw [h] at hown; cases hown
      | destroyed c hc hcancelled => exact .destroyed c hc hcancelled
      | failed hfail => rw [h] at hfail; cases hfail
      | stale ours theirs hstale =>
        have hown := hstale.own
        rw [h] at hown
        rcases hown with ⟨out, hout⟩ | hrem
        · cases hout
        · cases hrem
    | proceeds hown h => exact ⟨hpeer, hdoomed.proceeds hown h⟩
    | peerStarts hnone hfresh hflow =>
      rw [hnone] at hpeer
      cases hpeer
    | advances h hstate => exact ⟨hpeer, hdoomed.advances h hstate⟩

/-! ### The survivor -/

/-- No start disturbed the flow so far, or one did for good. -/
theorem undisturbed_or_doomed {s₀ : BothState} {flowId : String} {r : VerificationRequest}
    {es : List BothEvent} {q : Pool BothState Lookup} (hs : s₀.Sound flowId r)
    (hrun : (bothStarts flowId r).Run ⟨s₀, []⟩ es q) :
    ((bothStarts flowId r).restrict (Undisturbed r)).Run ⟨s₀, []⟩ es q ∨
      q.shared.peer.isSome = true ∧ q.shared.Doomed flowId r := by
  induction hrun with
  | nil => exact Or.inl (.nil _)
  | @snoc p q es e _ hstep ih =>
    rcases ih with hguarded | hdoomed
    case inr =>
      exact Or.inr ((doomed_stable flowId r).step trivial hstep ⟨hdoomed, fun _ _ => trivial⟩).1
    by_cases hG : Undisturbed r p e
    · exact Or.inl (hguarded.snoc ⟨hG, hstep⟩)
    -- the peer's start disturbs what was sound before it
    have hsound := ((sound_stable flowId r).run hguarded ⟨hs, by simp⟩).1
    unfold Undisturbed at hG
    simp only [not_forall, not_or, not_and] at hG
    obtain ⟨theirs, rfl, hstarting, hloses⟩ := hG
    obtain ⟨hmove, -⟩ := hstep
    generalize q.shared = t at hmove ⊢
    cases hmove with
    | peerStarts hpeer hfresh hflow =>
      refine Or.inr ⟨rfl, hsound.disturbed hpeer hfresh (fun hready => ?_) fun hcarries => ?_⟩
      · have hnot := hstarting hready
        simpa using hnot
      · have hnot := hloses hcarries
        simpa using hnot

/-- **The registry answers with the survivor exactly when no start disturbs the
flow.**  One begin of a ready flow and the peer's own start of it, in any order
of their sections and of any lookups of the flow.  The two are the only verifications with the
peer: beside a third, upstream lets neither survive. -/
theorem answersSurvivor_iff {s₀ : BothState} {flowId : String} {r : VerificationRequest}
    {es : List BothEvent} {q : Pool BothState Lookup} {out : Except MachineError Unit}
    (hready : AtReady s₀.flow flowId r) (halone : s₀.flow.upstream.rivals r.otherUser = [])
    (hown : s₀.own = .notBegun) (hnone : s₀.peer = none)
    (hrun : (bothStarts flowId r).Run ⟨s₀, []⟩ es q) (hpeer : q.shared.peer.isSome = true)
    (hreturned : q.shared.own = .returned out) (hstore : out ≠ .error .store) :
    AnswersSurvivor flowId r q.shared.flow ↔
      ((bothStarts flowId r).restrict (Undisturbed r)).Run ⟨s₀, []⟩ es q := by
  have hsound := BothState.Sound.of_atReady hready halone hown hnone
  constructor
  · intro hanswers
    rcases undisturbed_or_doomed hsound hrun with hguarded | ⟨-, hdoomed⟩
    · exact hguarded
    · exact absurd hanswers (hdoomed.not_answersSurvivor hreturned hstore)
  · intro hguarded
    have hafter := ((sound_stable flowId r).run hguarded ⟨hsound, by simp⟩).1
    refine hafter.answersSurvivor hpeer ?_
    rw [hreturned]
    cases out with
    | ok out => rfl
    | error e => cases e <;> first | rfl | exact absurd rfl hstore

/-! ### One order, and two accounts

This side starts the comparison and returns; then the peer's own start arrives.
Which of the two survives is decided by the accounts. -/

/-- A flow with Bob, ready, on the machine of an account. -/
def readyStateOf (userId : String) : FlowState :=
  { readyState with upstream := { readyUpstream with userId := userId } }

/-- The same, with its comparison started. -/
def startedStateOf (userId : String) : FlowState :=
  { readyStateOf userId with
    upstream := ((readyStateOf userId).upstream.insertSas (oursOf 1) .created).becomes bobsRequest
      (.sas (oursOf 1)) }

/-- The comparison Bob starts. -/
def bobsStart : Sas := oursOf 2

theorem readyStateOf_ready (userId : String) :
    AtReady (readyStateOf userId) "f1" bobsRequest :=
  ⟨rfl, fun _ _ => ⟨readyRecord, rfl, rfl, rfl⟩⟩

/-- The begin runs to its end. -/
theorem begins_run (userId : String) : ∃ es,
    ((bothStarts "f1" bobsRequest).restrict (Undisturbed bobsRequest)).Run
      ⟨⟨readyStateOf userId, .notBegun, none⟩, []⟩ es
      ⟨⟨(startedStateOf userId).finished (oursOf 1) (openingOf "o1"), .returned (.ok ()), none⟩,
        []⟩ := by
  have hmoves : ∀ {s t : BothState} {e : BothMove}, BothMoves "f1" bobsRequest s e t →
      (∀ theirs, e ≠ .peerStarts theirs) →
        ((bothStarts "f1" bobsRequest).restrict (Undisturbed bobsRequest)).step ⟨s, []⟩
          (.world e) ⟨t, []⟩ := by
    intro s t e hmove hne
    refine ⟨fun theirs heq => ?_, hmove, rfl⟩
    cases heq
    exact absurd rfl (hne theirs)
  have hget : (readyStateOf userId).flows.get? "f1" = some readyRecord := rfl
  have hfound : BeginNext (readyStateOf userId) (.finding "f1" (.begins "f1"))
      (readyStateOf userId) (.inl (.checking "f1" readyRecord.handles)) :=
    .found (@LookupNext.hit (readyStateOf userId) "f1" readyRecord hget)
  have hchecked : BeginNext (readyStateOf userId) (.checking "f1" readyRecord.handles)
      (readyStateOf userId) (.inl (.starting "f1" bobsRequest)) := .ready rfl rfl
  have hstarts : BeginNext (readyStateOf userId) (.starting "f1" bobsRequest)
      (startedStateOf userId) (.inl (.remembering "f1" (oursOf 1) (openingOf "o1"))) :=
    .starts (fun _ h => by cases h) ⟨rfl, rfl⟩ rfl
  exact ⟨_, .cons (hmoves (.begins rfl) (by simp))
    (.cons (hmoves (.proceeds rfl hfound) (by simp))
      (.cons (hmoves (.proceeds rfl hchecked) (by simp))
        (.cons (hmoves (.proceeds rfl hstarts) (by simp))
          (.cons (hmoves (.proceeds rfl .remembers) (by simp))
            (.single (hmoves (.proceeds rfl .queues) (by simp)))))))⟩

/-- Then the peer's start arrives. -/
theorem bob_starts (userId : String) : (bothStarts "f1" bobsRequest).step
    ⟨⟨(startedStateOf userId).finished (oursOf 1) (openingOf "o1"), .returned (.ok ()), none⟩, []⟩
    (.world (.peerStarts bobsStart))
    ⟨⟨{ (startedStateOf userId).finished (oursOf 1) (openingOf "o1") with
        upstream := (startedStateOf userId).upstream.receiveStart bobsRequest bobsStart },
      .returned (.ok ()), some bobsStart⟩, []⟩ := by
  refine ⟨.peerStarts rfl (fun r h => ?_) ⟨rfl, rfl⟩, rfl⟩
  have h : (startedStateOf userId).upstream.requestState r = .transitioned (.sas bobsStart) := h
  by_cases hr : r = bobsRequest
  · subst hr
    cases h
  · rw [startedStateOf, Upstream.becomes_requestState_of_ne _ _ _ hr] at h
    cases h

/-- Alice's comparison survives Bob's, and it is the one the registry answers with. -/
theorem answersSurvivor_alice :
    ∃ es q, (bothStarts "f1" bobsRequest).Run
      ⟨⟨readyStateOf "@alice:example.org", .notBegun, none⟩, []⟩ es q ∧
        AnswersSurvivor "f1" bobsRequest q.shared.flow := by
  obtain ⟨es, hrun⟩ := begins_run "@alice:example.org"
  have hboth := hrun.snoc ⟨fun theirs heq => Or.inr ⟨⟨oursOf 1, rfl⟩, by cases heq; decide⟩,
    bob_starts "@alice:example.org"⟩
  exact ⟨_, _, hboth.of_restrict, (answersSurvivor_iff (readyStateOf_ready _) rfl rfl rfl
    hboth.of_restrict rfl rfl (by simp)).mpr hboth⟩

/-- **Bob's comparison survives Carol's, and hers is what her registry answers
with.** -/
theorem answers_loser : ∃ es q,
    AtReady (readyStateOf "@carol:example.org") "f1" bobsRequest ∧
      (bothStarts "f1" bobsRequest).Run
        ⟨⟨readyStateOf "@carol:example.org", .notBegun, none⟩, []⟩ es q ∧
      q.shared.own = .returned (.ok ()) ∧ q.shared.peer = some bobsStart ∧
        q.shared.flow.upstream.Carries bobsRequest bobsStart ∧
          ¬ AnswersSurvivor "f1" bobsRequest q.shared.flow := by
  obtain ⟨es, hrun⟩ := begins_run "@carol:example.org"
  have hboth := hrun.of_restrict.snoc (bob_starts "@carol:example.org")
  have hcarries : ((startedStateOf "@carol:example.org").upstream.receiveStart bobsRequest
      bobsStart).Carries bobsRequest bobsStart := by
    unfold Upstream.Carries
    decide
  refine ⟨_, _, readyStateOf_ready _, hboth, rfl, rfl, hcarries, ?_⟩
  rintro ⟨c, hc, -, handles, hcached, hcomp⟩
  -- the record holds what Carol's begin remembered
  have hours : handles.comparison = some (oursOf 1) := by
    rw [← Option.some.inj hcached]
    rfl
  rw [hours] at hcomp
  obtain rfl := Option.some.inj hcomp
  exact absurd (hc.unique hcarries) (by decide)

end MatrixCrypto
