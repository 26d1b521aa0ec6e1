import MatrixCrypto.Lib.Sections
import MatrixCrypto.Verification.Identifier

/-!
# Announcing invitations

A pass at the end of a sync comes to every request of the tracked users and to the
comparisons the sync began.  What it finds unanswered it registers if the registry
holds no such flow, and announces if it did; what reaches no observer it takes out
of the registry again.

## Main definitions

* `InviteState` — the registry and upstream, with the flows upstream took up and
  what was announced and held here.
* `InviteCall`, `InviteNext` — the passes, read by read, the calls that open a
  flow and those that take an identifier.
* `Upstream.Invites` — whose flows upstream holds.
* `inviting`, `invitations` — all interleavings.
* `Untroubled` — a flow's id is its own, no sweep drops it out of a pass's hands, and
  no two passes have it in hand at once.
-/

namespace MatrixCrypto

open Lib

/-- The registry holds a flow under the id. -/
def Registry.Has (flows : Registry) (f : String) : Prop := ∃ record, flows.get? f = some record

/-- What a sweep drops. -/
def Registry.swept (flows : Registry) (u : Upstream) (observed : Bool) : List String :=
  (flows.filter fun _ record => !record.retained u observed).entries.map Prod.fst

/-- What one section of a lookup sweeps away: only registering sweeps. -/
def Lookup.swept (s : FlowState) : Lookup → List String
  | adopting _ _ => s.flows.swept s.upstream s.observed
  | _ => []

/-- The registry and upstream, with the flows upstream took up and what became of
them here. -/
structure InviteState where
  flow : FlowState
  /-- The requests this process built. -/
  opened : List VerificationRequest
  /-- Those it registered, and handed its caller the identifier of. -/
  started : List VerificationRequest
  /-- The flows other sides opened, by id and user. -/
  arrived : List (String × String)
  /-- What was announced to an observer, by id and user. -/
  announced : List (String × String)
  /-- The identifiers that a call was given handles for. -/
  held : List String

/-- A call, between two of its sections. -/
inductive InviteCall
  /-- `request_flow` or `request_self_flow`, about to take the machine. -/
  | opening (user : String)
  /-- Upstream has built the request. -/
  | opened (request : VerificationRequest)
  /-- A sync, past upstream, with the start events it carried. -/
  | querying (starts : List (String × String))
  /-- `announce_state_changes`, about to see whether anybody is subscribed. -/
  | entering (starts : List (String × String))
  | taking (starts : List (String × String))
  | listing (starts : List (String × String))
  /-- About to come to the next request or start; the signals so far. -/
  | scanning (left : List VerificationRequest) (starts signals : List (String × String))
  /-- It was found unanswered. -/
  | registering (c : Candidate) (left : List VerificationRequest)
      (starts signals : List (String × String))
  /-- `announce`, with the signals that are left to deliver. -/
  | announcing (signals : List (String × String))
  /-- A call that takes an identifier, finding its flow. -/
  | finding (flowId : String) (l : Lookup)
  | acting (flowId : String) (handles : Handles)
  /-- It was given a comparison or a code of the flow. -/
  | remembering (flowId : String) (v : Verification)

/-- Upstream holds the requests built here and what arrived, and no more.  A request
built here is never an invitation to this side, and until its identifier is handed
on nobody starts a comparison under it. -/
structure Upstream.Invites (opened started : List VerificationRequest)
    (arrived : List (String × String)) (u : Upstream) : Prop where
  coherent : u.Coherent
  requests : ∀ user, ∀ r ∈ u.getVerificationRequests user,
    r ∈ opened ∨ (r.flowId, r.otherUser) ∈ arrived
  comparisons : ∀ user id c, u.getVerification user id = some (.sas c) →
    (id, user) ∈ arrived ∨ ∃ r ∈ started, r.flowId = id
  ours : ∀ r ∈ opened, ∀ d, u.requestState r ≠ .requested d

/-- The candidate a pass makes of a request it finds unanswered. -/
def VerificationRequest.candidate (r : VerificationRequest) (otherDeviceId : String) : Candidate :=
  ⟨r.flowId, r.otherUser, otherDeviceId, .fromRequest r⟩

/-- `register_if_absent`, on the whole state. -/
def InviteState.registerIfAbsent (s : InviteState) (c : Candidate) : Bool × InviteState :=
  let registered :=
    s.flow.flows.registerIfAbsent s.flow.upstream s.flow.observed c.flowId c.record
  (registered.1, { s with flow := { s.flow with flows := registered.2 } })

/-- One section of a call. -/
inductive InviteNext (s : InviteState) :
    InviteCall → InviteState → InviteCall ⊕ Except MachineError Unit → Prop
  | refused {user : String} {e : MachineError} :
      InviteNext s (.opening user) s (.inr (.error e))
  | opens {user : String} {request : VerificationRequest} {u : Upstream}
      (hr : request.otherUser = user)
      (h : u.Invites (s.opened ++ [request]) s.started s.arrived) :
      InviteNext s (.opening user)
        { s with flow := { s.flow with upstream := u }, opened := s.opened ++ [request] }
        (.inl (.opened request))
  | registers {request : VerificationRequest} : InviteNext s (.opened request)
      { s with
        flow := { s.flow with flows := (s.flow.flows.register s.flow.upstream s.flow.observed
          request.flowId (.fromRequest request)).2 }
        started := s.started ++ [request] }
      (.inr (.ok ()))
  | queries {starts : List (String × String)} : InviteNext s (.querying starts)
      { s with flow := { s.flow with
        flows := (s.flow.flows.peersOwedAKeyQuery s.flow.upstream).2 } }
      (.inl (.entering starts))
  | silent {starts : List (String × String)} (h : s.flow.observed = false) :
      InviteNext s (.entering starts) s (.inr (.ok ()))
  | enters {starts : List (String × String)} (h : s.flow.observed = true) :
      InviteNext s (.entering starts) s (.inl (.taking starts))
  | takes {starts : List (String × String)} : InviteNext s (.taking starts)
      { s with flow := { s.flow with
        flows := (s.flow.flows.takePendingCompletions s.flow.upstream).2 } }
      (.inl (.listing starts))
  -- the machine has gone away
  | gone {starts : List (String × String)} : InviteNext s (.listing starts) s (.inr (.ok ()))
  | lists {starts : List (String × String)} {tracked : List String}
      (ht : tracked.Perm s.flow.upstream.trackedUsers) :
      InviteNext s (.listing starts) s
        (.inl (.scanning (tracked.flatMap s.flow.upstream.getVerificationRequests) starts []))
  -- the tracked users could not be read, which is taken for there being none
  | listsNone {starts : List (String × String)} :
      InviteNext s (.listing starts) s (.inl (.scanning [] starts []))
  | sees {r : VerificationRequest} {left : List VerificationRequest}
      {starts signals : List (String × String)} {d : String}
      (h : s.flow.upstream.requestState r = .requested d) :
      InviteNext s (.scanning (r :: left) starts signals) s
        (.inl (.registering (r.candidate d) left starts signals))
  | passes {r : VerificationRequest} {left : List VerificationRequest}
      {starts signals : List (String × String)}
      (h : ∀ d, s.flow.upstream.requestState r ≠ .requested d) :
      InviteNext s (.scanning (r :: left) starts signals) s
        (.inl (.scanning left starts signals))
  | begun {start : String × String} {starts signals : List (String × String)} {c : Candidate}
      (h : bareStart s.flow.upstream start = some c) :
      InviteNext s (.scanning [] (start :: starts) signals) s
        (.inl (.registering c [] starts signals))
  | notBegun {start : String × String} {starts signals : List (String × String)}
      (h : bareStart s.flow.upstream start = none) :
      InviteNext s (.scanning [] (start :: starts) signals) s (.inl (.scanning [] starts signals))
  | registersNew {c : Candidate} {left : List VerificationRequest}
      {starts signals : List (String × String)} :
      InviteNext s (.registering c left starts signals) (s.registerIfAbsent c).2
        (.inl (.scanning left starts
          (if (s.registerIfAbsent c).1 then signals ++ [(c.flowId, c.user)] else signals)))
  | scanned {signals : List (String × String)} :
      InviteNext s (.scanning [] [] signals) s (.inl (.announcing signals))
  | delivers {signal : String × String} {signals : List (String × String)}
      (h : s.flow.observed = true) :
      InviteNext s (.announcing (signal :: signals))
        { s with announced := s.announced ++ [signal] } (.inl (.announcing signals))
  | forgets {signal : String × String} {signals : List (String × String)}
      (h : s.flow.observed = false) :
      InviteNext s (.announcing (signal :: signals))
        { s with flow := { s.flow with flows := s.flow.flows.forgetFlow signal.1 } }
        (.inl (.announcing signals))
  | delivered : InviteNext s (.announcing []) s (.inr (.ok ()))
  | finds {flowId : String} {l l' : Lookup} {flow : FlowState}
      (h : LookupNext s.flow l flow (.inl l')) :
      InviteNext s (.finding flowId l) { s with flow := flow } (.inl (.finding flowId l'))
  | findsNone {flowId : String} {l : Lookup} {flow : FlowState} {e : MachineError}
      (h : LookupNext s.flow l flow (.inr (.error e))) :
      InviteNext s (.finding flowId l) { s with flow := flow } (.inr (.error e))
  | found {flowId : String} {l : Lookup} {flow : FlowState} {handles : Handles}
      (h : LookupNext s.flow l flow (.inr (.ok handles))) :
      InviteNext s (.finding flowId l)
        { s with flow := flow, held := s.held ++ [flowId] } (.inl (.acting flowId handles))
  | acts {flowId : String} {handles : Handles} {out : Except MachineError Unit} :
      InviteNext s (.acting flowId handles) s (.inr out)
  | becomes {flowId : String} {handles : Handles} {v : Verification} :
      InviteNext s (.acting flowId handles) s (.inl (.remembering flowId v))
  | remembers {flowId : String} {v : Verification} : InviteNext s (.remembering flowId v)
      { s with flow := { s.flow with flows := s.flow.flows.remember flowId v } } (.inr (.ok ()))

/-- The moves of the outside world. -/
inductive InviteMoves (s : InviteState) : IdentifierMove → InviteState → Prop
  | upstream {u : Upstream} {new : List (String × String)}
      (h : u.Invites s.opened s.started (s.arrived ++ new)) :
      InviteMoves s (.upstream u new)
        { s with flow := { s.flow with upstream := u }, arrived := s.arrived ++ new }
  | observes {observed : Bool} : InviteMoves s (.observes observed)
      { s with flow := { s.flow with observed := observed } }

/-- The calls that may begin. -/
def InviteCall.Begins : InviteCall → Prop
  | opening _ | querying _ => True
  | finding flowId l => l = .begins flowId
  | _ => False

/-- All interleavings: every order the machine's own lock allows, and more. -/
def inviting : Calls InviteState InviteCall (Except MachineError Unit) IdentifierMove where
  start := fun _ call => call.Begins
  next := InviteNext
  world := InviteMoves

/-- A process at its start. -/
structure InviteState.Starting (s : InviteState) : Prop where
  flows : s.flow.flows = OrdMap.empty
  opened : s.opened = []
  started : s.started = []
  arrived : s.arrived = []
  announced : s.announced = []
  held : s.held = []
  upstream : s.flow.upstream.Invites [] [] []

/-- What happens in one step. -/
abbrev InviteEvent := Event InviteCall (Except MachineError Unit) IdentifierMove

/-- The syncs and the calls in flight. -/
abbrev InvitePool := Pool InviteState InviteCall

/-- The ids of the flows upstream took up. -/
def InviteState.ids (s : InviteState) : List String :=
  s.opened.map VerificationRequest.flowId ++ s.arrived.map Prod.fst

/-- The ids of the flows it takes up in a step. -/
def idsTakenUp : InviteEvent → List String
  | .section (.opening _) (.inl (.opened request)) => [request.flowId]
  | .world (.upstream _ new) => new.map Prod.fst
  | _ => []

/-- What a pass is still to deliver. -/
def InviteCall.signals : InviteCall → List (String × String)
  | scanning _ _ signals | registering _ _ _ signals | announcing signals => signals
  | _ => []

/-- What it is to deliver or about to register. -/
def InviteCall.inHand : InviteCall → List String
  | registering c _ _ signals => c.flowId :: signals.map Prod.fst
  | call => call.signals.map Prod.fst

/-- How often the flow was announced to an observer or is about to be. -/
def told (f : String) (s : InviteState) (calls : List InviteCall) : ℕ :=
  (s.announced.map Prod.fst).count f + ((calls.flatMap InviteCall.signals).map Prod.fst).count f

/-! ### The runs that leave a flow to its pass -/

/-- What one section of a call sweeps away. -/
def InviteCall.swept (s : FlowState) : InviteCall → List String
  | opened _ | registering .. => s.flows.swept s.upstream s.observed
  | finding _ l => l.swept s
  | _ => []

/-- What a pass finds open, coming to its next request or start. -/
def Upstream.comesTo (u : Upstream) :
    List VerificationRequest → List (String × String) → Option Candidate
  | r :: _, _ =>
    match u.requestState r with
    | .requested d => some (r.candidate d)
    | _ => none
  | [], start :: _ => bareStart u start
  | [], [] => none

/-- The flow's id is its own, and nothing comes between a pass and the flow: no sweep drops what a
pass has in hand; what was announced or started here is registered when a pass finds it open; and
no pass is about to register what another is yet to deliver. -/
structure Untroubled (f : String) (p : InvitePool) (e : InviteEvent) : Prop where
  unshared : (p.shared.ids ++ idsTakenUp e).count f ≤ 1
  sweeps : ∀ call r, e = .section call r → f ∈ call.swept p.shared.flow →
    ∀ call' ∈ p.calls, f ∉ call'.inHand
  finds : ∀ left starts signals r c, e = .section (.scanning left starts signals) r →
    p.shared.flow.upstream.comesTo left starts = some c → c.flowId = f →
      f ∈ p.shared.announced.map Prod.fst ∨ (∃ r ∈ p.shared.started, r.flowId = f) →
        p.shared.flow.flows.Has f
  alone : ∀ c left starts signals r, e = .section (.registering c left starts signals) r →
    c.flowId = f → ∀ call ∈ p.calls, f ∈ call.signals.map Prod.fst →
      call = .registering c left starts signals

end MatrixCrypto
