import MatrixCrypto.Lib.OrdMap
import MatrixCrypto.Session.Requests

/-!
# Upstream's verification objects

A handle is shared: every clone of it reads the one state upstream keeps behind
it, as it is at that moment.  So a handle is the fixed part of an object, and
the state lies in `Upstream`, where upstream's own moves change it.

## Main definitions

* `VerificationRequest`, `Sas`, `QrVerification`, `Verification` — the handles.
* `VerificationRequestState`, `SasState`, `QrVerificationState` — their states.
* `Upstream` — the states, and the two maps by user and flow id.
* `Upstream.Advance` — one object moves; nothing moves out of a final state.
* `Upstream.Coherent` — a flow's objects agree on its id and its user.
* `Upstream.rivals`, `Upstream.clear` — one verification with a user at a time.
* `Upstream.startSas`, `Upstream.receiveStart` — a comparison is started, by either side.
-/

namespace MatrixCrypto

open Lib

/-- The methods of verification a side can announce. -/
inductive VerificationMethod
  | sasV1
  | qrCodeShowV1
  | qrCodeScanV1
  | reciprocateV1
  deriving DecidableEq, Repr

/-! ### Handles -/

/-- A comparison of short strings. -/
structure Sas where
  /-- Which object this is: two comparisons of one flow differ here. -/
  ref : ℕ
  flowId : String
  otherUserId : String
  otherDeviceId : String
  deriving DecidableEq, Repr

/-- A verification by scanned code. -/
structure QrVerification where
  ref : ℕ
  flowId : String
  otherUserId : String
  deriving DecidableEq, Repr

/-- What a request became. -/
inductive Verification
  | sas (c : Sas)
  | qr (q : QrVerification)
  deriving DecidableEq, Repr

/-- `sas_v1`. -/
def Verification.sasV1 : Verification → Option Sas
  | sas c => some c
  | qr _ => none

/-- `qr_v1`. -/
def Verification.qrV1 : Verification → Option QrVerification
  | sas _ => none
  | qr q => some q

/-- A request to verify. -/
structure VerificationRequest where
  ref : ℕ
  flowId : String
  otherUser : String
  deriving DecidableEq, Repr

/-! ### States -/

inductive SasState
  | created
  | started
  | accepted
  | keysExchanged (emojis : Option (List (String × String))) (decimals : ℕ × ℕ × ℕ)
  | confirmed
  /-- With the devices it verified, each with its user. -/
  | done (verifiedDevices : List (String × String))
  | cancelled
  deriving DecidableEq, Repr

inductive QrVerificationState
  | started
  | scanned
  | confirmed
  | reciprocated
  | done
  | cancelled
  deriving DecidableEq, Repr

inductive VerificationRequestState
  | created
  | requested (otherDeviceId : String)
  | ready (ourMethods theirMethods : List VerificationMethod)
  | transitioned (verification : Verification)
  | done
  | cancelled
  deriving DecidableEq, Repr

/-- The states nothing moves a comparison out of. -/
def SasState.isFinal : SasState → Bool
  | done _ | cancelled => true
  | _ => false

/-- The states nothing moves a code out of. -/
def QrVerificationState.isFinal : QrVerificationState → Bool
  | done | cancelled => true
  | _ => false

/-- The states nothing moves a request out of. -/
def VerificationRequestState.isFinal : VerificationRequestState → Bool
  | done | cancelled => true
  | _ => false

/-! ### What upstream holds -/

/-- Upstream's `ScanError`, less what its variants carry, but for the user whose identity
is missing. -/
inductive ScanError
  | store
  | missingCrossSigningIdentity (user : String)
  | flowIdMismatch
  | keyMismatch
  | missingDeviceKeys
  deriving DecidableEq, Repr

/-- The states behind the handles, and the maps they are found by. -/
structure Upstream where
  /-- The account of this machine, and its device. -/
  userId : String
  deviceId : String
  /-- A set: each reading of it visits the users in an order of its own. -/
  trackedUsers : List String
  requestState : VerificationRequest → VerificationRequestState
  sasState : Sas → SasState
  codeState : QrVerification → QrVerificationState
  /-- The methods of the two sides, which a request that moved on keeps and shows no more. -/
  negotiated : VerificationRequest → List VerificationMethod × List VerificationMethod
  /-- Whether the identities are there that a code of the request carries, and their keys. -/
  hasCodeKeys : VerificationRequest → Bool
  /-- What `scan_qr_code` refuses a code with, if it does. -/
  scanError : VerificationRequest → List UInt8 → Option ScanError
  /-- `get_verification_request`, by user and flow id. -/
  getVerificationRequest : String → String → Option VerificationRequest
  /-- The cache: the verifications with a user, by flow id. -/
  verifications : String → OrdMap String Verification
  /-- `get_verification_requests`. -/
  getVerificationRequests : String → List VerificationRequest

namespace Upstream

/-- `get_verification`, by user and flow id: what the messages of a flow go to. -/
def getVerification (u : Upstream) (user id : String) : Option Verification :=
  (u.verifications user).get? id

/-- A request moves to a state. -/
def setRequest (u : Upstream) (r : VerificationRequest) (s : VerificationRequestState) :
    Upstream := { u with requestState := Function.update u.requestState r s }

/-- A comparison moves to a state. -/
def setSas (u : Upstream) (c : Sas) (s : SasState) : Upstream :=
  { u with sasState := Function.update u.sasState c s }

/-- A code moves to a state. -/
def setCode (u : Upstream) (q : QrVerification) (s : QrVerificationState) : Upstream :=
  { u with codeState := Function.update u.codeState q s }

/-- One object moves.  Nothing moves out of a final state. -/
inductive Advance (u : Upstream) : Upstream → Prop
  | request (r : VerificationRequest) (s : VerificationRequestState)
      (h : (u.requestState r).isFinal = false) : Advance u (u.setRequest r s)
  | sas (c : Sas) (s : SasState) (h : (u.sasState c).isFinal = false) : Advance u (u.setSas c s)
  | code (q : QrVerification) (s : QrVerificationState) (h : (u.codeState q).isFinal = false) :
      Advance u (u.setCode q s)

/-- The objects are kept by user and transaction id, and what a request became
is a verification of the same flow with the same user. -/
structure Coherent (u : Upstream) : Prop where
  request : ∀ user id r, u.getVerificationRequest user id = some r →
    r.flowId = id ∧ r.otherUser = user
  requests : ∀ user, ∀ r ∈ u.getVerificationRequests user, r.otherUser = user
  sas : ∀ user id c, u.getVerification user id = some (.sas c) →
    c.flowId = id ∧ c.otherUserId = user
  becameSas : ∀ r c, u.requestState r = .transitioned (.sas c) →
    c.flowId = r.flowId ∧ c.otherUserId = r.otherUser
  becameCode : ∀ r q, u.requestState r = .transitioned (.qr q) →
    q.flowId = r.flowId ∧ q.otherUserId = r.otherUser

section states

variable (u : Upstream) (r : VerificationRequest) (c : Sas) (q : QrVerification)

@[simp] theorem setRequest_requestState (s : VerificationRequestState) :
    (u.setRequest r s).requestState r = s := Function.update_self ..

theorem setRequest_requestState_of_ne {r' : VerificationRequest} (h : r' ≠ r)
    (s : VerificationRequestState) : (u.setRequest r s).requestState r' = u.requestState r' :=
  Function.update_of_ne h ..

@[simp] theorem setRequest_sasState (s : VerificationRequestState) :
    (u.setRequest r s).sasState = u.sasState := rfl

@[simp] theorem setRequest_codeState (s : VerificationRequestState) :
    (u.setRequest r s).codeState = u.codeState := rfl

@[simp] theorem setSas_sasState (s : SasState) : (u.setSas c s).sasState c = s :=
  Function.update_self ..

theorem setSas_sasState_of_ne {c' : Sas} (h : c' ≠ c) (s : SasState) :
    (u.setSas c s).sasState c' = u.sasState c' := Function.update_of_ne h ..

@[simp] theorem setSas_requestState (s : SasState) :
    (u.setSas c s).requestState = u.requestState := rfl

@[simp] theorem setSas_codeState (s : SasState) : (u.setSas c s).codeState = u.codeState := rfl

@[simp] theorem setCode_codeState (s : QrVerificationState) : (u.setCode q s).codeState q = s :=
  Function.update_self ..

theorem setCode_codeState_of_ne {q' : QrVerification} (h : q' ≠ q) (s : QrVerificationState) :
    (u.setCode q s).codeState q' = u.codeState q' := Function.update_of_ne h ..

@[simp] theorem setCode_requestState (s : QrVerificationState) :
    (u.setCode q s).requestState = u.requestState := rfl

@[simp] theorem setCode_sasState (s : QrVerificationState) :
    (u.setCode q s).sasState = u.sasState := rfl

end states

variable {u v : Upstream}

/-- A comparison that is over stays as it is. -/
theorem Advance.sasState (h : Advance u v) {c : Sas} (hc : (u.sasState c).isFinal = true) :
    v.sasState c = u.sasState c := by
  cases h with
  | request r s _ => rfl
  | code q s _ => rfl
  | sas c' s h =>
    refine setSas_sasState_of_ne u c' ?_ s
    rintro rfl
    rw [hc] at h
    cases h

/-- A code that is over stays as it is. -/
theorem Advance.codeState (h : Advance u v) {q : QrVerification}
    (hq : (u.codeState q).isFinal = true) : v.codeState q = u.codeState q := by
  cases h with
  | request r s _ => rfl
  | sas c s _ => rfl
  | code q' s h =>
    refine setCode_codeState_of_ne u q' ?_ s
    rintro rfl
    rw [hq] at h
    cases h

/-- A request that is over stays as it is. -/
theorem Advance.requestState (h : Advance u v) {r : VerificationRequest}
    (hr : (u.requestState r).isFinal = true) : v.requestState r = u.requestState r := by
  cases h with
  | sas c s _ => rfl
  | code q s _ => rfl
  | request r' s h =>
    refine setRequest_requestState_of_ne u r' ?_ s
    rintro rfl
    rw [hr] at h
    cases h

/-! ### One verification with a user at a time -/

/-- Whether a verification is cancelled. -/
def isCancelled (u : Upstream) : Verification → Bool
  | .sas c => u.sasState c == .cancelled
  | .qr q => u.codeState q == .cancelled

/-- Whether a verification is over. -/
def isOver (u : Upstream) : Verification → Bool
  | .sas c => (u.sasState c).isFinal
  | .qr q => (u.codeState q).isFinal

/-- `cancel`, of a verification and of the request that became it: one that is over stays as it
is. -/
def abandon (u : Upstream) (v : Verification) : Upstream :=
  if u.isOver v then u
  else
    let cancelled := match v with
      | .sas c => u.setSas c .cancelled
      | .qr q => u.setCode q .cancelled
    { cancelled with
      requestState := fun r =>
        if u.requestState r = .transitioned v then .cancelled else u.requestState r }

/-- The verifications with a user that are kept and are not cancelled; one that is done is among
them until it is collected. -/
def rivals (u : Upstream) (user : String) : List Verification :=
  ((u.verifications user).entries.map Prod.snd).filter fun v => !u.isCancelled v

/-- The verifications with a user are cancelled. -/
def clear (u : Upstream) (user : String) : Upstream := (u.rivals user).foldl abandon u

/-- The messages of a flow go to a verification. -/
def route (u : Upstream) (user id : String) (v : Verification) : Upstream :=
  { u with
    verifications := Function.update u.verifications user ((u.verifications user).insert id v) }

/-- A comparison is put in the cache, where it and every other verification with the user are
cancelled if there is another. -/
def insertSas (u : Upstream) (c : Sas) (state : SasState) : Upstream :=
  ((u.clear c.otherUserId).setSas c
    (if (u.rivals c.otherUserId).isEmpty then state else .cancelled)).route
      c.otherUserId c.flowId (.sas c)

/-- The methods of the two sides. -/
def methodsOf (u : Upstream) (r : VerificationRequest) :
    List VerificationMethod × List VerificationMethod :=
  match u.requestState r with
  | .ready ours theirs => (ours, theirs)
  | _ => u.negotiated r

/-- A request moves on to a verification. -/
def becomes (u : Upstream) (r : VerificationRequest) (v : Verification) : Upstream :=
  { u.setRequest r (.transitioned v) with
    negotiated := Function.update u.negotiated r (u.methodsOf r) }

section cache

variable (u : Upstream) (r : VerificationRequest) (c : Sas) (q : QrVerification)
  (user id : String) (v : Verification)

@[simp] theorem route_requestState : (u.route user id v).requestState = u.requestState := rfl

@[simp] theorem route_sasState : (u.route user id v).sasState = u.sasState := rfl

@[simp] theorem route_codeState : (u.route user id v).codeState = u.codeState := rfl

theorem getVerification_route (user' id' : String) :
    (u.route user id v).getVerification user' id' =
      if user' = user ∧ id' = id then some v else u.getVerification user' id' := by
  show ((Function.update u.verifications user ((u.verifications user).insert id v)) user').get?
    id' = _
  by_cases huser : user' = user
  · subst huser
    rw [Function.update_self, OrdMap.get?_insert]
    simp [getVerification]
  · rw [Function.update_of_ne huser, if_neg fun h => huser h.1]
    rfl

/-- No verification is kept with the user. -/
theorem getVerification_of_empty (h : u.verifications user = ∅) :
    u.getVerification user id = none := by
  unfold getVerification
  rw [h]
  rfl

@[simp] theorem becomes_requestState : (u.becomes r v).requestState r = .transitioned v :=
  Function.update_self ..

theorem becomes_requestState_of_ne {r' : VerificationRequest} (h : r' ≠ r) :
    (u.becomes r v).requestState r' = u.requestState r' := Function.update_of_ne h ..

@[simp] theorem becomes_sasState : (u.becomes r v).sasState = u.sasState := rfl

@[simp] theorem becomes_codeState : (u.becomes r v).codeState = u.codeState := rfl

/-- Nothing but states changes, and none that is over: what was live is cancelled, and so is the
request that became it. -/
structure Retires (u v : Upstream) : Prop where
  eq : v = { u with
    requestState := v.requestState
    sasState := v.sasState
    codeState := v.codeState }
  request : ∀ r, v.requestState r = u.requestState r ∨
    (∃ x, u.requestState r = .transitioned x ∧ u.isOver x = false ∧ v.isCancelled x = true) ∧
      v.requestState r = .cancelled
  sas : ∀ c, v.sasState c = u.sasState c ∨
    (u.sasState c).isFinal = false ∧ v.sasState c = .cancelled
  code : ∀ q, v.codeState q = u.codeState q ∨
    (u.codeState q).isFinal = false ∧ v.codeState q = .cancelled

theorem Retires.refl : Retires u u :=
  ⟨rfl, fun _ => Or.inl rfl, fun _ => Or.inl rfl, fun _ => Or.inl rfl⟩

variable {u} {w x : Upstream}

/-- What is live was live. -/
theorem Retires.sas_live (h : Retires u w) {c : Sas} (hc : (w.sasState c).isFinal = false) :
    (u.sasState c).isFinal = false := by
  rcases h.sas c with hsame | ⟨_, hcancelled⟩
  · rwa [hsame] at hc
  · rw [hcancelled] at hc
    cases hc

theorem Retires.code_live (h : Retires u w) {q : QrVerification}
    (hq : (w.codeState q).isFinal = false) : (u.codeState q).isFinal = false := by
  rcases h.code q with hsame | ⟨_, hcancelled⟩
  · rwa [hsame] at hq
  · rw [hcancelled] at hq
    cases hq

/-- What is over stays as it is. -/
theorem Retires.sas_of_final (h : Retires u w) {c : Sas} (hc : (u.sasState c).isFinal = true) :
    w.sasState c = u.sasState c := by
  rcases h.sas c with hsame | ⟨hlive, _⟩
  · exact hsame
  · rw [hc] at hlive
    cases hlive

theorem Retires.code_of_final (h : Retires u w) {q : QrVerification}
    (hq : (u.codeState q).isFinal = true) : w.codeState q = u.codeState q := by
  rcases h.code q with hsame | ⟨hlive, _⟩
  · exact hsame
  · rw [hq] at hlive
    cases hlive

theorem Retires.isOver (h : Retires u w) {v : Verification} (hv : w.isOver v = false) :
    u.isOver v = false := by
  cases v with
  | sas c => exact h.sas_live hv
  | qr q => exact h.code_live hv

theorem Retires.isCancelled (h : Retires u w) {v : Verification} (hv : u.isCancelled v = true) :
    w.isCancelled v = true := by
  cases v with
  | sas c =>
    have hc : u.sasState c = .cancelled := beq_iff_eq.mp hv
    exact beq_iff_eq.mpr ((h.sas_of_final (by rw [hc]; rfl)).trans hc)
  | qr q =>
    have hq : u.codeState q = .cancelled := beq_iff_eq.mp hv
    exact beq_iff_eq.mpr ((h.code_of_final (by rw [hq]; rfl)).trans hq)

theorem Retires.trans (h : Retires u w) (h' : Retires w x) : Retires u x where
  eq := by rw [h'.eq, h.eq]
  request := by
    intro r
    rcases h'.request r with hsame | ⟨⟨v, hv, hlive, hcancelled⟩, hdismissed⟩
    · rcases h.request r with hsame' | ⟨⟨v, hv, hlive, hcancelled⟩, hdismissed⟩
      · exact Or.inl (hsame.trans hsame')
      · exact Or.inr ⟨⟨v, hv, hlive, h'.isCancelled hcancelled⟩, hsame.trans hdismissed⟩
    · rcases h.request r with hsame' | ⟨_, hdismissed'⟩
      · exact Or.inr ⟨⟨v, hsame' ▸ hv, h.isOver hlive, hcancelled⟩, hdismissed⟩
      · rw [hdismissed'] at hv
        cases hv
  sas := by
    intro c
    rcases h'.sas c with hsame | ⟨hlive, hcancelled⟩
    · rw [hsame]
      exact h.sas c
    · exact Or.inr ⟨h.sas_live hlive, hcancelled⟩
  code := by
    intro q
    rcases h'.code q with hsame | ⟨hlive, hcancelled⟩
    · rw [hsame]
      exact h.code q
    · exact Or.inr ⟨h.code_live hlive, hcancelled⟩

/-- A request stays as it is, unless it became a verification that is cancelled now. -/
theorem Retires.requestState (h : Retires u w) {r : VerificationRequest}
    (hr : ∀ v, u.requestState r = .transitioned v → u.isOver v = true) :
    w.requestState r = u.requestState r := by
  rcases h.request r with hsame | ⟨⟨v, hv, hlive, _⟩, _⟩
  · exact hsame
  · rw [hr v hv] at hlive
    cases hlive

theorem Retires.verifications (h : Retires u w) : w.verifications = u.verifications := by rw [h.eq]

theorem Retires.getVerificationRequest (h : Retires u w) :
    w.getVerificationRequest = u.getVerificationRequest := by rw [h.eq]

theorem Retires.getVerificationRequests (h : Retires u w) :
    w.getVerificationRequests = u.getVerificationRequests := by rw [h.eq]

theorem Retires.userId (h : Retires u w) : w.userId = u.userId := by rw [h.eq]

theorem Retires.trackedUsers (h : Retires u w) : w.trackedUsers = u.trackedUsers := by rw [h.eq]

/-- A comparison that is abandoned is over. -/
theorem isFinal_abandon (u : Upstream) (c : Sas) :
    ((u.abandon (.sas c)).sasState c).isFinal = true := by
  unfold abandon
  split
  · next hover => exact hover
  · show ((u.setSas c .cancelled).sasState c).isFinal = true
    rw [setSas_sasState]
    rfl

theorem retires_abandon (u : Upstream) (v : Verification) : Retires u (u.abandon v) := by
  unfold abandon
  split
  · exact .refl u
  next hlive =>
  have hlive : u.isOver v = false := Bool.eq_false_iff.mpr hlive
  have hdismissed : ∀ w : Upstream, w.isCancelled v = true → ∀ r,
      (if u.requestState r = .transitioned v then .cancelled else u.requestState r) =
        u.requestState r ∨
      (∃ x, u.requestState r = .transitioned x ∧ u.isOver x = false ∧ w.isCancelled x = true) ∧
        (if u.requestState r = .transitioned v then .cancelled else u.requestState r) =
          VerificationRequestState.cancelled := by
    intro w hw r
    split
    · next hr => exact Or.inr ⟨⟨v, hr, hlive, hw⟩, rfl⟩
    · exact Or.inl rfl
  cases v with
  | sas c =>
    refine ⟨rfl, hdismissed _ (beq_iff_eq.mpr (setSas_sasState u c _)), fun c' => ?_,
      fun _ => Or.inl rfl⟩
    by_cases heq : c' = c
    · rw [heq]
      exact Or.inr ⟨hlive, setSas_sasState u c _⟩
    · exact Or.inl (setSas_sasState_of_ne u c heq _)
  | qr q =>
    refine ⟨rfl, hdismissed _ (beq_iff_eq.mpr (setCode_codeState u q _)), fun _ => Or.inl rfl,
      fun q' => ?_⟩
    by_cases heq : q' = q
    · rw [heq]
      exact Or.inr ⟨hlive, setCode_codeState u q _⟩
    · exact Or.inl (setCode_codeState_of_ne u q heq _)

theorem retires_foldl_abandon (vs : List Verification) :
    ∀ u : Upstream, Retires u (vs.foldl abandon u) := by
  induction vs with
  | nil => exact fun u => .refl u
  | cons v vs ih => exact fun u => (retires_abandon u v).trans (ih (u.abandon v))

theorem retires_clear (u : Upstream) (user : String) : Retires u (u.clear user) :=
  retires_foldl_abandon _ u

/-- What was abandoned is over, whatever is abandoned with it. -/
theorem isFinal_foldl_abandon {vs : List Verification} {c : Sas} (hc : .sas c ∈ vs) :
    ∀ u : Upstream, ((vs.foldl abandon u).sasState c).isFinal = true := by
  induction vs with
  | nil => cases hc
  | cons v vs ih =>
    intro u
    rcases List.mem_cons.mp hc with rfl | hc
    · have hover := isFinal_abandon u c
      rw [List.foldl_cons, (retires_foldl_abandon vs _).sas_of_final hover]
      exact hover
    · exact ih hc (u.abandon v)

/-- A comparison that is kept and is live is a rival of the next verification with its user. -/
theorem mem_rivals {user id : String} {c : Sas} (h : u.getVerification user id = some (.sas c))
    (hc : (u.sasState c).isFinal = false) : .sas c ∈ u.rivals user := by
  refine List.mem_filter.mpr ⟨List.mem_map.mpr ⟨(id, .sas c), OrdMap.get?_eq_some.mp h, rfl⟩, ?_⟩
  show (!(u.sasState c == .cancelled)) = true
  cases hstate : u.sasState c with
  | cancelled =>
    rw [hstate] at hc
    cases hc
  | _ => simp

/-- It does not outlive it. -/
theorem isFinal_clear {user id : String} {c : Sas}
    (h : u.getVerification user id = some (.sas c)) :
    ((u.clear user).sasState c).isFinal = true := by
  cases hc : (u.sasState c).isFinal with
  | false => exact isFinal_foldl_abandon (mem_rivals h hc) u
  | true =>
    rw [(retires_clear u user).sas_of_final hc]
    exact hc

theorem rivals_eq_nil {user : String} : u.rivals user = [] ↔
    ∀ e ∈ (u.verifications user).entries, u.isCancelled e.2 = true := by
  unfold rivals
  simp only [List.filter_eq_nil_iff, List.mem_map, forall_exists_index, and_imp,
    forall_apply_eq_imp_iff₂, Bool.not_eq_true', Bool.not_eq_false]

/-- A comparison that goes on is no new rival. -/
theorem rivals_setSas {user : String} (h : u.rivals user = []) {c : Sas}
    (hc : (u.sasState c).isFinal = false) (state : SasState) :
    (u.setSas c state).rivals user = [] := by
  rw [rivals_eq_nil] at h ⊢
  intro e he
  have hcancelled := h e he
  cases hv : e.2 with
  | qr q => rwa [hv] at hcancelled
  | sas c' =>
    rw [hv] at hcancelled
    have hstate : u.sasState c' = .cancelled := beq_iff_eq.mp hcancelled
    have hne : c' ≠ c := by
      rintro rfl
      rw [hstate] at hc
      cases hc
    show ((u.setSas c state).sasState c' == .cancelled) = true
    rwa [setSas_sasState_of_ne _ _ hne]

theorem clear_of_no_rivals {user : String} (h : u.rivals user = []) : u.clear user = u := by
  unfold clear
  rw [h]
  rfl

theorem insertSas_of_no_rivals {c : Sas} {state : SasState} (h : u.rivals c.otherUserId = []) :
    u.insertSas c state = (u.setSas c state).route c.otherUserId c.flowId (.sas c) := by
  unfold insertSas
  rw [clear_of_no_rivals h, h]
  rfl

theorem insertSas_sasState (u : Upstream) (c : Sas) (state : SasState) :
    (u.insertSas c state).sasState c =
      if (u.rivals c.otherUserId).isEmpty then state else .cancelled :=
  setSas_sasState ..

theorem insertSas_sasState_of_ne (u : Upstream) {c c' : Sas} (h : c' ≠ c) (state : SasState) :
    (u.insertSas c state).sasState c' = (u.clear c.otherUserId).sasState c' :=
  setSas_sasState_of_ne _ _ h _

theorem insertSas_codeState (u : Upstream) (c : Sas) (state : SasState) :
    (u.insertSas c state).codeState = (u.clear c.otherUserId).codeState := rfl

end cache

/-! ### Starting a comparison -/

/-- `start_sas`, with the comparison it would build.  A request that already
became a verification gets a second one under the same id, and the two are cancelled. -/
def startSas (u : Upstream) (r : VerificationRequest) (c : Sas) : Option Upstream :=
  match u.requestState r with
  | .ready _ theirMethods =>
    if theirMethods.contains .sasV1 then some ((u.insertSas c .created).becomes r (.sas c))
    else none
  | .transitioned verification =>
    some (((u.abandon verification).insertSas c .cancelled).becomes r (.sas c))
  | _ => none

/-- No request carries the comparison. -/
def Fresh (u : Upstream) (c : Sas) : Prop := ∀ r, u.requestState r ≠ .transitioned (.sas c)

/-- Of two comparisons started at once, the one started by the lexicographically
smaller pair of user and device survives. -/
def ourStartSurvives (u : Upstream) (theirs : Sas) : Bool :=
  decide (u.userId < theirs.otherUserId) ||
    (u.userId == theirs.otherUserId && decide (u.deviceId < theirs.otherDeviceId))

/-- The comparison the peer started takes the place of what the request had become, in the request
and in the cache, and awaits an answer. -/
def carryTheirs (u : Upstream) (r : VerificationRequest) (theirs : Sas) : Upstream :=
  ((u.setSas theirs .started).route theirs.otherUserId theirs.flowId (.sas theirs)).becomes r
    (.sas theirs)

/-- The peer's own start of a comparison arrives for a request.  A code that is shown gives way to
it, and is cancelled; one that was scanned does not. -/
def receiveStart (u : Upstream) (r : VerificationRequest) (theirs : Sas) : Upstream :=
  match u.requestState r with
  | .ready _ _ => (u.insertSas theirs .started).becomes r (.sas theirs)
  | .transitioned (.sas _) => if u.ourStartSurvives theirs then u else u.carryTheirs r theirs
  | .transitioned (.qr q) =>
    match u.codeState q with
    | .started => (u.setCode q .cancelled).carryTheirs r theirs
    | _ => u
  | _ => u

variable {u v : Upstream}

/-- On a request that is ready, `start_sas` asks what the far side announced. -/
theorem startSas_of_ready {r : VerificationRequest} {ours theirs : List VerificationMethod}
    (c : Sas) (h : u.requestState r = .ready ours theirs) :
    u.startSas r c = if theirs.contains .sasV1 then
      some ((u.insertSas c .created).becomes r (.sas c)) else none := by
  unfold startSas
  rw [h]

/-- Whatever `start_sas` starts, the request carries it, and it is cancelled unless the request was
ready and no other verification with the user was kept. -/
theorem startSas_eq_some {r : VerificationRequest} {c : Sas} (h : u.startSas r c = some v) :
    v.requestState r = .transitioned (.sas c) ∧
      (v.sasState c = .created ∧ (∃ ours theirs, u.requestState r = .ready ours theirs) ∧
          u.rivals c.otherUserId = [] ∨
        v.sasState c = .cancelled ∧ (u.rivals c.otherUserId ≠ [] ∨
          ∃ verification, u.requestState r = .transitioned verification)) := by
  unfold startSas at h
  split at h
  · next ours theirs hr =>
    split at h
    · cases h
      refine ⟨becomes_requestState .., ?_⟩
      rw [becomes_sasState, insertSas_sasState]
      by_cases hrivals : u.rivals c.otherUserId = []
      · rw [hrivals]
        exact Or.inl ⟨rfl, ⟨ours, theirs, hr⟩, rfl⟩
      · rw [List.isEmpty_eq_false_iff.mpr hrivals]
        exact Or.inr ⟨rfl, Or.inl hrivals⟩
    · cases h
  · next verification hr =>
    cases h
    refine ⟨becomes_requestState .., Or.inr ⟨?_, Or.inr ⟨verification, hr⟩⟩⟩
    rw [becomes_sasState, insertSas_sasState, ite_self]
  · cases h

/-- But for the comparison, `start_sas` leaves of a verification what it was, or cancels it. -/
theorem retires_startSas {r : VerificationRequest} {c : Sas} (h : u.startSas r c = some v) :
    ∃ w state, Retires u w ∧ v = ((w.setSas c state).route c.otherUserId c.flowId (.sas c)).becomes
      r (.sas c) := by
  unfold startSas at h
  split at h
  · split at h
    · cases h
      exact ⟨_, _, retires_clear u _, rfl⟩
    · cases h
  · next verification _ =>
    cases h
    exact ⟨_, _, (retires_abandon u verification).trans (retires_clear _ _), rfl⟩
  · cases h

/-- A flow that is cancelled stays so, whatever `start_sas` starts. -/
theorem startSas_cancelled {r request : VerificationRequest} {c c' : Sas}
    (hr : u.requestState r = .transitioned (.sas c)) (hc : u.sasState c = .cancelled)
    (hfresh : u.Fresh c') (h : u.startSas request c' = some v) :
    ∃ c'', v.requestState r = .transitioned (.sas c'') ∧ v.sasState c'' = .cancelled := by
  by_cases heq : request = r
  · subst heq
    obtain ⟨hcarries, ⟨-, ⟨ours, theirs, hready⟩, -⟩ | ⟨hcancelled, -⟩⟩ := startSas_eq_some h
    · rw [hr] at hready
      cases hready
    · exact ⟨c', hcarries, hcancelled⟩
  · -- a start of another request leaves this one's comparison cancelled
    have hne : c ≠ c' := by
      rintro rfl
      exact hfresh r hr
    obtain ⟨w, state, hretires, rfl⟩ := retires_startSas h
    have hover : (u.sasState c).isFinal = true := by rw [hc]; rfl
    refine ⟨c, ?_, ?_⟩
    · rw [becomes_requestState_of_ne _ _ _ (Ne.symm heq), route_requestState, setSas_requestState,
        hretires.requestState, hr]
      intro v hv
      obtain rfl : Verification.sas c = v := by
        rw [hr] at hv
        injection hv
      exact hover
    · rw [becomes_sasState, route_sasState, setSas_sasState_of_ne _ _ hne,
        hretires.sas_of_final hover, hc]

end Upstream

end MatrixCrypto
