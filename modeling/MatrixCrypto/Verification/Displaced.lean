import MatrixCrypto.Lib.Sections
import MatrixCrypto.Verification.BeginOnce
import MatrixCrypto.Verification.Code
import MatrixCrypto.Verification.Completion

/-!
# A code in the place of a comparison

`begin_comparison` reads the stage of its flow before it asks upstream for anything, and
`read_code` and `submit_scanned_code` only look for a request.  Upstream builds a code
for a request that has become a comparison as well, and sends the flow's messages to the
code from then on.  Where the comparison was kept, it is cancelled with the code; where it
had made way already, the registry may hold the two beside each other, both live.

## Main definitions

* `Upstream.Comparing`, `Upstream.Coding` — a comparison, or a code, of a flow is not over.
* `Upstream.KeepsComparisons` — beside a code that is not over, a comparison is routed.
* `ScanningCall`, `ScanningNext`, `scannings` — the two calls, begins, and what else happens.
* `FlowRecord.Displaced` — a live comparison that was dropped, beside a live code.
* `ScanningCall.answered` — upstream would answer the call with a code.
* `Clean` — it would not, where a comparison of the flow is live.

## Main results

* `keepsComparisons_step` — **a clean step drops no comparison for a code.**
* `spared_of_clean` — what a run of clean steps comes to.
* `ScanningNext.loses`, `SubmitNext.wrongStage` — a code that is built beside a comparison
  cancels it, whatever the call answers.
* `comparison_displaced` — a run that reads a code beside a comparison.
-/

namespace MatrixCrypto

open Lib

/-! ### What is live -/

namespace Upstream

/-- A comparison of the flow is neither done nor cancelled.  One that nobody has built
reads as over. -/
def Comparing (u : Upstream) (user id : String) : Prop :=
  ∃ c : Sas, c.otherUserId = user ∧ c.flowId = id ∧ (u.sasState c).isFinal = false

/-- A code of the flow is neither done nor cancelled. -/
def Coding (u : Upstream) (user id : String) : Prop :=
  ∃ q : QrVerification, q.otherUserId = user ∧ q.flowId = id ∧ (u.codeState q).isFinal = false

/-- Beside a code that is not over, a comparison that is not over is the one the messages
of its flow go to. -/
def KeepsComparisons (u : Upstream) : Prop :=
  ∀ user id, u.Coding user id → ∀ c : Sas, c.otherUserId = user → c.flowId = id →
    (u.sasState c).isFinal = false → u.getVerification user id = some (.sas c)

/-- No verification is under way. -/
structure Idle (u : Upstream) : Prop where
  sas : ∀ c, (u.sasState c).isFinal = true
  code : ∀ q, (u.codeState q).isFinal = true

/-- What is kept under a flow is dropped from the cache. -/
def collect (u : Upstream) (user id : String) : Upstream :=
  { u with
    verifications := Function.update u.verifications user ((u.verifications user).erase id) }

theorem Idle.keepsComparisons {u : Upstream} (h : u.Idle) : u.KeepsComparisons := by
  intro user id hcoding
  obtain ⟨q, -, -, hq⟩ := hcoding
  rw [h.code q] at hq
  cases hq

end Upstream

/-- The record holds a comparison and a code of one flow, both live, and the messages of
the flow do not go to the comparison. -/
def FlowRecord.Displaced (u : Upstream) (record : FlowRecord) : Prop :=
  ∃ c q, record.comparison = some c ∧ record.code = some q ∧
    (q.otherUserId = c.otherUserId ∧ q.flowId = c.flowId) ∧
      (u.sasState c).isFinal = false ∧ (u.codeState q).isFinal = false ∧
        u.getVerification c.otherUserId c.flowId ≠ some (.sas c)

/-- Where comparisons are kept, no record holds one that was displaced. -/
theorem Upstream.KeepsComparisons.not_displaced {u : Upstream} (h : u.KeepsComparisons)
    (record : FlowRecord) : ¬ record.Displaced u := by
  rintro ⟨c, q, -, -, ⟨huser, hid⟩, hc, hq, hroute⟩
  exact hroute (h _ _ ⟨q, huser, hid, hq⟩ c rfl rfl hc)

/-! ### The calls -/

/-- A call, between two of its sections. -/
inductive ScanningCall
  | read (call : ReadCall)
  | submit (call : SubmitCall)
  | begin (call : BeginCall)

/-- What a call returns. -/
inductive ScanningResult
  | read (out : Except CodeError ScannableCode)
  | submit (out : Except CodeError Unit)
  | begin (out : Except MachineError Unit)

/-- One section of a call. -/
inductive ScanningNext (F : CodeFormat) (s : FlowState) :
    ScanningCall → FlowState → ScanningCall ⊕ ScanningResult → Prop
  | read {ids : Identities} {call : ReadCall} {t : FlowState}
      {r : ReadCall ⊕ Except CodeError ScannableCode} (h : ReadNext F ids s call t r) :
      ScanningNext F s (.read call) t (Sum.map .read .read r)
  | submit {call : SubmitCall} {t : FlowState} {r : SubmitCall ⊕ Except CodeError Unit}
      (h : SubmitNext F s call t r) :
      ScanningNext F s (.submit call) t (Sum.map .submit .submit r)
  | begin {call : BeginCall} {t : FlowState} {r : BeginCall ⊕ Except MachineError Unit}
      (h : BeginNext s call t r) :
      ScanningNext F s (.begin call) t (Sum.map .begin .begin r)

/-- The moves of upstream, and of every other call. -/
inductive ScanningMove
  /-- A comparison goes on, for a message of either side. -/
  | sas (c : Sas) (state : SasState)
  | code (q : QrVerification) (state : QrVerificationState)
  /-- The other side's start of a comparison arrives for a request. -/
  | peerStarts (theirs : Sas)
  /-- It arrives for none. -/
  | bareStarts (theirs : Sas)
  /-- A verification that is over is dropped from upstream's cache. -/
  | collects (user id : String)
  /-- Anything else: the registry, the requests, what is tracked. -/
  | others

/-- The moves. -/
inductive ScanningMoves (s : FlowState) : ScanningMove → FlowState → Prop
  | sas (c : Sas) (state : SasState) (h : (s.upstream.sasState c).isFinal = false) :
      ScanningMoves s (.sas c state) { s with upstream := s.upstream.setSas c state }
  | code (q : QrVerification) (state : QrVerificationState)
      (h : (s.upstream.codeState q).isFinal = false) :
      ScanningMoves s (.code q state) { s with upstream := s.upstream.setCode q state }
  | peerStarts (r : VerificationRequest) (theirs : Sas) :
      ScanningMoves s (.peerStarts theirs) { s with upstream := s.upstream.receiveStart r theirs }
  | bareStarts (theirs : Sas) :
      ScanningMoves s (.bareStarts theirs)
        { s with upstream := s.upstream.insertSas theirs .started }
  | collects {user id : String} {v : Verification}
      (hv : s.upstream.getVerification user id = some v) (hover : isFinished (v.stage s.upstream)) :
      ScanningMoves s (.collects user id) { s with upstream := s.upstream.collect user id }
  | others {t : FlowState} (hsas : t.upstream.sasState = s.upstream.sasState)
      (hcode : t.upstream.codeState = s.upstream.codeState)
      (hroute : t.upstream.getVerification = s.upstream.getVerification) :
      ScanningMoves s .others t

/-- A call begins before its first section. -/
def ScanningCall.Begins : ScanningCall → Prop
  | read (.finding _ (.begins _)) | submit (.finding _ _ (.begins _))
  | begin (.finding _ (.begins _)) => True
  | _ => False

/-- Codes read and submitted, comparisons begun, and all that happens beside them. -/
def scanning (F : CodeFormat) : Calls FlowState ScanningCall ScanningResult ScanningMove where
  start := fun _ call => call.Begins
  next := ScanningNext F
  world := ScanningMoves

/-- What happens in one step. -/
abbrev ScanningEvent := Event ScanningCall ScanningResult ScanningMove

/-- All interleavings of them, from a process without a verification. -/
def scannings (F : CodeFormat) : TransitionSystem (Pool FlowState ScanningCall) ScanningEvent :=
  (scanning F).system fun s => s.upstream.Idle

/-! ### A step that drops nothing -/

/-- The request a call is about to ask upstream for a code of. -/
def ScanningCall.asks : ScanningCall → Option VerificationRequest
  | read (.building _ request _) => some request
  | submit (.scanning _ _ request) => some request
  | _ => none

/-- Upstream would answer it with a code. -/
def ScanningCall.answered (F : CodeFormat) (u : Upstream) : ScanningCall → Bool
  | read (.building _ request _) => u.showsCode request
  | submit (.scanning _ payload request) =>
    (F.fromBytes payload).isOk && u.scansCode request payload
  | _ => false

/-- Upstream would answer no call for a code of a flow whose comparison is live, and the other
side starts no comparison over one that is live beside a live code. -/
structure Clean (F : CodeFormat) (p : Pool FlowState ScanningCall) (e : ScanningEvent) : Prop where
  builds : ∀ call res r, e = .section call res → call.asks = some r →
    p.shared.upstream.Comparing r.otherUser r.flowId →
      call.answered F p.shared.upstream = false
  taken : ∀ theirs, e = .world (.peerStarts theirs) →
    p.shared.upstream.Comparing theirs.otherUserId theirs.flowId →
      ¬ p.shared.upstream.Coding theirs.otherUserId theirs.flowId

namespace Upstream

variable {u v : Upstream}

/-- Where nothing comes to be live and nothing is routed otherwise, comparisons are kept. -/
theorem KeepsComparisons.settles (h : u.KeepsComparisons)
    (hsas : ∀ c, (v.sasState c).isFinal = false → (u.sasState c).isFinal = false)
    (hcode : ∀ q, (v.codeState q).isFinal = false → (u.codeState q).isFinal = false)
    (hroute : v.getVerification = u.getVerification) : v.KeepsComparisons := by
  intro user id hcoding c huser hid hc
  obtain ⟨q, hquser, hqid, hq⟩ := hcoding
  rw [hroute]
  exact h user id ⟨q, hquser, hqid, hcode q hq⟩ c huser hid (hsas c hc)

/-- What is cancelled displaces nothing. -/
theorem KeepsComparisons.retires (h : u.KeepsComparisons) (hretires : u.Retires v) :
    v.KeepsComparisons := by
  refine h.settles (fun c => hretires.sas_live) (fun q => hretires.code_live) ?_
  unfold getVerification
  rw [hretires.verifications]

theorem KeepsComparisons.becomes (h : u.KeepsComparisons) (r : VerificationRequest)
    (x : Verification) : (u.becomes r x).KeepsComparisons :=
  h.settles (fun _ hc => hc) (fun _ hq => hq) rfl

/-- **A code built where no comparison is live drops none.** -/
theorem KeepsComparisons.carryCode (h : u.KeepsComparisons) {r : VerificationRequest}
    {q : QrVerification} (hflow : q.IsOf r) (state : QrVerificationState)
    (hnone : ¬ u.Comparing r.otherUser r.flowId) : (u.carryCode r q state).KeepsComparisons := by
  obtain ⟨w, state', hretires, -, hinsert⟩ := retires_insertCode u q state
  have hsas : (u.carryCode r q state).sasState = w.sasState := by
    unfold Upstream.carryCode
    rw [becomes_sasState, hinsert]
    rfl
  have hcodes : ∀ q', q' ≠ q → (u.carryCode r q state).codeState q' = w.codeState q' := by
    intro q' hne
    unfold Upstream.carryCode
    rw [becomes_codeState, hinsert, route_codeState, setCode_codeState_of_ne _ _ hne]
  intro user id hcoding c huser hid hc
  rw [hsas] at hc
  have hlive := hretires.sas_live hc
  by_cases hthis : user = q.otherUserId ∧ id = q.flowId
  · refine absurd ⟨c, ?_, ?_, hlive⟩ hnone
    · rw [huser, hthis.1, hflow.2]
    · rw [hid, hthis.2, hflow.1]
  · obtain ⟨q', hquser, hqid, hq'⟩ := hcoding
    have hne : q' ≠ q := by
      rintro rfl
      exact hthis ⟨hquser.symm, hqid.symm⟩
    rw [hcodes q' hne] at hq'
    rw [getVerification_carryCode, if_neg hthis]
    exact h user id ⟨q', hquser, hqid, hretires.code_live hq'⟩ c huser hid hlive

/-- **A comparison that is put in the cache drops none**: any other of its flow that is live
beside a code is there, and is cancelled. -/
theorem KeepsComparisons.insertSas (h : u.KeepsComparisons) (c : Sas) (state : SasState) :
    (u.insertSas c state).KeepsComparisons := by
  intro user id hcoding c' huser hid hc'
  have hroute : (u.insertSas c state).getVerification user id =
      if user = c.otherUserId ∧ id = c.flowId then some (.sas c)
      else u.getVerification user id := by
    unfold Upstream.insertSas
    rw [getVerification_route]
    show (if _ then _ else ((u.clear c.otherUserId).verifications user).get? id) = _
    rw [(retires_clear u c.otherUserId).verifications]
    rfl
  by_cases hc : c' = c
  · rw [hroute, hc, if_pos ⟨by rw [← huser, hc], by rw [← hid, hc]⟩]
  rw [insertSas_sasState_of_ne u hc] at hc'
  have hlive := (retires_clear u c.otherUserId).sas_live hc'
  obtain ⟨q, hquser, hqid, hq⟩ := hcoding
  rw [insertSas_codeState] at hq
  have hkept := h user id ⟨q, hquser, hqid, (retires_clear u c.otherUserId).code_live hq⟩ c' huser
    hid hlive
  by_cases hthis : user = c.otherUserId
  · rw [hthis] at hkept
    have hover := isFinal_clear hkept
    rw [hc'] at hover
    cases hover
  · rw [hroute, if_neg fun heq => hthis heq.1, hkept]

/-- **A comparison started where none is live beside a code drops none.** -/
theorem KeepsComparisons.carryTheirs (h : u.KeepsComparisons) (r : VerificationRequest) {c : Sas}
    (hclean : u.Comparing c.otherUserId c.flowId → ¬ u.Coding c.otherUserId c.flowId) :
    (u.carryTheirs r c).KeepsComparisons := by
  refine KeepsComparisons.becomes ?_ r _
  intro user id hcoding c' huser hid hc'
  have hcoding : u.Coding user id := hcoding
  rw [route_sasState] at hc'
  rw [getVerification_route]
  by_cases hc : c' = c
  · rw [hc, if_pos ⟨by rw [← huser, hc], by rw [← hid, hc]⟩]
  rw [setSas_sasState_of_ne u c hc] at hc'
  by_cases hthis : user = c.otherUserId ∧ id = c.flowId
  · rw [hthis.1, hthis.2] at hcoding
    exact absurd hcoding (hclean ⟨c', by rw [huser, hthis.1], by rw [hid, hthis.2], hc'⟩)
  · rw [if_neg hthis]
    exact h user id hcoding c' huser hid hc'

/-- `start_sas` drops no comparison for a code. -/
theorem KeepsComparisons.startSas (h : u.KeepsComparisons) {r : VerificationRequest} {c : Sas}
    (hstart : u.startSas r c = some v) : v.KeepsComparisons := by
  unfold Upstream.startSas at hstart
  split at hstart
  · split at hstart
    · cases hstart
      exact (h.insertSas c _).becomes r _
    · cases hstart
  · next verification _ =>
    cases hstart
    exact ((h.retires (retires_abandon u verification)).insertSas c _).becomes r _
  · cases hstart

/-- The other side's start drops none, where it is taken over none that is live beside a code. -/
theorem KeepsComparisons.receiveStart (h : u.KeepsComparisons) (r : VerificationRequest) {c : Sas}
    (hclean : u.Comparing c.otherUserId c.flowId → ¬ u.Coding c.otherUserId c.flowId) :
    (u.receiveStart r c).KeepsComparisons := by
  unfold Upstream.receiveStart
  split
  · exact (h.insertSas c _).becomes r _
  · split
    · exact h
    · exact h.carryTheirs r hclean
  · next q _ =>
    split
    · next hstarted =>
      have hcode : ∀ q', ((u.setCode q .cancelled).codeState q').isFinal = false →
          (u.codeState q').isFinal = false := by
        intro q' hq'
        by_cases hq : q' = q
        · rw [hq, setCode_codeState] at hq'
          cases hq'
        · rwa [setCode_codeState_of_ne _ _ hq] at hq'
      have hkeeps : (u.setCode q .cancelled).KeepsComparisons :=
        h.settles (fun _ hc => hc) hcode rfl
      refine hkeeps.carryTheirs r fun hcomparing hcoding => ?_
      obtain ⟨q', huser, hid, hq'⟩ := hcoding
      exact hclean hcomparing ⟨q', huser, hid, hcode q' hq'⟩
    · exact h
  · exact h

end Upstream

/-! ### What the sections do to upstream -/

theorem Upstream.generateQrCode_eq_some {u v : Upstream} {r : VerificationRequest}
    {q : QrVerification} (h : u.generateQrCode r q = some v) :
    u.showsCode r = true ∧ v = u.carryCode r q .started := by
  unfold generateQrCode at h
  split at h
  · next hshows => exact ⟨hshows, (Option.some.inj h).symm⟩
  · cases h

theorem Upstream.scanQrCode_eq_some {u v : Upstream} {r : VerificationRequest}
    {payload : List UInt8} {q : QrVerification} (h : u.scanQrCode r payload q = some v) :
    u.scansCode r payload = true ∧ v = u.carryCode r q .reciprocated := by
  unfold scanQrCode at h
  split at h
  · next hscans => exact ⟨hscans, (Option.some.inj h).symm⟩
  · cases h

/-- A result that is an error, or from which one follows. -/
inductive Refuses : ScanningCall ⊕ ScanningResult → Prop
  | read (e : CodeError) : Refuses (.inr (.read (.error e)))
  | explains (r : VerificationRequest) (n : Option CodeNegotiation) :
      Refuses (.inl (.read (.explaining r n)))
  | submit (e : CodeError) : Refuses (.inr (.submit (.error e)))

section sections

variable {F : CodeFormat} {s t : FlowState}

/-- `read_code` changes upstream where a code is built, and where none is, it refuses. -/
theorem ReadNext.upstream {ids : Identities} {call : ReadCall}
    {res : ReadCall ⊕ Except CodeError ScannableCode} (h : ReadNext F ids s call t res) :
    (t.upstream = s.upstream ∧ ∀ k r n, call = .building k r n →
        Refuses (Sum.map .read .read res)) ∨
      ∃ k r n q, call = .building k r n ∧ q.IsOf r ∧ s.upstream.showsCode r = true ∧
        t.upstream = s.upstream.carryCode r q .started := by
  cases h with
  | finds h => exact Or.inl ⟨h.upstream, by simp⟩
  | findsNone h => exact Or.inl ⟨h.upstream, by simp⟩
  | found h _ => exact Or.inl ⟨h.upstream, by simp⟩
  | requestless h _ => exact Or.inl ⟨h.upstream, by simp⟩
  | @builds k r n q u hflow hgenerate =>
    obtain ⟨hshows, hup⟩ := Upstream.generateQrCode_eq_some hgenerate
    exact Or.inr ⟨k, r, n, q, rfl, hflow, hshows, hup⟩
  | buildsNone => exact Or.inl ⟨rfl, fun _ _ _ _ => .explains _ _⟩
  | buildFails => exact Or.inl ⟨rfl, fun _ _ _ _ => .read _⟩
  | explains => exact Or.inl ⟨rfl, by simp⟩
  | draws _ => exact Or.inl ⟨rfl, by simp⟩
  | undrawable _ => exact Or.inl ⟨rfl, by simp⟩
  | remembers => exact Or.inl ⟨rfl, by simp⟩

/-- `submit_scanned_code` changes upstream where a code is built, and where none is, it
refuses.  One that was cancelled as it was built makes an error of the call. -/
theorem SubmitNext.upstream {call : SubmitCall} {res : SubmitCall ⊕ Except CodeError Unit}
    (h : SubmitNext F s call t res) :
    (t.upstream = s.upstream ∧ ∀ k payload r, call = .scanning k payload r →
        Refuses (Sum.map .submit .submit res)) ∨
      ∃ k payload r q, call = .scanning k payload r ∧ q.IsOf r ∧
        ((F.fromBytes payload).isOk && s.upstream.scansCode r payload) = true ∧
          t.upstream = s.upstream.carryCode r q .reciprocated ∧
            (t.upstream.codeState q ≠ .reciprocated →
              res = .inr (.error (.machine .wrongStage))) := by
  cases h with
  | finds h => exact Or.inl ⟨h.upstream, by simp⟩
  | findsNone h => exact Or.inl ⟨h.upstream, by simp⟩
  | found h _ => exact Or.inl ⟨h.upstream, by simp⟩
  | requestless h _ => exact Or.inl ⟨h.upstream, by simp⟩
  | undecoded _ => exact Or.inl ⟨rfl, fun _ _ _ _ => .submit _⟩
  | refused _ _ => exact Or.inl ⟨rfl, fun _ _ _ _ => .submit _⟩
  | scansNone _ => exact Or.inl ⟨rfl, fun _ _ _ _ => .submit _⟩
  | @scans k payload r data q outgoing u hdata hflow hscan hreciprocated =>
    obtain ⟨hscans, hup⟩ := Upstream.scanQrCode_eq_some hscan
    exact Or.inr ⟨k, payload, r, q, rfl, hflow, by rw [hdata, hscans]; rfl, hup,
      fun hne => absurd hreciprocated hne⟩
  | @unreciprocated k payload r data q u hdata hflow hscan _ =>
    obtain ⟨hscans, hup⟩ := Upstream.scanQrCode_eq_some hscan
    exact Or.inr ⟨k, payload, r, q, rfl, hflow, by rw [hdata, hscans]; rfl, hup, fun _ => rfl⟩
  | remembers => exact Or.inl ⟨rfl, by simp⟩
  | queues => exact Or.inl ⟨rfl, by simp⟩

/-- A call that asks for a code builds one, where upstream would answer it, or refuses and changes
nothing. -/
theorem ScanningNext.asking {call : ScanningCall} {res : ScanningCall ⊕ ScanningResult}
    {r : VerificationRequest} (hnext : ScanningNext F s call t res)
    (hasks : call.asks = some r) :
    t.upstream = s.upstream ∧ Refuses res ∨
      call.answered F s.upstream = true ∧ ∃ q state, q.IsOf r ∧
        t.upstream = s.upstream.carryCode r q state := by
  cases hnext with
  | @read ids call t res hread =>
    rcases hread.upstream with ⟨hup, hrefuses⟩ | ⟨k, r', n, q, rfl, hflow, hshows, hup⟩
    · cases call with
      | building k r' n => exact Or.inl ⟨hup, hrefuses k r' n rfl⟩
      | _ => cases hasks
    · cases hasks
      exact Or.inr ⟨hshows, q, _, hflow, hup⟩
  | @submit call t res hsubmit =>
    rcases hsubmit.upstream with ⟨hup, hrefuses⟩ | ⟨k, payload, r', q, rfl, hflow, hscans, hup, -⟩
    · cases call with
      | scanning k payload r' => exact Or.inl ⟨hup, hrefuses k payload r' rfl⟩
      | _ => cases hasks
    · cases hasks
      exact Or.inr ⟨hscans, q, _, hflow, hup⟩
  | begin hbegin => cases hasks

/-- **A code that is built beside a comparison cancels it**, and the messages of the flow go to
the code. -/
theorem ScanningNext.loses {call : ScanningCall} {res : ScanningCall ⊕ ScanningResult}
    {r : VerificationRequest} {c : Sas} (hnext : ScanningNext F s call t res)
    (hasks : call.asks = some r) (hbuilt : t.upstream ≠ s.upstream)
    (hroute : s.upstream.getVerification r.otherUser r.flowId = some (.sas c)) :
    (t.upstream.sasState c).isFinal = true ∧
      ∃ q, t.upstream.getVerification r.otherUser r.flowId = some (.qr q) := by
  rcases hnext.asking hasks with ⟨hsame, -⟩ | ⟨-, q, state, hflow, hup⟩
  · exact absurd hsame hbuilt
  · rw [← hflow.1, ← hflow.2] at hroute ⊢
    rw [hup]
    refine ⟨Upstream.isFinal_carryCode _ r q state hroute fun q' hq' => ?_, q, ?_⟩
    · rw [hroute] at hq'
      cases hq'
    · rw [Upstream.getVerification_carryCode, if_pos ⟨rfl, rfl⟩]

/-- `submit_scanned_code` refuses beside one that was live, which it cancelled all the same. -/
theorem SubmitNext.wrongStage {k : String} {payload : List UInt8} {r : VerificationRequest}
    {res : SubmitCall ⊕ Except CodeError Unit} {c : Sas}
    (h : SubmitNext F s (.scanning k payload r) t res) (hbuilt : t.upstream ≠ s.upstream)
    (hroute : s.upstream.getVerification r.otherUser r.flowId = some (.sas c))
    (hlive : (s.upstream.sasState c).isFinal = false) :
    res = .inr (.error (.machine .wrongStage)) := by
  rcases h.upstream with ⟨hsame, -⟩ | ⟨k', payload', r', q, hcall, hflow, -, hup, hanswer⟩
  · exact absurd hsame hbuilt
  · cases hcall
    rw [← hflow.1, ← hflow.2] at hroute
    apply hanswer
    rw [hup, Upstream.codeState_carryCode _ r q _ hroute hlive]
    simp

/-! ### Clean steps -/

/-- A clean section of a call keeps comparisons. -/
theorem keepsComparisons_section {p q : Pool FlowState ScanningCall} {call : ScanningCall}
    {res : ScanningCall ⊕ ScanningResult} (hclean : Clean F p (.section call res))
    (hnext : ScanningNext F p.shared call q.shared res)
    (h : p.shared.upstream.KeepsComparisons) : q.shared.upstream.KeepsComparisons := by
  cases hasks : call.asks with
  | some r =>
    rcases hnext.asking hasks with ⟨hsame, -⟩ | ⟨hanswered, c, state, hflow, hup⟩
    · rw [hsame]
      exact h
    · rw [hup]
      refine h.carryCode hflow state fun hcomparing => ?_
      rw [hclean.builds call res r rfl hasks hcomparing] at hanswered
      cases hanswered
  | none =>
    generalize q.shared = t at hnext
    cases hnext with
    | read hread =>
      rcases hread.upstream with ⟨hup, -⟩ | ⟨k, r, n, c, rfl, -⟩
      · rw [hup]
        exact h
      · cases hasks
    | submit hsubmit =>
      rcases hsubmit.upstream with ⟨hup, -⟩ | ⟨k, payload, r, c, rfl, -⟩
      · rw [hup]
        exact h
      · cases hasks
    | begin hbegin =>
      rcases hbegin.upstream with hup | ⟨k, r, c, -, -, hstart⟩
      · rw [hup]
        exact h
      · exact h.startSas hstart

/-- A clean move of upstream keeps comparisons. -/
theorem keepsComparisons_world {p q : Pool FlowState ScanningCall} {e : ScanningMove}
    (hclean : Clean F p (.world e)) (hmove : ScanningMoves p.shared e q.shared)
    (h : p.shared.upstream.KeepsComparisons) : q.shared.upstream.KeepsComparisons := by
  generalize q.shared = t at hmove
  cases hmove with
  | sas c state hlive =>
    show (p.shared.upstream.setSas c state).KeepsComparisons
    refine h.settles ?_ (fun q hq => hq) rfl
    intro c' hc'
    by_cases hc : c' = c
    · rw [hc]
      exact hlive
    · have hc' : ((p.shared.upstream.setSas c state).sasState c').isFinal = false := hc'
      rwa [Upstream.setSas_sasState_of_ne _ c hc] at hc'
  | code d state hlive =>
    show (p.shared.upstream.setCode d state).KeepsComparisons
    refine h.settles (fun c hc => hc) ?_ rfl
    intro d' hd'
    by_cases hd : d' = d
    · rw [hd]
      exact hlive
    · have hd' : ((p.shared.upstream.setCode d state).codeState d').isFinal = false := hd'
      rwa [Upstream.setCode_codeState_of_ne _ d hd] at hd'
  | peerStarts r theirs => exact h.receiveStart r (hclean.taken theirs rfl)
  | bareStarts theirs => exact h.insertSas theirs .started
  | @collects user id v hv hover =>
    intro user' id' hcoding c huser hid hc
    have hroute := h user' id' hcoding c huser hid hc
    have hcollect : (p.shared.upstream.collect user id).getVerification user' id' =
        if user' = user ∧ id' = id then none else p.shared.upstream.getVerification user' id' := by
      show ((Function.update p.shared.upstream.verifications user
        ((p.shared.upstream.verifications user).erase id)) user').get? id' = _
      by_cases huser : user' = user
      · subst huser
        rw [Function.update_self, OrdMap.get?_erase]
        simp [Upstream.getVerification]
      · rw [Function.update_of_ne huser, if_neg fun h => huser h.1]
        rfl
    show (p.shared.upstream.collect user id).getVerification user' id' = _
    rw [hcollect, if_neg, hroute]
    -- what is dropped is over, and the comparison is not
    rintro ⟨rfl, rfl⟩
    rw [hroute] at hv
    obtain rfl := Option.some.inj hv
    have hfinal : isFinished (stageOfComparison (p.shared.upstream.sasState c)) = true := hover
    have hc : (p.shared.upstream.sasState c).isFinal = false := hc
    rw [isFinished_stageOfComparison, hc] at hfinal
    cases hfinal
  | others hsas hcode hroute =>
    apply h.settles _ _ hroute
    · intro c hc
      rwa [hsas] at hc
    · intro d hd
      rwa [hcode] at hd

/-- **A clean step drops no comparison for a code.** -/
theorem keepsComparisons_step {p q : Pool FlowState ScanningCall} {e : ScanningEvent}
    (hstep : ((scannings F).restrict (Clean F)).step p e q)
    (h : p.shared.upstream.KeepsComparisons) : q.shared.upstream.KeepsComparisons := by
  obtain ⟨hclean, hstep⟩ := hstep
  cases e with
  | start call =>
    obtain ⟨-, rfl⟩ := hstep
    exact h
  | «section» call res =>
    obtain ⟨before, after, -, hnext, -⟩ := hstep
    exact keepsComparisons_section hclean hnext h
  | world e => exact keepsComparisons_world hclean hstep.1 h

/-- Comparisons are kept along clean runs. -/
theorem keepsComparisons_of_reachable {p : Pool FlowState ScanningCall}
    (h : ((scannings F).restrict (Clean F)).Reachable p) : p.shared.upstream.KeepsComparisons := by
  refine h.invariant (I := fun p => p.shared.upstream.KeepsComparisons) ?_ ?_
  · intro p hinit
    exact hinit.1.keepsComparisons
  · intro p e q hp hstep
    exact keepsComparisons_step hstep hp

/-- A `read_code` that explains itself returns an error. -/
theorem ScanningNext.explains {r : VerificationRequest} {n : Option CodeNegotiation}
    {res : ScanningCall ⊕ ScanningResult}
    (hnext : ScanningNext F s (.read (.explaining r n)) t res) :
    t = s ∧ ∃ e, res = .inr (.read (.error e)) := by
  generalize hc : ScanningCall.read (.explaining r n) = call at hnext
  cases hnext with
  | read hread =>
    obtain rfl := ScanningCall.read.inj hc
    cases hread with
    | explains => exact ⟨rfl, _, rfl⟩
  | submit => cases hc
  | begin => cases hc

end sections

/-- What one step leaves of the comparisons that are under way. -/
structure Spared (p : Pool FlowState ScanningCall) (e : ScanningEvent)
    (q : Pool FlowState ScanningCall) : Prop where
  /-- No record holds one that was displaced. -/
  records : ∀ id record, p.shared.flows.get? id = some record →
    ¬ record.Displaced p.shared.upstream
  /-- A call for a code of the flow is refused, and upstream stays as it is. -/
  refused : ∀ call res r, e = .section call res → call.asks = some r →
    p.shared.upstream.Comparing r.otherUser r.flowId →
      q.shared.upstream = p.shared.upstream ∧ Refuses res
  /-- What refuses it comes to an error. -/
  explained : ∀ r n res, e = .section (.read (.explaining r n)) res →
    q.shared = p.shared ∧ ∃ error, res = .inr (.read (.error error))

/-- **Along clean runs, comparisons are spared**: calls for a code are refused beside one,
and no record holds one that was displaced. -/
theorem spared_of_clean (F : CodeFormat) {p q : Pool FlowState ScanningCall} {e : ScanningEvent}
    (hp : ((scannings F).restrict (Clean F)).Reachable p)
    (hstep : ((scannings F).restrict (Clean F)).step p e q) : Spared p e q := by
  have hkeeps := keepsComparisons_of_reachable hp
  refine ⟨fun _ record _ => hkeeps.not_displaced record, ?_, ?_⟩
  · rintro call res r rfl hasks hcomparing
    obtain ⟨hclean, before, after, -, hnext, -⟩ := hstep
    rcases hnext.asking hasks with hrefuses | ⟨hanswered, -⟩
    · exact hrefuses
    · rw [hclean.builds call res r rfl hasks hcomparing] at hanswered
      cases hanswered
  · rintro r n res rfl
    obtain ⟨-, before, after, -, hnext, -⟩ := hstep
    exact hnext.explains

/-! ### A run that reads a code beside a comparison -/

section runs

/-- Nothing is under way, and the request of the flow is ready, for codes as well. -/
def idleUpstream : Upstream :=
  { readyUpstream with
    requestState := fun _ => .ready [.sasV1, .qrCodeShowV1, .reciprocateV1]
      [.sasV1, .qrCodeScanV1, .reciprocateV1]
    sasState := fun _ => .cancelled
    codeState := fun _ => .cancelled }

/-- The record of the flow. -/
def idleRecord : FlowRecord := (FlowRecord.fromRequest bobsRequest).filled idleUpstream

/-- The registry holds the flow. -/
def idleState : FlowState where
  flows := OrdMap.empty.insert "f1" idleRecord
  upstream := idleUpstream
  requests := .initial
  observed := false

/-- Upstream has started a comparison, and its messages go there. -/
def comparingUpstream : Upstream :=
  (idleUpstream.insertSas (oursOf 1) .created).becomes bobsRequest (.sas (oursOf 1))

/-- `begin_comparison` has returned. -/
def comparingState : FlowState :=
  { idleState with
    flows := idleState.flows.rememberComparison "f1" (oursOf 1)
    upstream := comparingUpstream
    requests := idleState.requests.queueActionRequest (openingOf "o1") }

/-- The record of the flow, once its comparison is remembered. -/
def comparingRecord : FlowRecord := idleRecord.setComparison (oursOf 1)

/-- A call has found the flow. -/
def soughtState : FlowState :=
  { comparingState with flows := (comparingState.flows.cached comparingUpstream "f1").2 }

/-- The code upstream builds. -/
def codeOfFlow : QrVerification := ⟨1, "f1", "@bob:example.org"⟩

/-- A step that asks for no code is clean. -/
theorem clean_section {F : CodeFormat} {p : Pool FlowState ScanningCall} {call : ScanningCall}
    {res : ScanningCall ⊕ ScanningResult} (hasks : call.asks = none) :
    Clean F p (.section call res) := by
  refine ⟨?_, ?_⟩
  · rintro call res r ⟨⟩ h
    rw [hasks] at h
    cases h
  · intro theirs h
    cases h

theorem clean_start (F : CodeFormat) (p : Pool FlowState ScanningCall) (call : ScanningCall) :
    Clean F p (.start call) := by
  refine ⟨?_, ?_⟩
  · intro call res r h
    cases h
  · intro theirs h
    cases h

/-- A call begins, where there is none. -/
theorem begins_alone (F : CodeFormat) {s : FlowState} (call : ScanningCall)
    (hcall : call.Begins) : ((scannings F).restrict (Clean F)).step ⟨s, []⟩ (.start call)
      ⟨s, [call]⟩ :=
  ⟨clean_start F _ _, Calls.step_start (scanning F) hcall⟩

/-- One section of a call that is alone. -/
theorem lone_section {F : CodeFormat} {s t : FlowState} {call : ScanningCall}
    {res : ScanningCall ⊕ ScanningResult} (h : ScanningNext F s call t res) :
    (scannings F).step ⟨s, [call]⟩ (.section call res) ⟨t, remaining res ++ []⟩ :=
  Calls.step_section (scanning F) [] [] h

/-- One that asks for nothing. -/
theorem asking_nothing {F : CodeFormat} {s t : FlowState} {call : ScanningCall}
    {res : ScanningCall ⊕ ScanningResult} (h : ScanningNext F s call t res)
    (hasks : call.asks = none) :
    ((scannings F).restrict (Clean F)).step ⟨s, [call]⟩ (.section call res)
      ⟨t, remaining res ++ []⟩ :=
  ⟨clean_section hasks, lone_section h⟩

/-- `begin_comparison` runs whole. -/
theorem comparing_run : ∃ es, ((scannings exampleFormat).restrict (Clean exampleFormat)).Run
    ⟨idleState, []⟩ es ⟨comparingState, []⟩ ∧ Calls.returned es = [.begin (.ok ())] := by
  have hget : idleState.flows.get? "f1" = some idleRecord := rfl
  have hchecked : BeginNext idleState (.checking "f1" (idleRecord.filled idleUpstream).handles)
      idleState (.inl (.starting "f1" bobsRequest)) := .ready rfl rfl
  have hstarts : BeginNext idleState (.starting "f1" bobsRequest)
      { idleState with upstream := comparingUpstream }
      (.inl (.remembering "f1" (oursOf 1) (openingOf "o1"))) :=
    .starts (fun _ h => by cases h) ⟨rfl, rfl⟩ rfl
  have hrun := TransitionSystem.Run.cons (begins_alone exampleFormat
      (.begin (.finding "f1" (.begins "f1"))) trivial)
    (.cons (asking_nothing (.begin (.found (@LookupNext.hit idleState "f1" _ hget))) rfl)
      (.cons (asking_nothing (.begin hchecked) rfl)
        (.cons (asking_nothing (.begin hstarts) rfl)
          (.cons (asking_nothing (.begin .remembers) rfl)
            (.single (asking_nothing (.begin .queues) rfl))))))
  exact ⟨_, hrun, rfl⟩

theorem idleState_idle : idleState.upstream.Idle := ⟨fun _ => rfl, fun _ => rfl⟩

/-- A payload that is no code is refused beside the comparison, which is spared. -/
theorem spared_comparingState : ∃ p call res q, Spared p (.section call res) q ∧
    call.asks = some bobsRequest ∧
      p.shared.upstream.Comparing "@bob:example.org" "f1" ∧ Refuses res := by
  have hget : comparingState.flows.get? "f1" = some comparingRecord := rfl
  have hfound : SubmitNext exampleFormat comparingState (.finding "f1" [] (.begins "f1"))
      soughtState (.inl (.scanning "f1" [] bobsRequest)) :=
    .found (@LookupNext.hit comparingState "f1" comparingRecord hget) rfl
  have hundecoded : SubmitNext exampleFormat soughtState (.scanning "f1" [] bobsRequest)
      soughtState (.inr (.error .scannedCodeUnrecognised)) :=
    @SubmitNext.undecoded exampleFormat soughtState "f1" [] bobsRequest .header rfl
  obtain ⟨es, hrun, -⟩ := comparing_run
  have hsought := hrun.append (.cons
    (begins_alone exampleFormat (.submit (.finding "f1" [] (.begins "f1"))) trivial)
    (.single (asking_nothing (.submit hfound) rfl)))
  have hstep : ((scannings exampleFormat).restrict (Clean exampleFormat)).step
      ⟨soughtState, [.submit (.scanning "f1" [] bobsRequest)]⟩
      (.section (.submit (.scanning "f1" [] bobsRequest))
        (.inr (.submit (.error .scannedCodeUnrecognised)))) ⟨soughtState, []⟩ := by
    refine ⟨⟨?_, ?_⟩, lone_section (.submit hundecoded)⟩
    · rintro call res r ⟨⟩ - -
      rfl
    · intro theirs h
      cases h
  exact ⟨_, _, _, _, spared_of_clean exampleFormat ⟨_, _, ⟨idleState_idle, rfl⟩, hsought⟩ hstep,
    rfl, ⟨oursOf 1, rfl, rfl, rfl⟩, .submit _⟩

/-- Upstream has built the code, which took the place of the comparison. -/
def displacedState : FlowState :=
  { soughtState with upstream := comparingUpstream.carryCode bobsRequest codeOfFlow .started }

/-- **Reading a code displaces a comparison**: `begin_comparison` and then `read_code`, each
alone and each to its end, both succeed on one flow.  The comparison was live when the code was
asked for, and is cancelled; the messages of the flow go to the code, which is as dead. -/
theorem comparison_displaced : ∃ es p es' q,
    (scannings exampleFormat).Run ⟨idleState, []⟩ es p ∧ idleState.upstream.Idle ∧
      p.calls = [] ∧ Calls.returned es = [.begin (.ok ())] ∧
      p.shared.upstream.sasState (oursOf 1) = .created ∧
      p.shared.upstream.getVerification "@bob:example.org" "f1" = some (.sas (oursOf 1)) ∧
    (scannings exampleFormat).Run p es' q ∧ q.calls = [] ∧
      (∃ scannable, Calls.returned es' = [.read (.ok scannable)]) ∧
      q.shared.upstream.sasState (oursOf 1) = .cancelled ∧
      q.shared.upstream.codeState codeOfFlow = .cancelled ∧
      q.shared.upstream.getVerification "@bob:example.org" "f1" = some (.qr codeOfFlow) := by
  have hget : comparingState.flows.get? "f1" = some comparingRecord := rfl
  have hfound : ReadNext exampleFormat ⟨fun _ => .ok true, true⟩ comparingState
      (.finding "f1" (.begins "f1")) soughtState (.inl (.building "f1" bobsRequest
        (comparingRecord.filled comparingUpstream).negotiation)) :=
    .found (@LookupNext.hit comparingState "f1" comparingRecord hget) rfl
  have hbuilds : ReadNext exampleFormat ⟨fun _ => .ok true, true⟩ soughtState
      (.building "f1" bobsRequest (comparingRecord.filled comparingUpstream).negotiation)
      displacedState (.inl (.drawing "f1" codeOfFlow)) := .builds ⟨rfl, rfl⟩ rfl
  obtain ⟨scannable, hdrawn⟩ : ∃ scannable, draw exampleFormat codeOfFlow = .ok scannable :=
    ⟨_, rfl⟩
  have hdraws : ReadNext exampleFormat ⟨fun _ => .ok true, true⟩ displacedState
      (.drawing "f1" codeOfFlow) displacedState (.inl (.remembering "f1" codeOfFlow scannable)) :=
    .draws hdrawn
  have hremembers : ReadNext exampleFormat ⟨fun _ => .ok true, true⟩ displacedState
      (.remembering "f1" codeOfFlow scannable)
      { displacedState with flows := displacedState.flows.rememberCode "f1" codeOfFlow }
      (.inr (.ok scannable)) := .remembers
  obtain ⟨es, hrun, hreturned⟩ := comparing_run
  have hread := TransitionSystem.Run.cons (begins_alone exampleFormat
      (.read (.finding "f1" (.begins "f1"))) trivial)
    (.single (asking_nothing (.read hfound) rfl))
  have hdisplaced := hread.of_restrict.append (.cons (lone_section (.read hbuilds))
    (.cons (lone_section (.read hdraws)) (.single (lone_section (.read hremembers)))))
  exact ⟨es, _, _, _, hrun.of_restrict, idleState_idle, rfl, hreturned, by decide, by decide,
    hdisplaced, rfl, ⟨scannable, rfl⟩, rfl, rfl, rfl⟩

end runs

end MatrixCrypto
