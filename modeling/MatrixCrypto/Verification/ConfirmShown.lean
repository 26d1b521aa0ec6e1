import MatrixCrypto.Verification.ConfirmActs
import MatrixCrypto.Verification.Material
import MatrixCrypto.Verification.Retention

/-!
# Confirming what was shown

`confirmVerification` is handed the string the product showed.  It reads the flow's
string and checks the two against each other, and then makes a second native call,
which looks its identifier up again and confirms whatever comparison it finds.

## Main definitions

* `Confirmation` — the arguments of a call.
* `FacadeCall`, `FacadeNext`, `facadeFlows` — these calls, among confirmations,
  cancellations, syncs and takes.
* `FacadeMoves` — what else happens: sections on the flow registry, moves of upstream.
* `Upstream.KeepsShown` — upstream never changes a string it showed.
* `StillLeads` — a confirmation comes back to the comparison it read, still on screen.
* `ConfirmedShown` — what was confirmed showed what was handed over.

## Main results

* `confirmation_of_what_was_shown` — **a confirmation that still leads there names the string
  that was shown**, and one handed another string confirms nothing.
* `another_confirmed` — a run in which another comparison is confirmed.
-/

namespace MatrixCrypto

open Lib Relation

/-! ### What upstream keeps to -/

/-- The comparison has shown the string: it shows it, or has moved on from it. -/
def SasState.HasShown (m : SasMaterial) : SasState → Prop
  | keysExchanged emojis decimals => materialOf emojis decimals = m
  | confirmed | done _ | cancelled => True
  | created | started | accepted => False

/-- A string does not change once the keys are exchanged, and nothing goes back there. -/
def Upstream.KeepsShown (u v : Upstream) : Prop :=
  ∀ c m, (u.sasState c).HasShown m → (v.sasState c).HasShown m

/-- A comparison at `KeysExchanged` that has shown a string shows that one. -/
theorem SasState.HasShown.shows {state : SasState} {m : SasMaterial} (h : state.HasShown m)
    (hstage : stageOfComparison state = .keysExchanged) :
    ∃ emojis decimals, state = .keysExchanged emojis decimals ∧ materialOf emojis decimals = m := by
  cases state with
  | keysExchanged emojis decimals => exact ⟨emojis, decimals, rfl, h⟩
  | _ => cases hstage

/-! ### The calls -/

/-- The arguments of a confirmation. -/
structure Confirmation where
  verificationId : String
  data : JsValue

/-- A call, between two of its sections. -/
inductive FacadeCall
  /-- `confirmVerification`: `getVerificationMaterial`, finding its flow. -/
  | reading (a : Confirmation) (l : Lookup)
  /-- It has the handles; about to read the string. -/
  | showing (a : Confirmation) (handles : Handles)
  /-- It has the string, of a comparison it is not told; about to check what it was handed. -/
  | comparing (a : Confirmation) (shown : Sas) (current : SasMaterial)
  /-- They are the same; the second native call. -/
  | confirming (a : Confirmation) (shown : Sas) (current : SasMaterial) (call : ConfirmCall)
  /-- Any other call: `confirm_flow` by itself, `cancel_flow`, a sync or a take. -/
  | other (call : ClosingCall)

/-- What `confirmVerification` rejects with. -/
inductive FacadeError
  | machine (e : MachineError)
  | materialMismatch
  deriving DecidableEq, Repr

/-- What a call returns. -/
inductive FacadeResult
  | confirmed (out : Except FacadeError Unit)
  | other (out : ClosingResult)

/-- What the second native call returns, as the facade passes it on. -/
def ConfirmResult.toFacade : ConfirmResult → FacadeResult
  | confirmed out => .confirmed (out.mapError .machine)
  | out => .other (.confirm out)

/-- One section of a call. -/
inductive FacadeNext (M : Messages) (account : String) (s : ConfirmState) :
    FacadeCall → ConfirmState → FacadeCall ⊕ FacadeResult → Prop
  | finds {a : Confirmation} {l l' : Lookup} {f : FlowState}
      (h : LookupNext s.flow l f (.inl l')) :
      FacadeNext M account s (.reading a l) { s with flow := f } (.inl (.reading a l'))
  | findsNone {a : Confirmation} {l : Lookup} {f : FlowState} {e : MachineError}
      (h : LookupNext s.flow l f (.inr (.error e))) :
      FacadeNext M account s (.reading a l) { s with flow := f }
        (.inr (.confirmed (.error (.machine e))))
  | found {a : Confirmation} {l : Lookup} {f : FlowState} {handles : Handles}
      (h : LookupNext s.flow l f (.inr (.ok handles))) :
      FacadeNext M account s (.reading a l) { s with flow := f } (.inl (.showing a handles))
  | reads {a : Confirmation} {handles : Handles} {shown : Sas} {m : SasMaterial}
      (hshown : handles.comparison = some shown)
      (h : readMaterial s.flow.upstream handles = .ok m) :
      FacadeNext M account s (.showing a handles) s
        (.inl (.comparing a shown (sasMaterialOf m.toNative)))
  | readFails {a : Confirmation} {handles : Handles} {e : MachineError}
      (h : readMaterial s.flow.upstream handles = .error e) :
      FacadeNext M account s (.showing a handles) s (.inr (.confirmed (.error (.machine e))))
  | differs {a : Confirmation} {shown : Sas} {current : SasMaterial}
      (h : sameMaterial current a.data = false) :
      FacadeNext M account s (.comparing a shown current) s
        (.inr (.confirmed (.error .materialMismatch)))
  | agrees {a : Confirmation} {shown : Sas} {current : SasMaterial}
      (h : sameMaterial current a.data = true) :
      FacadeNext M account s (.comparing a shown current) s
        (.inl (.confirming a shown current (.finding (.begins a.verificationId))))
  | goesOn {a : Confirmation} {shown : Sas} {current : SasMaterial} {call call' : ConfirmCall}
      {t : ConfirmState} (h : ConfirmNext M account s call t (.inl call')) :
      FacadeNext M account s (.confirming a shown current call) t
        (.inl (.confirming a shown current call'))
  | returns {a : Confirmation} {shown : Sas} {current : SasMaterial} {call : ConfirmCall}
      {t : ConfirmState} {out : ConfirmResult} (h : ConfirmNext M account s call t (.inr out)) :
      FacadeNext M account s (.confirming a shown current call) t (.inr out.toFacade)
  | other {call : ClosingCall} {t : ConfirmState} {r : ClosingCall ⊕ ClosingResult}
      (h : ClosingNext M account s call t r) :
      FacadeNext M account s (.other call) t (Sum.map .other .other r)

/-- A call begins before its first section. -/
def FacadeCall.Begins : FacadeCall → Prop
  | reading a l => l = .begins a.verificationId
  | other call => call.Begins
  | _ => False

/-! ### What else happens -/

/-- A section of another call on the flow registry. -/
inductive FlowState.FlowsSection (s : FlowState) : Registry → Prop
  | looks (id : String) : FlowsSection s (s.flows.cached s.upstream id).2
  | registers (id : String) (record : FlowRecord) :
      FlowsSection s (s.flows.register s.upstream s.observed id record).2
  | registersNew (id : String) (record : FlowRecord) :
      FlowsSection s (s.flows.registerIfAbsent s.upstream s.observed id record).2
  | remembers (id : String) (v : Verification) : FlowsSection s (s.flows.remember id v)
  | forgets (id : String) : FlowsSection s (s.flows.forgetFlow id)
  | announces : FlowsSection s (s.flows.takePendingCompletions s.upstream).2
  | queries : FlowsSection s (s.flows.peersOwedAKeyQuery s.upstream).2

/-- A move of the outside world. -/
inductive FacadeMove
  /-- Another call's section on the flow registry. -/
  | flows (flows : Registry)
  /-- Another call writes to the request registry. -/
  | writes (requests : RequestState)
  /-- Upstream moves: a sync, or the trip of another call. -/
  | upstream (u : Upstream)
  /-- Upstream offers other messages, or was told that some are sent. -/
  | offers (cache : List UpstreamOutgoingRequest)
  /-- Somebody subscribes to the signals, or nobody is subscribed any more. -/
  | observes (observed : Bool)

/-- The moves. -/
inductive FacadeMoves (M : Messages) (s : ConfirmState) : FacadeMove → ConfirmState → Prop
  | flows {flows : Registry} (h : s.flow.FlowsSection flows) :
      FacadeMoves M s (.flows flows) { s with flow := { s.flow with flows := flows } }
  | writes {requests : RequestState} (h : M.OtherWrite s.flow.requests requests) :
      FacadeMoves M s (.writes requests) { s with flow := { s.flow with requests := requests } }
  | upstream {u : Upstream} (h : s.flow.upstream.Settles u) :
      FacadeMoves M s (.upstream u) { s with flow := { s.flow with upstream := u } }
  | offers {cache : List UpstreamOutgoingRequest}
      (h : ∀ r ∈ cache, r ∈ s.cache ∨ M.Foreign r.requestId) :
      FacadeMoves M s (.offers cache) { s with cache := cache }
  | observes {observed : Bool} :
      FacadeMoves M s (.observes observed) { s with flow := { s.flow with observed := observed } }

/-- The calls, over an upstream that keeps what it has shown. -/
def facadeFlows (M : Messages) (account : String) :
    Calls ConfirmState FacadeCall FacadeResult FacadeMove where
  start := fun _ call => call.Begins
  next := fun s call t r =>
    s.flow.upstream.KeepsShown t.flow.upstream ∧ FacadeNext M account s call t r
  world := fun s e t => s.flow.upstream.KeepsShown t.flow.upstream ∧ FacadeMoves M s e t

abbrev FacadeEvent := Event (ℕ × FacadeCall) FacadeResult FacadeMove

abbrev FacadePool := Pool ConfirmState (ℕ × FacadeCall)

/-- All interleavings of them, from any state; the calls are named by numbers. -/
def facade (M : Messages) (account : String) : TransitionSystem FacadePool FacadeEvent :=
  ((facadeFlows M account).naming ℕ).system fun _ => True

/-! ### What a confirmation leads to -/

/-- The comparison a lookup is about to be answered with: of the record the registry holds,
or of the one that is registered. -/
def Lookup.leadsTo (s : FlowState) : Lookup → Option Sas
  | begins id => (s.flows.get? id).bind (FlowRecord.comparisonOf s.upstream)
  | adopting id record =>
    (((s.flows.releaseFinished s.upstream s.observed).get? id).getD record).comparisonOf s.upstream
  | _ => none

/-- A lookup is answered with the comparison it was about to be. -/
theorem LookupNext.leads {s t : FlowState} {l : Lookup} {handles : Handles}
    (h : LookupNext s l t (.inr (.ok handles))) : handles.comparison = l.leadsTo s := by
  generalize hr : (Sum.inr (.ok handles) : Lookup ⊕ Except MachineError Handles) = res at h
  cases h with
  | @hit id record hget =>
    obtain rfl := Except.ok.inj (Sum.inr.inj hr)
    rw [Lookup.leadsTo, hget]
    rfl
  | @register id record =>
    obtain rfl := Except.ok.inj (Sum.inr.inj hr)
    rfl
  | _ => cases hr

/-- Where a confirmation looks its identifier up again, it still leads to the comparison
whose string was read; and where upstream's `confirm` runs, that string is still on screen. -/
def StillLeads (p : FacadePool) : FacadeEvent → Prop
  | .section (_, .confirming _ shown _ (.finding l)) (.inl (_, .confirming _ _ _ (.checking _))) =>
    ∀ c, l.leadsTo p.shared.flow = some c → c = shown
  | .section (_, .confirming _ _ _ (.confirming c)) (.inl _) =>
    stageOfComparison (p.shared.flow.upstream.sasState c) = .keysExchanged
  | _ => True

/-- Upstream's `confirm` ran for the call named, and returned messages to it. -/
def facadeConfirms (n : ℕ) (a : Confirmation) (shown : Sas) (current : SasMaterial) (c : Sas)
    (messages : List UpstreamOutgoingRequest) : FacadeEvent :=
  .section (n, .confirming a shown current (.confirming c))
    (.inl (n, .confirming a shown current (.queueing messages)))

/-- The call named resolves. -/
def resolves (n : ℕ) (a : Confirmation) (shown : Sas) (current : SasMaterial) : FacadeEvent :=
  .section (n, .confirming a shown current (.queueing [])) (.inr (.confirmed (.ok ())))

/-- The call named has read the string. -/
def readsMaterial (n : ℕ) (a : Confirmation) (handles : Handles) (shown : Sas)
    (current : SasMaterial) : FacadeEvent :=
  .section (n, .showing a handles) (.inl (n, .comparing a shown current))

/-- Between `p` and `q` the call named confirmed a comparison, which at that moment had
exactly the decimals and the symbols of what the call was handed. -/
def ConfirmedShown (M : Messages) (account : String) (p : FacadePool) (es : List FacadeEvent)
    (q : FacadePool) (n : ℕ) (a : Confirmation) : Prop :=
  ∃ shown current c rest before s t after emojis decimals,
    es = before ++ facadeConfirms n a shown current c (M.confirmation c :: rest) :: after ∧
    (facade M account).Run p before s ∧
    (facade M account).step s (facadeConfirms n a shown current c (M.confirmation c :: rest)) t ∧
    (facade M account).Run t after q ∧
    s.shared.flow.upstream.sasState c = .keysExchanged emojis decimals ∧
    a.data.Offers (materialOf emojis decimals)

/-! ### What a call holds on to -/

/-- The second native call is on the comparison. -/
def ConfirmCall.On (shown : Sas) : ConfirmCall → Prop
  | checking handles => ∀ c, handles.comparison = some c → c = shown
  | confirming c => c = shown
  | _ => True

/-- What a call has read was shown, and what it is confirming it was handed. -/
def FacadeCall.Sound (s : ConfirmState) : FacadeCall → Prop
  | comparing _ shown current => (s.flow.upstream.sasState shown).HasShown current
  | confirming a shown current call =>
    (s.flow.upstream.sasState shown).HasShown current ∧ a.data.Offers current ∧ call.On shown
  | _ => True

section

variable {M : Messages} {account : String} {s t : ConfirmState}

/-- What upstream keeps, a call keeps. -/
theorem FacadeCall.Sound.keeps {call : FacadeCall} (h : call.Sound s)
    (hkeeps : s.flow.upstream.KeepsShown t.flow.upstream) : call.Sound t := by
  cases call with
  | comparing a shown current => exact hkeeps _ _ h
  | confirming a shown current call => exact ⟨hkeeps _ _ h.1, h.2⟩
  | _ => trivial

theorem comparisonToConfirm_eq_ok {u : Upstream} {handles : Handles} {c : Sas}
    (h : comparisonToConfirm u handles = .ok c) : handles.comparison = some c := by
  unfold comparisonToConfirm at h
  split at h
  · cases h
  · next c' hc =>
    split at h
    · rw [hc, Except.ok.inj h]
    · cases h
    · cases h

/-- The second native call stays on the comparison, if its lookup leads there. -/
theorem ConfirmCall.On.next {shown : Sas} {call call' : ConfirmCall} (hcall : call.On shown)
    (h : ConfirmNext M account s call t (.inl call'))
    (hleads : ∀ l handles, call = .finding l → call' = .checking handles →
      ∀ c, l.leadsTo s.flow = some c → c = shown) : call'.On shown := by
  generalize hr : (Sum.inl call' : ConfirmCall ⊕ ConfirmResult) = r at h
  cases h with
  | found h =>
    obtain rfl := Sum.inl.inj hr
    intro c hc
    exact hleads _ _ rfl rfl c (h.leads ▸ hc)
  | checks h =>
    obtain rfl := Sum.inl.inj hr
    exact hcall _ (comparisonToConfirm_eq_ok h)
  | finds _ | confirms _ _ _ | confirmsNothing _ | queues | takeTrip _ _ =>
    obtain rfl := Sum.inl.inj hr
    trivial
  | _ => cases hr

/-- **What every call holds on to survives every section of every other**, and its own. -/
theorem facade_stable : ((facadeFlows M account).naming ℕ).Stable StillLeads (fun _ => True)
    (fun s l => l.2.Sound s) where
  start := by
    intro p l _ _ hstart
    cases hl : l.2 with
    | reading _ _ | showing _ _ | other _ => trivial
    | comparing _ _ _ | confirming _ _ _ _ =>
      have hstart : l.2.Begins := hstart
      rw [hl] at hstart
      cases hstart
  own := by
    rintro p ⟨n, call⟩ t r hG - - hsound ⟨r', ⟨hkeeps, hnext⟩, rfl⟩
    refine ⟨trivial, fun l' hl' => ?_⟩
    have hkept : call.Sound t := hsound.keeps hkeeps
    cases hnext with
    | finds _ | found _ =>
      cases hl'
      trivial
    | reads hshown h =>
      cases hl'
      obtain ⟨c, emojis, decimals, hc, hstate, rfl⟩ := readMaterial_eq_ok.mp h
      obtain rfl := Option.some.inj (hc.symm.trans hshown)
      show (p.shared.flow.upstream.sasState c).HasShown _
      rw [hstate]
      rfl
    | agrees h =>
      -- the check has passed: the string the call read is the one it was handed
      cases hl'
      exact ⟨hsound, (sameMaterial_iff.mp h).2, trivial⟩
    | goesOn h =>
      -- where its lookup hands out a comparison, the guard says it is the one read
      cases hl'
      refine ⟨hkept.1, hsound.2.1, hsound.2.2.next h ?_⟩
      rintro l handles rfl rfl
      exact hG
    | @other call t r h =>
      cases r with
      | inl call' =>
        cases hl'
        trivial
      | inr out => cases hl'
    | _ => cases hl'
  other := by
    rintro p l t r m - - - - hm ⟨r', ⟨hkeeps, -⟩, -⟩
    exact hm.keeps hkeeps
  world := by
    rintro p e t - - ⟨hkeeps, -⟩
    exact ⟨trivial, fun m hm => hm.keeps hkeeps⟩

/-! ### The thread of a confirmation -/

/-- The second native call comes to its messages from upstream's `confirm`. -/
theorem facadeNext_queueing {call : FacadeCall} {a : Confirmation} {shown : Sas}
    {current : SasMaterial} {messages : List UpstreamOutgoingRequest}
    (h : FacadeNext M account s call t (.inl (.confirming a shown current (.queueing messages)))) :
    ∃ call', call = .confirming a shown current call' ∧
      ConfirmNext M account s call' t (.inl (.queueing messages)) := by
  generalize hr : (Sum.inl (.confirming a shown current (.queueing messages)) :
    FacadeCall ⊕ FacadeResult) = r at h
  cases h with
  | @goesOn a' shown' current' call call' t h =>
    obtain ⟨rfl, rfl, rfl, rfl⟩ := FacadeCall.confirming.inj (Sum.inl.inj hr)
    exact ⟨call, rfl, h⟩
  | agrees h =>
    obtain ⟨-, -, -, hcall⟩ := FacadeCall.confirming.inj (Sum.inl.inj hr)
    cases hcall
  | @other call t r h => cases r <;> cases hr
  | _ => cases hr

/-- The events that confirm for a call that has messages to queue, or that has resolved. -/
theorem facade_thread {ts : List FacadeEvent} {cur : Option (ℕ × FacadeCall)}
    (h : ((facadeFlows M account).naming ℕ).Thread ts cur)
    (hacts : ∀ n a shown current c, facadeConfirms n a shown current c [] ∉ ts) :
    (∀ n a shown current messages,
      cur = some (n, .confirming a shown current (.queueing messages)) → ∃ c rest,
        facadeConfirms n a shown current c (M.confirmation c :: rest) ∈ ts) ∧
      ∀ n a shown current, resolves n a shown current ∈ ts → ∃ c rest,
        facadeConfirms n a shown current c (M.confirmation c :: rest) ∈ ts := by
  induction h with
  | @start s l hl =>
    refine ⟨?_, fun n a shown current hmem => by simp [resolves] at hmem⟩
    rintro n a shown current messages ⟨⟩
    have hbegins : (FacadeCall.confirming a shown current (.queueing messages)).Begins := hl
    exact hbegins.elim
  | @goes es s t l l' hes hnext ih =>
    have ih := ih fun n a shown current c hmem =>
      hacts n a shown current c (List.mem_append_left _ hmem)
    refine ⟨?_, fun n a shown current hmem => ?_⟩
    · rintro n a shown current messages ⟨⟩
      obtain ⟨m, call⟩ := l
      obtain ⟨r', ⟨-, hnext⟩, hr⟩ := hnext
      cases r' with
      | inr out => cases hr
      | inl call' =>
        obtain ⟨rfl, rfl⟩ := Prod.mk.inj (Sum.inl.inj hr)
        obtain ⟨call', rfl, hconfirm⟩ := facadeNext_queueing hnext
        -- upstream's `confirm` gave the messages, or some were queued already
        rcases confirmNext_queueing hconfirm with ⟨c, rfl, ⟨rfl, -⟩ | ⟨rest, rfl⟩⟩ | ⟨r, rfl⟩
        · exact absurd (List.mem_append_right es (List.mem_singleton_self _))
            (hacts n a shown current c)
        · exact ⟨c, rest, List.mem_append_right es (List.mem_singleton_self _)⟩
        · obtain ⟨c, rest, hmem⟩ := ih.1 n a shown current _ rfl
          exact ⟨c, rest, List.mem_append_left _ hmem⟩
    · rcases List.mem_append.mp hmem with hmem | hmem
      · exact absurd hmem hes.not_returned
      · simp [resolves] at hmem
  | @returns es s t l out hes hnext ih =>
    have ih := ih fun n a shown current c hmem =>
      hacts n a shown current c (List.mem_append_left _ hmem)
    refine ⟨fun _ _ _ _ _ hcur => (by cases hcur), fun n a shown current hmem => ?_⟩
    rcases List.mem_append.mp hmem with hmem | hmem
    · exact absurd hmem hes.not_returned
    · rw [List.mem_singleton] at hmem
      cases hmem
      obtain ⟨c, rest, hmem⟩ := ih.1 n a shown current [] rfl
      exact ⟨c, rest, List.mem_append_left _ hmem⟩

/-- The call has not compared anything yet, or is about to. -/
def FacadeCall.Early : FacadeCall → Prop
  | reading _ _ | showing _ _ | comparing _ _ _ => True
  | _ => False

/-- A call is early only after it was. -/
theorem FacadeNext.early {call call' : FacadeCall}
    (h : FacadeNext M account s call t (.inl call')) (hearly : call'.Early) : call.Early := by
  generalize hr : (Sum.inl call' : FacadeCall ⊕ FacadeResult) = r at h
  cases h with
  | finds _ | found _ | reads _ _ | agrees _ => trivial
  | goesOn _ =>
    obtain rfl := Sum.inl.inj hr
    exact hearly
  | @other call t r h =>
    cases r with
    | inl call'' =>
      obtain rfl := Sum.inl.inj hr
      exact hearly
    | inr out => cases hr
  | _ => cases hr

/-- A call that is early has run no section of the second native call. -/
theorem facade_thread_early {ts : List FacadeEvent} {cur : Option (ℕ × FacadeCall)}
    (h : ((facadeFlows M account).naming ℕ).Thread ts cur) :
    ∀ l, cur = some l → l.2.Early → ∀ n a shown current call r,
      .section (n, .confirming a shown current call) r ∉ ts := by
  induction h with
  | start _ =>
    intro l _ _ n a shown current call r hmem
    simp at hmem
  | @goes es s t l l' hes hnext ih =>
    rintro l'' ⟨⟩ hearly n a shown current call r hmem
    obtain ⟨r', ⟨-, hnext⟩, hr⟩ := hnext
    cases r' with
    | inr out => cases hr
    | inl call' =>
      obtain rfl := Sum.inl.inj hr
      have hbefore := hnext.early hearly
      rcases List.mem_append.mp hmem with hmem | hmem
      · exact ih l rfl hbefore n a shown current call r hmem
      · rw [List.mem_singleton] at hmem
        cases hmem
        exact hbefore
  | returns _ _ _ =>
    rintro l ⟨⟩

/-- A call that read one string and was handed another compares them, or has rejected. -/
theorem facade_thread_differs {ts : List FacadeEvent} {cur : Option (ℕ × FacadeCall)}
    (h : ((facadeFlows M account).naming ℕ).Thread ts cur) {n : ℕ} {a : Confirmation}
    {handles : Handles} {shown : Sas} {current : SasMaterial}
    (hreads : readsMaterial n a handles shown current ∈ ts)
    (hdiffers : sameMaterial current a.data = false) :
    (cur = some (n, .comparing a shown current) ∨ cur = none) ∧
      (∀ n a shown current call r, .section (n, .confirming a shown current call) r ∉ ts) ∧
      ∀ l out, .section l (.inr (.confirmed out)) ∈ ts → out = .error .materialMismatch := by
  induction h with
  | start _ => simp [readsMaterial] at hreads
  | @goes es s t l l' hes hnext ih =>
    rcases List.mem_append.mp hreads with hreads | hreads
    · obtain ⟨hcur | hcur, -, -⟩ := ih hreads
      · -- it compares them, and goes on only if they agree
        cases hcur
        obtain ⟨r', ⟨-, hnext⟩, hr⟩ := hnext
        cases hnext with
        | differs _ => cases hr
        | agrees h =>
          rw [hdiffers] at h
          cases h
      · cases hcur
    · rw [List.mem_singleton] at hreads
      cases hreads
      refine ⟨Or.inl rfl, fun n' a' shown' current' call r hmem => ?_, fun l out hmem => ?_⟩
      · rcases List.mem_append.mp hmem with hmem | hmem
        · exact facade_thread_early hes _ rfl trivial n' a' shown' current' call r hmem
        · simp at hmem
      · rcases List.mem_append.mp hmem with hmem | hmem
        · exact absurd hmem hes.not_returned
        · simp at hmem
  | @returns es s t l out hes hnext ih =>
    rcases List.mem_append.mp hreads with hreads | hreads
    · obtain ⟨hcur | hcur, hnone, -⟩ := ih hreads
      · cases hcur
        refine ⟨Or.inr rfl, fun n' a' shown' current' call r hmem => ?_, fun l out' hmem => ?_⟩
        · rcases List.mem_append.mp hmem with hmem | hmem
          · exact hnone n' a' shown' current' call r hmem
          · simp at hmem
        · rcases List.mem_append.mp hmem with hmem | hmem
          · exact absurd hmem hes.not_returned
          · rw [List.mem_singleton] at hmem
            cases hmem
            obtain ⟨r', ⟨-, hnext⟩, hr⟩ := hnext
            cases hnext with
            | differs _ => cases hr; rfl
            | agrees _ => cases hr
      · cases hcur
    · simp [readsMaterial] at hreads

/-! ### What was confirmed -/

/-- Where the strings are still on screen, upstream's `confirm` acts. -/
theorem facade_confirms_something {p q : FacadePool} {es : List FacadeEvent}
    (hrun : ((facade M account).restrict StillLeads).Run p es q) (n : ℕ) (a : Confirmation)
    (shown : Sas) (current : SasMaterial) (c : Sas) :
    facadeConfirms n a shown current c [] ∉ es := by
  intro hmem
  obtain ⟨before, after, rfl⟩ := List.mem_iff_append.mp hmem
  obtain ⟨s, -, hrest⟩ := hrun.split
  obtain ⟨t, ⟨hshown, _, _, -, ⟨r', ⟨-, hnext⟩, hr⟩, -⟩, -⟩ := hrest.uncons
  have hshown : stageOfComparison (s.shared.flow.upstream.sasState c) = .keysExchanged := hshown
  cases r' with
  | inr out => cases hr
  | inl call' =>
    obtain ⟨-, rfl⟩ := Prod.mk.inj (Sum.inl.inj hr)
    obtain ⟨call', hcall, hconfirm⟩ := facadeNext_queueing hnext
    obtain ⟨-, -, -, rfl⟩ := FacadeCall.confirming.inj hcall
    obtain ⟨c', hc, ⟨-, hnot⟩ | ⟨rest, hmessages⟩⟩ | ⟨r, hr⟩ := confirmNext_queueing hconfirm
    · obtain rfl := ConfirmCall.confirming.inj hc
      exact hnot hshown
    · cases hmessages
    · cases hr

/-- What upstream's `confirm` acts on showed what the call was handed, at that moment. -/
theorem confirmedShown_of_mem {p q : FacadePool} {es : List FacadeEvent} (hp : p.calls = [])
    (hrun : ((facade M account).restrict StillLeads).Run p es q) {n : ℕ} {a : Confirmation}
    {shown : Sas} {current : SasMaterial} {c : Sas} {rest : List UpstreamOutgoingRequest}
    (hmem : facadeConfirms n a shown current c (M.confirmation c :: rest) ∈ es) :
    ConfirmedShown M account p es q n a := by
  obtain ⟨before, after, rfl⟩ := List.mem_iff_append.mp hmem
  obtain ⟨s, hbefore, hrest⟩ := hrun.split
  obtain ⟨t, ⟨hstage, hstep⟩, hafter⟩ := hrest.uncons
  have hasserted := facade_stable.run hbefore ⟨trivial, by simp [hp]⟩
  obtain ⟨hhas, hoffers, rfl⟩ : FacadeCall.Sound s.shared
      (.confirming a shown current (.confirming c)) := by
    obtain ⟨_, _, hsplit, -⟩ := hstep
    exact hasserted.2 _ (Calls.mem_of_split hsplit)
  obtain ⟨emojis, decimals, hstate, rfl⟩ := hhas.shows hstage
  exact ⟨c, _, c, rest, before, s, t, after, emojis, decimals, rfl, hbefore.of_restrict, hstep,
    hafter.of_restrict, hstate, hoffers⟩

/-- **A confirmation that resolves names the string that was shown**, in every run in which it
still leads there: the comparison it confirmed had, at that moment, exactly the decimals and the
symbols of what it was handed.  And in every run, one that read another string than it was
handed runs no section of the second native call, which queues the confirmation, and rejects. -/
theorem confirmation_of_what_was_shown {p q : FacadePool} {es : List FacadeEvent} {n : ℕ}
    (hp : p.calls = []) (honce : Calls.begun Prod.fst n es ≤ 1) :
    (((facade M account).restrict StillLeads).Run p es q → ∀ a shown current,
      resolves n a shown current ∈ es → ConfirmedShown M account p es q n a) ∧
    ((facade M account).Run p es q → ∀ a handles shown current,
      readsMaterial n a handles shown current ∈ es → ¬ a.data.Offers current →
        (∀ a' shown' current' call r,
          .section (n, .confirming a' shown' current' call) r ∉ es) ∧
        ∀ l out, l.1 = n → .section l (.inr (.confirmed out)) ∈ es →
          out = .error .materialMismatch) := by
  have hname : ∀ s l t l', ((facadeFlows M account).naming ℕ).next s l t (.inl l') → l'.1 = l.1 :=
    fun _ _ _ _ h => Calls.naming_keeps h
  constructor
  · -- the thread of the call has the event that confirmed for it
    intro hrun a shown current hresolves
    have hown : resolves n a shown current ∈ Calls.events Prod.fst n es :=
      Calls.mem_events.mpr ⟨hresolves, rfl⟩
    cases Calls.thread_of_run hname hrun.of_restrict hp honce with
    | apart hes _ =>
      rw [hes] at hown
      cases hown
    | thread hthread _ =>
      obtain ⟨c, rest, hmem⟩ := (facade_thread hthread fun n a shown current c hmem =>
        facade_confirms_something hrun n a shown current c (Calls.mem_events.mp hmem).1).2
          n a shown current hown
      exact confirmedShown_of_mem hp hrun (Calls.mem_events.mp hmem).1
  · -- the check stands before the second native call
    intro hrun a handles shown current hreads hoffers
    have hown : readsMaterial n a handles shown current ∈ Calls.events Prod.fst n es :=
      Calls.mem_events.mpr ⟨hreads, rfl⟩
    have hdiffers : sameMaterial current a.data = false :=
      Bool.eq_false_iff.mpr fun h => hoffers (sameMaterial_iff.mp h).2
    cases Calls.thread_of_run hname hrun hp honce with
    | apart hes _ =>
      rw [hes] at hown
      cases hown
    | thread hthread _ =>
      obtain ⟨-, hnone, hout⟩ := facade_thread_differs hthread hown hdiffers
      refine ⟨fun a' shown' current' call r hmem => ?_, fun l out hl hmem => ?_⟩
      · exact hnone n a' shown' current' call r (Calls.mem_events.mpr ⟨hmem, rfl⟩)
      · exact hout l out (Calls.mem_events.mpr ⟨hmem, hl⟩)

end

/-! ### A flow under another's identifier

The strings of a comparison are on screen.  After they are read, the other side cancels, and
a third user opens a comparison under the same transaction id: the registry sweeps the first
and takes up the second. -/

theorem Upstream.KeepsShown.refl (u : Upstream) : u.KeepsShown u := fun _ _ h => h

theorem Upstream.KeepsShown.setSas {u v : Upstream} (h : u.KeepsShown v) {c : Sas}
    {state : SasState} (hstate : ∀ m, (u.sasState c).HasShown m → state.HasShown m) :
    u.KeepsShown (v.setSas c state) := by
  intro c' m hc'
  by_cases heq : c' = c
  · subst heq
    rw [setSas_sasState]
    exact hstate m hc'
  · rw [setSas_sasState_of_ne _ _ heq]
    exact h c' m hc'

theorem Upstream.settles_refl (u : Upstream) : u.Settles u :=
  ⟨fun _ _ => rfl, fun _ _ => rfl, fun _ _ => rfl⟩

theorem Upstream.Settles.setSas {u v : Upstream} (h : u.Settles v) {c : Sas}
    (hc : (u.sasState c).isFinal = false) (state : SasState) : u.Settles (v.setSas c state) := by
  refine ⟨fun c' hfinal => ?_, h.code, h.request⟩
  rw [setSas_sasState_of_ne, h.sas c' hfinal]
  rintro rfl
  rw [hc] at hfinal
  cases hfinal

/-- The third user's comparison. -/
def anotherComparison : Sas := ⟨1, "f1", "@mallory:example.org", "MALLORY"⟩

/-- The strings are on screen, and there is no other comparison yet. -/
def screenFlow : FlowState :=
  { shownFlow with upstream := shownFlow.upstream.setSas anotherComparison .created }

def onScreenState : ConfirmState := { shownState with flow := screenFlow }

/-- The flow was looked at. -/
def screenLooked : ConfirmState :=
  { onScreenState with flow := { screenFlow with
    flows := (screenFlow.flows.cached screenFlow.upstream "f1").2 } }

/-- What the product showed. -/
def shownData : JsValue := .object .plain []
  [("decimals", .object .array [.digit 1, .digit 2, .digit 3] [])]

/-- The confirmation of what it showed. -/
def shownConfirmation : Confirmation := ⟨"f1", shownData⟩

/-- The string on screen. -/
def shownMaterial : SasMaterial := materialOf none (1, 2, 3)

abbrev screenFacade : TransitionSystem FacadePool FacadeEvent :=
  facade closingMessages "@alice:example.org"

/-- A section of the only call. -/
theorem screen_section {s t : ConfirmState} {l : FacadeCall} {r : FacadeCall ⊕ FacadeResult}
    (hkeeps : s.flow.upstream.KeepsShown t.flow.upstream)
    (h : FacadeNext closingMessages "@alice:example.org" s l t r) :
    screenFacade.step ⟨s, [(1, l)]⟩ (.section (1, l) (Sum.map (Prod.mk 1) id r))
      ⟨t, remaining (Sum.map (Prod.mk 1) id r) ++ []⟩ :=
  Calls.naming_section 1 [] [] ⟨hkeeps, h⟩

/-- A section that leaves upstream as it is. -/
theorem screen_frame {s t : ConfirmState} {l : FacadeCall} {r : FacadeCall ⊕ FacadeResult}
    (h : FacadeNext closingMessages "@alice:example.org" s l t r)
    (hframe : t.flow.upstream = s.flow.upstream) :
    screenFacade.step ⟨s, [(1, l)]⟩ (.section (1, l) (Sum.map (Prod.mk 1) id r))
      ⟨t, remaining (Sum.map (Prod.mk 1) id r) ++ []⟩ :=
  screen_section (hframe ▸ .refl _) h

/-- A move of the world beside it. -/
theorem screen_world {s t : ConfirmState} {calls : List (ℕ × FacadeCall)} {e : FacadeMove}
    (h : FacadeMoves closingMessages s e t) (hkeeps : s.flow.upstream.KeepsShown t.flow.upstream) :
    screenFacade.step ⟨s, calls⟩ (.world e) ⟨t, calls⟩ := ⟨⟨hkeeps, h⟩, rfl⟩

/-- What a call does until it has read the string. -/
def readEvents (a : Confirmation) : List FacadeEvent :=
  [.start (1, .reading a (.begins a.verificationId)),
    .section (1, .reading a (.begins a.verificationId)) (.inl (1, .showing a shownHandles)),
    readsMaterial 1 a shownHandles shownComparison shownMaterial]

/-- The call reads the string on screen, whatever it was handed. -/
theorem run_read {a : Confirmation} (ha : a.verificationId = "f1") :
    (screenFacade.restrict StillLeads).Run ⟨onScreenState, []⟩ (readEvents a)
      ⟨screenLooked, [(1, .comparing a shownComparison shownMaterial)]⟩ := by
  have hstart : screenFacade.step ⟨onScreenState, []⟩
      (.start (1, .reading a (.begins a.verificationId)))
      ⟨onScreenState, [(1, .reading a (.begins a.verificationId))]⟩ := ⟨rfl, rfl⟩
  have hhit : LookupNext screenFlow (.begins a.verificationId) _ (.inr (.ok shownHandles)) :=
    @LookupNext.hit screenFlow a.verificationId (.fromComparison shownComparison)
      (by rw [ha]; rfl)
  have hfound : FacadeNext closingMessages "@alice:example.org" onScreenState
      (.reading a (.begins a.verificationId)) screenLooked (.inl (.showing a shownHandles)) := by
    rw [ha] at hhit ⊢
    exact .found hhit
  have hreads : FacadeNext closingMessages "@alice:example.org" screenLooked
      (.showing a shownHandles) screenLooked
      (.inl (.comparing a shownComparison shownMaterial)) :=
    @FacadeNext.reads _ _ _ _ _ _ shownMaterial rfl rfl
  exact .cons (TransitionSystem.step_restrict hstart trivial)
    (.cons (TransitionSystem.step_restrict (screen_frame hfound rfl) trivial)
      (.single (TransitionSystem.step_restrict (screen_frame hreads rfl) trivial)))

/-- The call, about to look its identifier up again. -/
def comparedCall : FacadeCall :=
  .confirming shownConfirmation shownComparison shownMaterial (.finding (.begins "f1"))

/-- What the call does before that. -/
def comparedEvents : List FacadeEvent :=
  readEvents shownConfirmation ++
    [.section (1, .comparing shownConfirmation shownComparison shownMaterial)
      (.inl (1, comparedCall))]

theorem run_compared : (screenFacade.restrict StillLeads).Run ⟨onScreenState, []⟩ comparedEvents
    ⟨screenLooked, [(1, comparedCall)]⟩ := by
  have hagrees : FacadeNext closingMessages "@alice:example.org" screenLooked
      (.comparing shownConfirmation shownComparison shownMaterial) screenLooked
      (.inl comparedCall) := .agrees (by decide)
  exact (run_read rfl).append
    (.single (TransitionSystem.step_restrict (screen_frame hagrees rfl) trivial))

/-- The second native call, on a comparison under the identifier. -/
def confirmingCall (call : ConfirmCall) : FacadeCall :=
  .confirming shownConfirmation shownComparison shownMaterial call

/-- The handles of a flow that is a comparison. -/
def comparisonHandles (c : Sas) : Handles := (FlowRecord.fromComparison c).handles

/-- What the second native call does on the comparison it finds. -/
def confirmedEvents (c : Sas) : List FacadeEvent :=
  [.section (1, comparedCall) (.inl (1, confirmingCall (.checking (comparisonHandles c)))),
    .section (1, confirmingCall (.checking (comparisonHandles c)))
      (.inl (1, confirmingCall (.confirming c))),
    facadeConfirms 1 shownConfirmation shownComparison shownMaterial c
      [closingMessages.confirmation c],
    .section (1, confirmingCall (.queueing [closingMessages.confirmation c]))
      (.inl (1, confirmingCall (.queueing []))),
    resolves 1 shownConfirmation shownComparison shownMaterial]

/-- The second native call confirms the comparison it finds, whichever it is. -/
theorem run_confirmed {s : ConfirmState} {c : Sas} {emojis : Option (List (String × String))}
    {decimals : ℕ × ℕ × ℕ} (hget : s.flow.flows.get? "f1" = some (.fromComparison c))
    (hstate : s.flow.upstream.sasState c = .keysExchanged emojis decimals)
    (hpeer : s.peerConfirmed = []) :
    ∃ t, (screenFacade.restrict fun p e => c = shownComparison → StillLeads p e).Run
      ⟨s, [(1, comparedCall)]⟩ (confirmedEvents c) ⟨t, []⟩ := by
  have hfound : FacadeNext closingMessages "@alice:example.org" s comparedCall _
      (.inl (confirmingCall (.checking (comparisonHandles c)))) := .goesOn (.found (.hit hget))
  have hleads : c = shownComparison → ∀ c',
      (Lookup.begins "f1").leadsTo s.flow = some c' → c' = shownComparison := by
    intro hc c' hc'
    rw [Lookup.leadsTo, hget] at hc'
    exact (Option.some.inj hc').symm.trans hc
  let looked : ConfirmState := { s with flow := { s.flow with
    flows := (s.flow.flows.cached s.flow.upstream "f1").2 } }
  have hstage : stageOfComparison (looked.flow.upstream.sasState c) = .keysExchanged := by
    show stageOfComparison (s.flow.upstream.sasState c) = _
    rw [hstate]
    rfl
  have hchecks : FacadeNext closingMessages "@alice:example.org" looked
      (confirmingCall (.checking (comparisonHandles c))) looked
      (.inl (confirmingCall (.confirming c))) := by
    have hcomparison : (comparisonHandles c).comparison = some c := rfl
    refine .goesOn (.checks ?_)
    simp [comparisonToConfirm, hcomparison, hstage]
  have hmessages : closingMessages.confirm looked c ++ (none : Option _).toList =
      [closingMessages.confirmation c] := by
    simp [Messages.confirm, looked, hpeer]
  have hconfirms : FacadeNext closingMessages "@alice:example.org" looked
      (confirmingCall (.confirming c)) (looked.confirm c .confirmed)
      (.inl (confirmingCall (.queueing [closingMessages.confirmation c]))) :=
    .goesOn (hmessages ▸ .confirms hstage (Or.inl rfl) (by simp))
  have hkeeps : looked.flow.upstream.KeepsShown (looked.confirm c .confirmed).flow.upstream :=
    (Upstream.KeepsShown.refl _).setSas fun _ _ => trivial
  let queued : ConfirmState :=
    (looked.confirm c .confirmed).queue (closingMessages.confirmation c)
  have hqueues : FacadeNext closingMessages "@alice:example.org" (looked.confirm c .confirmed)
      (confirmingCall (.queueing [closingMessages.confirmation c])) queued
      (.inl (confirmingCall (.queueing []))) := .goesOn .queues
  exact ⟨_, .cons (TransitionSystem.step_restrict (screen_frame hfound rfl) hleads)
    (.cons (TransitionSystem.step_restrict (screen_frame hchecks rfl) fun _ => trivial)
      (.cons (TransitionSystem.step_restrict
          (screen_section hkeeps hconfirms) fun _ => hstage)
        (.cons (TransitionSystem.step_restrict
            (screen_frame hqueues rfl) fun _ => trivial)
          (.single (TransitionSystem.step_restrict
            (screen_frame (.returns .returns) rfl) fun _ => trivial)))))⟩

/-- A confirmation of numbers that are not on screen. -/
def mistakenConfirmation : Confirmation := ⟨"f1", .object .plain []
  [("decimals", .object .array [.digit 1, .digit 2, .digit 4] [])]⟩

/-- Nothing happens to the flow: a call handed the string confirms its comparison, and one
handed another rejects. -/
theorem confirmation_onScreenState :
    (∃ es q, (screenFacade.restrict StillLeads).Run ⟨onScreenState, []⟩ es q ∧
      resolves 1 shownConfirmation shownComparison shownMaterial ∈ es ∧
      ConfirmedShown closingMessages "@alice:example.org" ⟨onScreenState, []⟩ es q 1
        shownConfirmation) ∧
    ∃ es q l out, screenFacade.Run ⟨onScreenState, []⟩ es q ∧
      .section l (.inr (.confirmed out)) ∈ es ∧ out = .error .materialMismatch := by
  constructor
  · obtain ⟨t, hconfirmed⟩ :=
      @run_confirmed screenLooked shownComparison none (1, 2, 3) rfl rfl rfl
    have hrun := run_compared.append (hconfirmed.restrict_mono fun _ _ h => h rfl)
    have hresolves : resolves 1 shownConfirmation shownComparison shownMaterial ∈
        comparedEvents ++ confirmedEvents shownComparison := by
      simp [confirmedEvents]
    exact ⟨_, _, hrun, hresolves,
      (confirmation_of_what_was_shown rfl (by decide)).1 hrun _ _ _ hresolves⟩
  · have hdiffers : FacadeNext closingMessages "@alice:example.org" screenLooked
        (.comparing mistakenConfirmation shownComparison shownMaterial) screenLooked
        (.inr (.confirmed (.error .materialMismatch))) := .differs (by decide)
    have hrun := (run_read (a := mistakenConfirmation) rfl).of_restrict.append
      (.single (screen_frame hdiffers rfl))
    have hreads : readsMaterial 1 mistakenConfirmation shownHandles shownComparison
        shownMaterial ∈ readEvents mistakenConfirmation := by
      simp [readEvents]
    have hoffers : ¬ mistakenConfirmation.data.Offers shownMaterial := by
      intro h
      cases h.decimals
    exact ⟨_, _, _, _, hrun, List.mem_append_right _ (List.mem_singleton_self _),
      ((confirmation_of_what_was_shown rfl (by decide)).2 hrun _ _ _ _
        (List.mem_append_left _ hreads) hoffers).2 _ _ rfl
          (List.mem_append_right _ (List.mem_singleton_self _))⟩

/-- The other side has cancelled, and the third user has opened a comparison. -/
def cancelledUpstream : Upstream :=
  (screenFlow.upstream.setSas shownComparison .cancelled).setSas anotherComparison .started

/-- The third user's comparison is on screen, under the identifier of the first. -/
def replacedState : ConfirmState :=
  { screenLooked with flow := { screenLooked.flow with
    flows := (screenLooked.flow.flows.registerIfAbsent cancelledUpstream false "f1"
      (.fromComparison anotherComparison)).2
    upstream := cancelledUpstream.setSas anotherComparison (.keysExchanged none (4, 5, 6)) } }

/-- What happens in between. -/
def replacedEvents : List FacadeEvent :=
  [.world (.upstream cancelledUpstream),
    .world (.flows (screenLooked.flow.flows.registerIfAbsent cancelledUpstream false "f1"
      (.fromComparison anotherComparison)).2),
    .world (.upstream replacedState.flow.upstream)]

theorem run_replacedState : screenFacade.Run ⟨screenLooked, [(1, comparedCall)]⟩ replacedEvents
    ⟨replacedState, [(1, comparedCall)]⟩ := by
  have hsettles : screenLooked.flow.upstream.Settles cancelledUpstream :=
    ((Upstream.settles_refl _).setSas rfl _).setSas rfl _
  have hcancels : screenLooked.flow.upstream.KeepsShown
      (screenFlow.upstream.setSas shownComparison .cancelled) :=
    (Upstream.KeepsShown.refl _).setSas fun _ _ => trivial
  have hkeeps : screenLooked.flow.upstream.KeepsShown cancelledUpstream :=
    hcancels.setSas fun _ h => h.elim
  have hgoes : cancelledUpstream.Settles replacedState.flow.upstream :=
    (Upstream.settles_refl _).setSas rfl _
  have hgoesOn : cancelledUpstream.KeepsShown replacedState.flow.upstream :=
    (Upstream.KeepsShown.refl _).setSas fun _ h => h.elim
  let cancelledState : ConfirmState :=
    { screenLooked with flow := { screenLooked.flow with upstream := cancelledUpstream } }
  let sweptState : ConfirmState :=
    { replacedState with flow := { replacedState.flow with upstream := cancelledUpstream } }
  have hcancelled : FacadeMoves closingMessages screenLooked _ cancelledState := .upstream hsettles
  have hswept : FacadeMoves closingMessages cancelledState _ sweptState :=
    .flows (.registersNew "f1" (.fromComparison anotherComparison))
  have hreplaced : FacadeMoves closingMessages sweptState _ replacedState := .upstream hgoes
  exact .cons (screen_world hcancelled hkeeps)
    (.cons (screen_world hswept (.refl _)) (.single (screen_world hreplaced hgoesOn)))

/-- The call is `confirmVerification`, and not a sync or a take it names itself. -/
def FacadeCall.Confirms : FacadeCall → Prop
  | confirming _ _ _ .receiving | other _ => False
  | _ => True

/-- No section of such a call brings a string on screen. -/
theorem FacadeNext.shows_before {M : Messages} {account : String} {s t : ConfirmState}
    {call : FacadeCall} {r : FacadeCall ⊕ FacadeResult} (h : FacadeNext M account s call t r)
    (hcall : call.Confirms) {c : Sas} {emojis : Option (List (String × String))}
    {decimals : ℕ × ℕ × ℕ} (hshown : t.flow.upstream.sasState c = .keysExchanged emojis decimals) :
    s.flow.upstream.sasState c = .keysExchanged emojis decimals := by
  have hconfirm : ∀ {call : ConfirmCall} {r : ConfirmCall ⊕ ConfirmResult},
      ConfirmNext M account s call t r → call ≠ .receiving →
      s.flow.upstream.sasState c = .keysExchanged emojis decimals := by
    intro call r hnext hne
    cases hnext with
    | finds hl | findsNone hl | found hl =>
      have hframe := LookupNext.upstream hl
      rw [← hframe]
      exact hshown
    | @confirms c' state upload _ hstate _ =>
      -- `confirm` moves its comparison past the stage at which one is shown
      have hshown : (s.flow.upstream.setSas c' state).sasState c = .keysExchanged emojis decimals :=
        hshown
      by_cases heq : c = c'
      · subst heq
        rw [Upstream.setSas_sasState] at hshown
        rcases hstate with rfl | ⟨devices, rfl⟩ <;> cases hshown
      · rwa [Upstream.setSas_sasState_of_ne _ _ heq] at hshown
    | receives _ => exact absurd rfl hne
    | _ => exact hshown
  cases h with
  | finds h | findsNone h | found h =>
    have hframe := LookupNext.upstream h
    rw [← hframe]
    exact hshown
  | goesOn h | returns h =>
    refine hconfirm h ?_
    rintro rfl
    exact hcall
  | other _ => exact hcall.elim
  | _ => exact hshown

/-- The event shows nothing but these numbers for the comparison. -/
def ShowsOnly (c : Sas) (decimals : ℕ × ℕ × ℕ) : FacadeEvent → Prop
  | .start _ => True
  | .section (_, call) _ => call.Confirms
  | .world (.upstream u) => ∀ emojis d, u.sasState c = .keysExchanged emojis d → d = decimals
  | .world _ => True

/-- Along such events, the comparison shows nothing but these numbers. -/
theorem shows_only {M : Messages} {account : String} {p q : FacadePool} {es : List FacadeEvent}
    {c : Sas} {decimals : ℕ × ℕ × ℕ} (hrun : (facade M account).Run p es q)
    (hes : ∀ e ∈ es, ShowsOnly c decimals e)
    (hp : ∀ emojis d, p.shared.flow.upstream.sasState c = .keysExchanged emojis d → d = decimals)
    (emojis : Option (List (String × String))) (d : ℕ × ℕ × ℕ)
    (hq : q.shared.flow.upstream.sasState c = .keysExchanged emojis d) : d = decimals := by
  induction hrun generalizing emojis d with
  | nil => exact hp emojis d hq
  | @snoc s t es e _ hstep ih =>
    have ih := ih fun e he => hes e (List.mem_append_left _ he)
    have he := hes e (List.mem_append_right _ (List.mem_singleton_self _))
    cases e with
    | start l =>
      obtain ⟨-, rfl⟩ := hstep
      exact ih emojis d hq
    | «section» l r =>
      obtain ⟨_, _, -, ⟨r', ⟨-, hnext⟩, -⟩, -⟩ := hstep
      exact ih emojis d (hnext.shows_before he hq)
    | world e =>
      obtain ⟨⟨-, hmove⟩, -⟩ := hstep
      generalize hu : t.shared = u at hmove hq
      cases hmove with
      | upstream h => exact he emojis d hq
      | _ => exact ih emojis d hq

/-- **Another comparison is confirmed**: the call read the numbers it was handed, and
resolves; the comparison it confirmed shows others. -/
theorem another_confirmed : ∃ es q, screenFacade.Run ⟨onScreenState, []⟩ es q ∧
    Calls.begun Prod.fst 1 es ≤ 1 ∧
    readsMaterial 1 shownConfirmation shownHandles shownComparison shownMaterial ∈ es ∧
    facadeConfirms 1 shownConfirmation shownComparison shownMaterial anotherComparison
      [closingMessages.confirmation anotherComparison] ∈ es ∧
    resolves 1 shownConfirmation shownComparison shownMaterial ∈ es ∧
    ¬ ConfirmedShown closingMessages "@alice:example.org" ⟨onScreenState, []⟩ es q 1
      shownConfirmation := by
  obtain ⟨t, hconfirmed⟩ :=
    @run_confirmed replacedState anotherComparison none (4, 5, 6) rfl rfl rfl
  have hrun := (run_compared.of_restrict.append run_replacedState).append hconfirmed.of_restrict
  refine ⟨_, _, hrun, by decide, by simp [comparedEvents, readEvents], by simp [confirmedEvents],
    by simp [confirmedEvents], ?_⟩
  rintro ⟨shown, current, c, rest, before, s, u, after, emojis, d, hes, hbefore, -, -, hstate,
    hoffers⟩
  have hmem : facadeConfirms 1 shownConfirmation shown current c
      (closingMessages.confirmation c :: rest) ∈
        comparedEvents ++ replacedEvents ++ confirmedEvents anotherComparison := by
    rw [hes]
    exact List.mem_append_right _ List.mem_cons_self
  -- the one event that confirms acts on the third user's comparison
  have hc : c = anotherComparison := by
    simp only [comparedEvents, readEvents, replacedEvents, confirmedEvents, facadeConfirms,
      readsMaterial, resolves, comparedCall, confirmingCall] at hmem
    simp at hmem
    exact hmem.1.2.2
  subst hc
  have hcancelled : ShowsOnly anotherComparison (4, 5, 6)
      (.world (.upstream cancelledUpstream)) := by
    intro emojis d hshown
    cases hshown
  have hreplaced : ShowsOnly anotherComparison (4, 5, 6)
      (.world (.upstream replacedState.flow.upstream)) := by
    intro emojis d hshown
    cases hshown
    rfl
  -- which never shows what was on screen
  have hshows : ∀ e ∈ comparedEvents ++ replacedEvents ++ confirmedEvents anotherComparison,
      ShowsOnly anotherComparison (4, 5, 6) e := by
    simp only [comparedEvents, readEvents, replacedEvents, confirmedEvents, List.cons_append,
      List.nil_append, List.forall_mem_cons]
    exact ⟨trivial, trivial, trivial, trivial, hcancelled, trivial, hreplaced, trivial, trivial,
      trivial, trivial, trivial, by simp⟩
  have hd : d = (4, 5, 6) := by
    refine shows_only hbefore (fun e he => hshows e ?_) ?_ emojis d hstate
    · rw [hes]
      exact List.mem_append_left _ he
    · intro emojis d hshown
      cases hshown
  subst hd
  cases hoffers.decimals

end MatrixCrypto
