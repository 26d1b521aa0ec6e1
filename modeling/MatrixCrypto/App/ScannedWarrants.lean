import MatrixCrypto.App.ScannedRun

/-!
# What a run that shows a code does

Everything such a run does is warranted by what it was told before: a flow is accepted, called off
or confirmed only as its last reading and the person allow, and the screen says only what is so.

## Main definitions

* `lastAnswer`, `opened`, `invited`, `flowOf` — what a ledger says.
* `Called`, `Says`, `Shown`, `Warranted` — what warrants an entry.
* `Sound` — what every state keeps.

## Main results

* `warranted_of_reachable` — **everything a run does is warranted by what it was told.**
-/

namespace MatrixCrypto
namespace App

open Lib

/-! ### What a ledger says -/

def Entry.answer? : Entry → Option Answer
  | .answer a => some a
  | _ => none

/-- The flow `requestSelfVerification` answered. -/
def Entry.opened? : Entry → Option String
  | .answer (.flow flow) => some flow
  | _ => none

def Entry.heard? : Entry → Option String
  | .heard flow => some flow
  | _ => none

def Entry.isConfirmScan : Entry → Bool
  | .call (.confirmScan _) => true
  | _ => false

def Entry.isConfirmPress : Entry → Bool
  | .press .confirm => true
  | _ => false

/-- What came back last. -/
def lastAnswer (l : List Entry) : Option Answer := (l.filterMap Entry.answer?).getLast?

/-- The flow this side opened. -/
def opened (l : List Entry) : Option String := l.findSome? Entry.opened?

/-- The first flow that was heard of. -/
def invited (l : List Entry) : Option String := l.findSome? Entry.heard?

/-- The flow of the run: the one it opened, or else the first it heard of. -/
def flowOf (l : List Entry) : Option String := (opened l).or (invited l)

/-- The run is not said to be over. -/
def Unfinished (l : List Entry) : Prop := ∀ st, .publish st ∈ l → st.finished = false

/-- A code was drawn. -/
def CodeShown (l : List Entry) : Prop := ∃ st, .publish st ∈ l ∧ st.code.isSome = true

@[simp] theorem lastAnswer_append (l : List Entry) (e : Entry) :
    lastAnswer (l ++ [e]) = e.answer?.or (lastAnswer l) := by
  rw [lastAnswer, List.filterMap_append, List.getLast?_append]
  cases h : e.answer? <;> simp [h, lastAnswer]

theorem mem_of_lastAnswer {l : List Entry} {a : Answer} (h : lastAnswer l = some a) :
    .answer a ∈ l := by
  obtain ⟨e, he, ha⟩ := List.mem_filterMap.mp (List.mem_of_getLast? h)
  cases e <;> cases ha
  exact he

@[simp] theorem opened_append (l : List Entry) (e : Entry) :
    opened (l ++ [e]) = (opened l).or e.opened? := by
  rw [opened, List.findSome?_append]
  cases h : e.opened? <;> simp [h, opened]

@[simp] theorem invited_append (l : List Entry) (e : Entry) :
    invited (l ++ [e]) = (invited l).or e.heard? := by
  rw [invited, List.findSome?_append]
  cases h : e.heard? <;> simp [h, invited]

theorem flowOf_append_of_some {l : List Entry} {e : Entry} {flow : String}
    (h : flowOf l = some flow) (he : e.opened? = none) : flowOf (l ++ [e]) = some flow := by
  unfold flowOf at h ⊢
  rw [opened_append, invited_append, he, Option.or_none]
  cases hopened : opened l with
  | some _ => rwa [hopened] at h
  | none =>
    rw [hopened, Option.none_or] at h
    rw [h]
    rfl

/-- Nothing but a flow that is opened or heard of changes the flow. -/
theorem flowOf_append {l : List Entry} {e : Entry} (ho : e.opened? = none) (hh : e.heard? = none) :
    flowOf (l ++ [e]) = flowOf l := by
  unfold flowOf
  rw [opened_append, invited_append, ho, hh, Option.or_none, Option.or_none]

theorem CodeShown.append {l : List Entry} (h : CodeShown l) (e : Entry) : CodeShown (l ++ [e]) := by
  obtain ⟨st, hst, hcode⟩ := h
  exact ⟨st, List.mem_append_left _ hst, hcode⟩

theorem Unfinished.append {l : List Entry} {e : Entry} (h : Unfinished l)
    (he : ∀ st, e = .publish st → st.finished = false) : Unfinished (l ++ [e]) := by
  intro st hst
  rcases List.mem_append.mp hst with hst | hst
  · exact h st hst
  · exact he st (List.mem_singleton.mp hst).symm

/-! ### What warrants an entry -/

/-- What a call is made on. -/
def Called (l : List Entry) : RunnerCall → Prop
  | .requestSelfVerification => .press .askOtherDevices ∈ l ∧ flowOf l = none ∧
      .call .requestSelfVerification ∉ l
  | .getVerificationStage flow => flowOf l = some flow
  | .acceptVerification flow => flowOf l = some flow ∧ opened l = none ∧
      lastAnswer l = some (.stage .requested) ∧ ∀ g, .call (.acceptVerification g) ∉ l
  | .cancelVerification flow => opened l = some flow ∧ lastAnswer l = some (.stage .requested)
  | .getVerificationCode flow => flowOf l = some flow ∧
      (lastAnswer l = some (.stage .ready) ∨ lastAnswer l = some (.stage .started))
  | .confirmScan flow => flowOf l = some flow ∧ lastAnswer l = some (.stage .codeScanned) ∧
      CodeShown l ∧ l.countP Entry.isConfirmScan < l.countP Entry.isConfirmPress
  | _ => True

/-- What the screen says is so. -/
structure Says (l : List Entry) (st : ScannedCodeState) : Prop where
  verificationId : ∀ flow, st.verificationId = some flow → flowOf l = some flow
  stage : ∀ stage, st.stage = some stage → .answer (.stage stage) ∈ l
  code : ∀ code, st.code = some code → .answer (.code code) ∈ l
  awaiting : st.awaitingConfirmation = true → .answer (.stage .codeScanned) ∈ l
  failed : st.failed = true → st.finished = true

/-- And what it says of a run that is over. -/
structure Shown (l : List Entry) (st : ScannedCodeState) : Prop extends Says l st where
  /-- A run is verified by the reading before, of a flow whose code was drawn. -/
  verified : st.finished = true → st.failed = false →
    lastAnswer l = some (.stage .done) ∧ CodeShown l
  /-- No code is drawn any more, unless the run stopped on an error. -/
  cleared : st.finished = true → st.code ≠ none → ∃ e, lastAnswer l = some (.threw e)

theorem Says.shown {l : List Entry} {st : ScannedCodeState} (h : Says l st)
    (hfinished : st.finished = false) : Shown l st where
  toSays := h
  verified := fun hfin => by rw [hfinished] at hfin; cases hfin
  cleared := fun hfin => by rw [hfinished] at hfin; cases hfin

/-- What was done is done on a run that is not over, and is warranted. -/
def Warranted (l : List Entry) : Entry → Prop
  | .call c => Unfinished l ∧ Called l c
  | .publish st => Unfinished l ∧ Shown l st
  | _ => True

/-- A screen that is not the last stays so, whatever is entered. -/
theorem Shown.append {l : List Entry} {st : ScannedCodeState} (h : Shown l st)
    (hfinished : st.finished = false) {e : Entry}
    (he : e.opened? = none ∨ st.verificationId = none) : Shown (l ++ [e]) st := by
  apply Says.shown _ hfinished
  constructor
  · intro flow hflow
    rcases he with he | hnone
    · exact flowOf_append_of_some (h.verificationId flow hflow) he
    · rw [hnone] at hflow
      cases hflow
  · exact fun stage hstage => List.mem_append_left _ (h.stage stage hstage)
  · exact fun code hcode => List.mem_append_left _ (h.code code hcode)
  · exact fun hawaiting => List.mem_append_left _ (h.awaiting hawaiting)
  · exact h.failed

/-! ### What every state keeps -/

/-- The flow a place is about. -/
def Place.flow? : Place → Option String
  | .firstStage flow | .accepting flow | .acceptedPump flow | .seekingStage flow
  | .cancelling flow | .restaging flow | .reading flow | .seekingSync flow
  | .watchingStage flow | .confirming flow | .confirmedPump flow | .watchingSync flow
  | .pausing flow => some flow
  | _ => none

/-- How far the run has come. -/
def Place.part : Place → ℕ
  | .creating | .publishing | .waitingSync => 0
  | .asking => 1
  | .askedPump => 2
  | .firstStage _ => 3
  | .watchingStage _ | .confirming _ | .confirmedPump _ | .watchingSync _ | .pausing _ => 5
  | .ended => 6
  | _ => 4

/-- The call neither asks for a verification, nor accepts one, nor confirms one. -/
def RunnerCall.isPlain : RunnerCall → Bool
  | requestSelfVerification | acceptVerification _ | confirmScan _ => false
  | _ => true

namespace ScannedRun

/-- A run that goes on: its variables say what its ledger says. -/
structure Live (s : ScannedRun) : Prop where
  justified : Justified Warranted s.ledger
  unfinished : Unfinished s.ledger
  finished : s.state.finished = false
  shown : Shown s.ledger s.state
  announced : s.announced = flowOf s.ledger
  openedHere : s.openedHere = (opened s.ledger).isSome
  asked : s.askRequested = true → .press .askOtherDevices ∈ s.ledger
  /-- A confirmation that is held was asked for, and has not been acted on. -/
  confirms : s.ledger.countP Entry.isConfirmScan + s.confirmRequested.toNat ≤
    s.ledger.countP Entry.isConfirmPress

/-- What holds where it waits. -/
structure Fits (s : ScannedRun) (p : Place) : Prop where
  flow : ∀ flow, p.flow? = some flow → s.announced = some flow
  unasked : p.part = 0 → .call .requestSelfVerification ∉ s.ledger
  unopened : p.part ≤ 1 → opened s.ledger = none
  unnamed : p.part ≤ 2 → s.state.verificationId = none
  unaccepted : p.part ≤ 3 → ∀ g, .call (.acceptVerification g) ∉ s.ledger
  undrawn : p.part ≤ 4 → s.state.code = none
  drawn : p.part = 5 → CodeShown s.ledger

/-- What every state keeps. -/
structure Sound (s : ScannedRun) : Prop where
  justified : Justified Warranted s.ledger
  live : s.place ≠ .ended → Live s ∧ Fits s s.place

variable {s : ScannedRun} {p p' : Place} {flow : String} {c : RunnerCall} {e : Entry}
  {f : ScannedCodeState → ScannedCodeState} {setting : ScannedSetting}

/-! What is entered. -/

/-- An entry that neither opens a flow, nor is heard, nor counts. -/
theorem Live.note (h : Live s) (hjustified : Warranted s.ledger e) (ho : e.opened? = none)
    (hh : e.heard? = none) (hscan : e.isConfirmScan = false)
    (hpublish : ∀ st, e = .publish st → st.finished = false) : Live (s.note e) where
  justified := justified_append_singleton.mpr ⟨h.justified, hjustified⟩
  unfinished := h.unfinished.append hpublish
  finished := h.finished
  shown := h.shown.append h.finished (Or.inl ho)
  announced := by
    show s.announced = flowOf (s.ledger ++ [e])
    rw [flowOf_append ho hh]
    exact h.announced
  openedHere := by
    show s.openedHere = (opened (s.ledger ++ [e])).isSome
    rw [opened_append, ho, Option.or_none]
    exact h.openedHere
  asked := fun hasked => List.mem_append_left _ (h.asked hasked)
  confirms := by
    have hbefore := h.confirms
    show (s.ledger ++ [e]).countP _ + s.confirmRequested.toNat ≤ (s.ledger ++ [e]).countP _
    rw [List.countP_append, List.countP_append, List.countP_singleton, hscan]
    simp only [Bool.false_eq_true, if_false]
    omega

/-- The run goes on from another place. -/
theorem Live.at (h : Live s) (p : Place) : Live { s with place := p } := { h with }

/-- A screen that says only what is so is published. -/
theorem Live.update (h : Live s) (hfinished : (f s.state).finished = false)
    (hsaid : Says s.ledger (f s.state)) : Live (s.update f) := by
  have hshown : Shown s.ledger (f s.state) := hsaid.shown hfinished
  have hstate : Live { s with state := f s.state } :=
    { h with finished := hfinished, shown := hshown }
  apply hstate.note (e := .publish (f s.state)) ⟨h.unfinished, hshown⟩ rfl rfl rfl
  intro st hst
  obtain rfl := Entry.publish.inj hst
  exact hfinished

/-- A call that is made where it is warranted. -/
theorem Live.waitFor (h : Live s) (hcalled : Called s.ledger c) (p : Place)
    (hscan : Entry.isConfirmScan (.call c) = false) : Live (s.waitFor c p) :=
  (h.at p).note ⟨h.unfinished, hcalled⟩ rfl rfl hscan nofun

theorem Fits.note (h : Fits s p) (ho : e.opened? = none)
    (hask : p.part = 0 → e ≠ .call .requestSelfVerification)
    (haccept : p.part ≤ 3 → ∀ g, e ≠ .call (.acceptVerification g)) : Fits (s.note e) p where
  flow := h.flow
  unasked := by
    intro hp hmem
    rcases List.mem_append.mp hmem with hmem | hmem
    · exact h.unasked hp hmem
    · exact hask hp (List.mem_singleton.mp hmem).symm
  unopened := by
    intro hp
    show opened (s.ledger ++ [e]) = none
    rw [opened_append, ho, Option.or_none]
    exact h.unopened hp
  unnamed := h.unnamed
  unaccepted := by
    intro hp g hmem
    rcases List.mem_append.mp hmem with hmem | hmem
    · exact h.unaccepted hp g hmem
    · exact haccept hp g (List.mem_singleton.mp hmem).symm
  undrawn := h.undrawn
  drawn := fun hp => (h.drawn hp).append e

/-- A run only gets further. -/
theorem Fits.go (h : Fits s p) (hpart : p.part ≤ p'.part)
    (hflow : ∀ flow, p'.flow? = some flow → s.announced = some flow)
    (hdrawn : p'.part = 5 → CodeShown s.ledger) : Fits s p' where
  flow := hflow
  unasked := fun hp => h.unasked (by omega)
  unopened := fun hp => h.unopened (by omega)
  unnamed := fun hp => h.unnamed (by omega)
  unaccepted := fun hp => h.unaccepted (by omega)
  undrawn := fun hp => h.undrawn (by omega)
  drawn := hdrawn

theorem Fits.update (h : Fits s p)
    (hname : p.part ≤ 2 → (f s.state).verificationId = none)
    (hcode : p.part ≤ 4 → (f s.state).code = none) : Fits (s.update f) p := by
  have hstate : Fits { s with state := f s.state } p :=
    { h with unnamed := hname, undrawn := hcode }
  exact hstate.note rfl (fun _ => nofun) fun _ _ => nofun

/-- Once a code is drawn nothing else is asked of a place. -/
theorem Fits.watching (hpart : p.part = 5)
    (hflow : ∀ flow, p.flow? = some flow → s.announced = some flow)
    (hdrawn : CodeShown s.ledger) : Fits s p where
  flow := hflow
  unasked := by omega
  unopened := by omega
  unnamed := by omega
  unaccepted := by omega
  undrawn := by omega
  drawn := fun _ => hdrawn

/-! Where the run ends, and where it waits. -/

/-- A run that returns. -/
theorem Live.finish (h : Live s) : Sound s.finish where
  justified := h.justified
  live := fun hp => absurd rfl hp

/-- A run that publishes how it ends, and returns. -/
theorem Live.over (h : Live s) (hshown : Shown s.ledger (f s.state)) :
    Sound (s.update f).finish where
  justified := justified_append_singleton.mpr ⟨h.justified, h.unfinished, hshown⟩
  live := fun hp => absurd rfl hp

/-- A run that stops on an error. -/
theorem Live.failWith (h : Live s) {e : Thrown} (hthrew : s.state.code ≠ none →
    lastAnswer s.ledger = some (.threw e)) : Sound (s.failWith e) := by
  apply h.over
  exact { h.shown with
    failed := fun _ => rfl
    verified := fun _ hfailed => nomatch hfailed
    cleared := fun _ hcode => ⟨e, hthrew hcode⟩ }

/-- A run that fails where it drew no code yet. -/
theorem Live.failed (h : Live s) (hcode : s.state.code = none)
    {g : ScannedCodeState → ScannedCodeState}
    (hg : ∀ st, (g st).finished = true ∧ (g st).failed = true ∧ (g st).code = st.code ∧
      (g st).verificationId = st.verificationId ∧ (g st).stage = st.stage ∧
      (g st).awaitingConfirmation = st.awaitingConfirmation) : Sound (s.update g).finish := by
  obtain ⟨hfinished, hfailed, hsame, hid, hstage, hawaiting⟩ := hg s.state
  have hsaid : Says s.ledger (g s.state) := by
    constructor
    · rw [hid]
      exact h.shown.verificationId
    · rw [hstage]
      exact h.shown.stage
    · rw [hsame]
      exact h.shown.code
    · rw [hawaiting]
      exact h.shown.awaiting
    · exact fun _ => hfinished
  apply h.over
  refine { hsaid with verified := ?_, cleared := ?_ }
  · intro _ hnot
    rw [hfailed] at hnot
    cases hnot
  · intro _ hne
    rw [hsame, hcode] at hne
    exact absurd rfl hne

/-- A call that is waited for, where it is warranted. -/
theorem Live.waits (h : Live s) (hfits : Fits s p) (hcalled : Called s.ledger c)
    (hpart : p.part ≤ p'.part) (hflow : ∀ flow, p'.flow? = some flow → s.announced = some flow)
    (hdrawn : p'.part = 5 → CodeShown s.ledger) (hscan : Entry.isConfirmScan (.call c) = false)
    (hask : p'.part = 0 → c ≠ .requestSelfVerification)
    (haccept : p'.part ≤ 3 → ∀ g, c ≠ .acceptVerification g) : Sound (s.waitFor c p') where
  justified := (h.waitFor hcalled p' hscan).justified
  live := by
    intro _
    refine ⟨h.waitFor hcalled p' hscan, ?_⟩
    have hgone : Fits { s with place := p' } p' :=
      { hfits.go hpart hflow hdrawn with }
    apply hgone.note rfl
    · intro hp heq
      exact hask hp (Entry.call.inj heq)
    · intro hp g heq
      exact haccept hp g (Entry.call.inj heq)

/-- A call that names nothing of its own. -/
theorem Live.goesOn (h : Live s) (hfits : Fits s p) (hcalled : Called s.ledger c)
    (hplain : c.isPlain = true) (hpart : p.part ≤ p'.part)
    (hflow : ∀ flow, p'.flow? = some flow → s.announced = some flow)
    (hdrawn : p'.part = 5 → CodeShown s.ledger) : Sound (s.waitFor c p') := by
  apply h.waits hfits hcalled hpart hflow hdrawn
  · cases c <;> first | rfl | cases hplain
  · rintro - rfl
    cases hplain
  · rintro - g rfl
    cases hplain

/-- The flow a run is about is the one its ledger says. -/
theorem Live.flowOf_eq (h : Live s) (hflow : s.announced = some flow) :
    flowOf s.ledger = some flow := h.announced.symm.trans hflow

theorem Live.opened_eq_none (h : Live s) (hopened : s.openedHere = false) :
    opened s.ledger = none := by
  rw [h.openedHere] at hopened
  exact Option.not_isSome_iff_eq_none.mp (by simp [hopened])

/-- The flow a run opened is the one it is about. -/
theorem Live.opened_eq (h : Live s) (hopened : s.openedHere = true)
    (hflow : s.announced = some flow) : opened s.ledger = some flow := by
  have hflow := h.flowOf_eq hflow
  rw [h.openedHere] at hopened
  obtain ⟨g, hg⟩ := Option.isSome_iff_exists.mp hopened
  rw [flowOf, hg] at hflow
  rw [hg]
  exact hflow

/-! The loops. -/

theorem sound_leaveWaiting (h : Live s) (hfits : Fits s p) (hp : p.part ≤ 2) :
    Sound s.leaveWaiting := by
  unfold leaveWaiting
  split
  · next flow _ hflow =>
    have hthere : Fits s (.firstStage flow) :=
      hfits.go (hp.trans (by decide : 2 ≤ 3)) (fun g hg => hflow.trans hg) nofun
    have hunasked : Live { s with askRequested := false } := { h with asked := nofun }
    have hnamed := hunasked.update (f := fun st => { st with verificationId := some flow })
      h.finished { h.shown.toSays with
        verificationId := fun g hg => (h.flowOf_eq hflow).trans hg }
    have hfits' : Fits { s with askRequested := false } (.firstStage flow) := { hthere with }
    apply hnamed.goesOn (hfits'.update nofun fun _ => hthere.undrawn (show 3 ≤ 4 by omega))
    · exact flowOf_append_of_some (h.flowOf_eq hflow) rfl
    · rfl
    · exact le_rfl
    · exact fun g hg => hflow.trans hg
    · exact nofun
  · exact h.finish

theorem sound_waitForFlow (h : Live s) (hfits : Fits s p) (hp : p.part = 0) :
    Sound s.waitForFlow := by
  unfold waitForFlow
  split
  · next hwaits =>
    obtain ⟨-, hnone⟩ := hwaits
    split
    · next hasked =>
      have hunasked : Live { s with askRequested := false } := { h with asked := nofun }
      have hfits' : Fits { s with askRequested := false } p := { hfits with }
      apply hunasked.waits hfits'
      · exact ⟨h.asked hasked, h.announced.symm.trans hnone, hfits.unasked hp⟩
      · exact hp.trans_le (by decide)
      · exact nofun
      · exact nofun
      · rfl
      · exact nofun
      · exact fun _ _ => nofun
    · exact h.goesOn hfits trivial rfl hp.le nofun nofun
  · exact sound_leaveWaiting h hfits (by omega)

theorem sound_seekCode (h : Live s) (hfits : Fits s p) (hp : p.part ≤ 4)
    (hflow : s.announced = some flow) : Sound (s.seekCode flow) := by
  unfold seekCode
  split
  · exact h.finish
  · exact h.goesOn hfits (h.flowOf_eq hflow) rfl hp (fun g hg => hflow.trans hg) nofun

theorem sound_watch (h : Live s) (hfits : Fits s p) (hp : p.part ≤ 5)
    (hflow : s.announced = some flow) (hdrawn : CodeShown s.ledger) : Sound (s.watch flow) := by
  unfold watch
  split
  · exact h.finish
  · exact h.goesOn hfits (h.flowOf_eq hflow) rfl hp (fun g hg => hflow.trans hg) fun _ => hdrawn

/-! Until a flow exists. -/

theorem sound_created (h : Live s) (hfits : Fits s .creating) : Sound (s.created setting) := by
  have hcode : s.state.code = none := hfits.undrawn (by decide)
  let t : ScannedRun := (s.note (.call (.offerScannableCodes true false))).note
    (.call .onCryptoSignal)
  have hoffers : Live (s.note (.call (.offerScannableCodes true false))) :=
    h.note ⟨h.unfinished, trivial⟩ rfl rfl rfl nofun
  have hsubscribes : Live t :=
    hoffers.note (e := .call .onCryptoSignal) ⟨hoffers.unfinished, trivial⟩ rfl rfl rfl nofun
  have hoffered : Fits (s.note (.call (.offerScannableCodes true false))) .creating :=
    hfits.note rfl (fun _ => nofun) fun _ _ => nofun
  have hthere : Fits t .creating :=
    hoffered.note (e := .call .onCryptoSignal) rfl (fun _ => nofun) fun _ _ => nofun
  unfold created
  split
  · exact hoffers.failWith fun hne => absurd hcode hne
  · split
    · exact hsubscribes.failWith fun hne => absurd hcode hne
    · have hlive : Live { t with subscribed := true } := { hsubscribes with }
      have hfits' : Fits { t with subscribed := true } .creating := { hthere with }
      have hpublished := hlive.update (f := fun st =>
        { st with headline := "Publishing this device’s keys…" }) h.finished
          { hsubscribes.shown.toSays with }
      exact hpublished.goesOn (hfits'.update hfits'.unnamed hfits'.undrawn) trivial rfl
        (le_refl 0) nofun nofun

theorem sound_published (h : Live s) (hfits : Fits s .publishing) : Sound s.published :=
  sound_waitForFlow (h.update h.finished { h.shown.toSays with })
    (hfits.update hfits.unnamed hfits.undrawn) rfl

theorem sound_askedPumped (h : Live s) (hfits : Fits s .askedPump) : Sound s.askedPumped :=
  sound_leaveWaiting (h.update h.finished { h.shown.toSays with })
    (hfits.update hfits.unnamed hfits.undrawn) le_rfl

/-- The flow that was opened takes the place of one that was heard of. -/
theorem sound_asked (h : Live s) (hfits : Fits s .asking) (now : ℕ) :
    Sound ((s.note (.answer (.flow flow))).asked flow now) := by
  have hnone : opened s.ledger = none := hfits.unopened (by decide)
  have hopened : opened (s.ledger ++ [.answer (.flow flow)]) = some flow := by
    rw [opened_append, hnone]
    rfl
  have hname : s.state.verificationId = none := hfits.unnamed (by decide)
  let t : ScannedRun := { s.note (.answer (.flow flow)) with
    announced := some flow, openedHere := true, askedAt := now }
  have ht : Live t :=
    { justified := justified_append_singleton.mpr ⟨h.justified, trivial⟩
      unfinished := h.unfinished.append nofun
      finished := h.finished
      shown := h.shown.append h.finished (Or.inr hname)
      announced := by
        show some flow = flowOf (s.ledger ++ [.answer (.flow flow)])
        rw [flowOf, hopened]
        rfl
      openedHere := by
        show true = (opened (s.ledger ++ [.answer (.flow flow)])).isSome
        rw [hopened]
        rfl
      asked := fun hasked => List.mem_append_left _ (h.asked hasked)
      confirms := by
        show (s.ledger ++ [_]).countP _ + _ ≤ (s.ledger ++ [_]).countP _
        rw [List.countP_append, List.countP_append]
        exact h.confirms }
  have hfits' : Fits t .askedPump :=
    { flow := nofun
      unasked := nofun
      unopened := nofun
      unnamed := fun _ => hname
      unaccepted := by
        intro _ g hmem
        rcases List.mem_append.mp hmem with hmem | hmem
        · exact hfits.unaccepted (by decide) g hmem
        · cases List.mem_singleton.mp hmem
      undrawn := fun _ => hfits.undrawn (by decide)
      drawn := nofun }
  exact ht.goesOn hfits' trivial rfl (le_refl 2) nofun nofun

/-! Until a code is shown. -/

theorem sound_firstSeen (h : Live s) (hfits : Fits s (.firstStage flow)) {stage : FlowStage}
    (hlast : lastAnswer s.ledger = some (.stage stage)) : Sound (s.firstSeen flow stage) := by
  have hflow := hfits.flow flow rfl
  unfold firstSeen
  split
  · next haccepts =>
    obtain ⟨hopened, rfl⟩ := haccepts
    apply h.waits hfits
    · exact ⟨h.flowOf_eq hflow, h.opened_eq_none hopened, hlast, hfits.unaccepted le_rfl⟩
    · exact Nat.le_succ 3
    · exact fun g hg => hflow.trans hg
    · exact nofun
    · rfl
    · exact nofun
    · exact nofun
  · exact sound_seekCode h hfits (Nat.le_succ 3) hflow

theorem sound_nameStage (h : Live s) (hfits : Fits s (.seekingStage flow)) {stage : FlowStage}
    (hlast : lastAnswer s.ledger = some (.stage stage)) : Sound (s.nameStage flow stage) := by
  have hflow := hfits.flow flow rfl
  have hcode : s.state.code = none := hfits.undrawn le_rfl
  have hreads : stage = .ready ∨ stage = .started →
      Sound (s.waitFor (.getVerificationCode flow) (.reading flow)) := by
    intro hstage
    have hread : lastAnswer s.ledger = some (.stage .ready) ∨
        lastAnswer s.ledger = some (.stage .started) := by
      rcases hstage with rfl | rfl
      · exact Or.inl hlast
      · exact Or.inr hlast
    exact h.goesOn hfits ⟨h.flowOf_eq hflow, hread⟩ rfl (le_refl 4) (fun g hg => hflow.trans hg)
      nofun
  have hsyncs : Sound (s.waitFor (.syncOnce s.since) (.seekingSync flow)) :=
    h.goesOn hfits trivial rfl (le_refl 4) (fun g hg => hflow.trans hg) nofun
  unfold nameStage
  split
  · exact h.failed hcode fun st => ⟨rfl, rfl, rfl, rfl, rfl, rfl⟩
  · exact h.failed hcode fun st => ⟨rfl, rfl, rfl, rfl, rfl, rfl⟩
  · exact hreads (Or.inl rfl)
  · exact hreads (Or.inr rfl)
  · exact hsyncs

/-- A reading is shown. -/
theorem Live.staged (h : Live s) {stage : FlowStage} (hlast : lastAnswer s.ledger =
    some (.stage stage)) : Live (s.update fun st => { st with stage := some stage }) := by
  apply h.update h.finished
  exact { h.shown.toSays with
    stage := fun g hg => Option.some.inj hg ▸ mem_of_lastAnswer hlast }

theorem Fits.staged (h : Fits s p) (stage : FlowStage) :
    Fits (s.update fun st => { st with stage := some stage }) p :=
  h.update h.unnamed h.undrawn

theorem lastAnswer_update (s : ScannedRun) (f : ScannedCodeState → ScannedCodeState) :
    lastAnswer (s.update f).ledger = lastAnswer s.ledger := by
  show lastAnswer (s.ledger ++ [.publish (f s.state)]) = _
  rw [lastAnswer_append]
  rfl

theorem sound_sought (h : Live s) (hfits : Fits s (.seekingStage flow)) {stage : FlowStage}
    (hlast : lastAnswer s.ledger = some (.stage stage)) (now : ℕ) :
    Sound (s.sought setting flow stage now) := by
  have hflow := hfits.flow flow rfl
  have hlive := h.staged hlast
  have hlast' : lastAnswer (s.update fun st => { st with stage := some stage }).ledger =
      some (.stage stage) := (lastAnswer_update ..).trans hlast
  unfold sought
  dsimp only
  split
  · next hcancels =>
    obtain ⟨hopened, rfl, -⟩ := hcancels
    exact hlive.goesOn (hfits.staged _) ⟨hlive.opened_eq hopened hflow, hlast'⟩ rfl (le_refl 4)
      (fun g hg => hflow.trans hg) nofun
  · exact sound_nameStage hlive (hfits.staged _) hlast'

theorem sound_giveUp (h : Live s) (hfits : Fits s p) (hp : p.part ≤ 4) (delivered : Bool) :
    Sound (s.giveUp setting delivered) :=
  h.failed (hfits.undrawn hp) fun _ => ⟨rfl, rfl, rfl, rfl, rfl, rfl⟩

theorem sound_notCancelled (h : Live s) (hfits : Fits s (.cancelling flow)) {e : Thrown} :
    Sound (s.notCancelled flow e) := by
  have hflow := hfits.flow flow rfl
  unfold notCancelled
  split
  · exact h.goesOn hfits (h.flowOf_eq hflow) rfl (le_refl 4) (fun g hg => hflow.trans hg) nofun
  · exact h.failWith fun hne => absurd (hfits.undrawn (le_refl 4)) hne

theorem sound_restaged (h : Live s) (hfits : Fits s (.restaging flow)) {stage : FlowStage}
    (hlast : lastAnswer s.ledger = some (.stage stage)) : Sound (s.restaged flow stage) := by
  have hflow := hfits.flow flow rfl
  have hlive := h.staged hlast
  unfold restaged
  dsimp only
  split
  · exact hlive.goesOn (hfits.staged _) trivial rfl (le_refl 4) nofun nofun
  · exact sound_seekCode hlive (hfits.staged _) (le_refl 4) hflow

theorem sound_attempted (h : Live s) {attempt : ℕ} (hfits : Fits s (.delivering attempt)) :
    Sound (s.attempted setting attempt) := by
  unfold attempted
  split
  · exact h.goesOn hfits trivial rfl (le_refl 4) nofun nofun
  · exact sound_giveUp h hfits (le_refl 4) false

theorem sound_coded (h : Live s) (hfits : Fits s (.reading flow)) {code : ScannableCode}
    (hlast : lastAnswer s.ledger = some (.code code)) : Sound (s.coded flow code) := by
  have hflow := hfits.flow flow rfl
  unfold coded
  split
  · exact h.finish
  · let f : ScannedCodeState → ScannedCodeState := fun st => { st with
      code := some code
      headline := "Point the other client’s camera at this code."
      detail := some ("It is drawn from the bytes this library produced, at the size the " ++
        "protocol fixes. Hold the screen still and fill the viewfinder.") }
    have hlive : Live (s.update f) := by
      apply h.update h.finished
      exact { h.shown.toSays with
        code := fun g hg => Option.some.inj hg ▸ mem_of_lastAnswer hlast }
    have hdrawn : CodeShown (s.update f).ledger :=
      ⟨f s.state, List.mem_append_right _ (List.mem_singleton_self _), rfl⟩
    have hwatching : Fits (s.update f) (.watchingSync flow) :=
      .watching rfl (fun g hg => hflow.trans hg) hdrawn
    exact sound_watch hlive hwatching (le_refl 5) hflow hdrawn

theorem sound_uncoded (h : Live s) (hfits : Fits s (.reading flow)) (e : Thrown) :
    Sound (s.uncoded flow e) := by
  have hflow := hfits.flow flow rfl
  have hcode : s.state.code = none := hfits.undrawn (le_refl 4)
  cases e with
  | other text => exact h.failWith fun hne => absurd hcode hne
  | crypto kind =>
    by_cases hkind : kind = .wrongStage
    · rw [uncoded, if_pos hkind]
      exact h.goesOn hfits trivial rfl (le_refl 4) (fun g hg => hflow.trans hg) nofun
    · rw [uncoded, if_neg hkind]
      exact h.failed hcode fun _ => ⟨rfl, rfl, rfl, rfl, rfl, rfl⟩

/-! Until the flow is over. -/

/-- The third loop ends as its last reading says. -/
theorem sound_watchOn (h : Live s) (hfits : Fits s p) (hp : p.part = 5)
    (hflow : s.announced = some flow) {stage : FlowStage}
    (hlast : lastAnswer s.ledger = some (.stage stage)) : Sound (s.watchOn flow stage) := by
  unfold watchOn
  split
  · apply h.over
    exact { h.shown with
      code := nofun
      awaiting := nofun
      failed := nofun
      verified := fun _ _ => ⟨hlast, hfits.drawn hp⟩
      cleared := fun _ hne => absurd rfl hne }
  · apply h.over
    exact { h.shown with
      code := nofun
      awaiting := nofun
      failed := fun _ => rfl
      verified := fun _ hnot => nomatch hnot
      cleared := fun _ hne => absurd rfl hne }
  · exact h.goesOn hfits trivial rfl hp.le (fun g hg => hflow.trans hg) fun _ => hfits.drawn hp

/-- A confirmation that is held is acted on once. -/
theorem sound_confirms (h : Live s) (hfits : Fits s p) (hp : p.part = 5)
    (hflow : s.announced = some flow) (hlast : lastAnswer s.ledger = some (.stage .codeScanned))
    (hheld : s.confirmRequested = true) :
    Sound (({ s with confirmRequested := false } : ScannedRun).waitFor (.confirmScan flow)
      (.confirming flow)) := by
  have hconfirms := h.confirms
  rw [hheld, Bool.toNat_true] at hconfirms
  have hcalled : Called s.ledger (.confirmScan flow) :=
    ⟨h.flowOf_eq hflow, hlast, hfits.drawn hp, by omega⟩
  let t : ScannedRun := ({ s with confirmRequested := false } : ScannedRun).waitFor
    (.confirmScan flow) (.confirming flow)
  have hjustified : Justified Warranted t.ledger :=
    justified_append_singleton.mpr ⟨h.justified, h.unfinished, hcalled⟩
  have hlive : Live t :=
    { justified := hjustified
      unfinished := h.unfinished.append nofun
      finished := h.finished
      shown := h.shown.append h.finished (Or.inl rfl)
      announced := h.announced.trans (flowOf_append rfl rfl).symm
      openedHere := by
        show s.openedHere = (opened (s.ledger ++ [.call (.confirmScan flow)])).isSome
        rw [opened_append]
        exact h.openedHere.trans (congrArg Option.isSome (Option.or_none).symm)
      asked := fun hasked => List.mem_append_left _ (h.asked hasked)
      confirms := by
        show (s.ledger ++ [_]).countP _ + 0 ≤ (s.ledger ++ [_]).countP _
        rw [List.countP_append, List.countP_append]
        exact hconfirms }
  exact ⟨hjustified, fun _ => ⟨hlive, .watching rfl (fun g hg => hflow.trans hg)
    ((hfits.drawn hp).append _)⟩⟩

theorem sound_watched (h : Live s) (hfits : Fits s (.watchingStage flow)) {stage : FlowStage}
    (hlast : lastAnswer s.ledger = some (.stage stage)) : Sound (s.watched flow stage) := by
  have hflow := hfits.flow flow rfl
  have hlive := h.staged hlast
  have hlast' := (lastAnswer_update s fun st => { st with stage := some stage }).trans hlast
  unfold watched
  dsimp only
  split
  · next hscanned =>
    subst hscanned
    let f : ScannedCodeState → ScannedCodeState := fun st => { st with
      awaitingConfirmation := true
      headline := "The other device says it scanned this code."
      detail := some "Was that really your other device? Confirm only if it was." }
    let t : ScannedRun := (s.update fun st => { st with stage := some .codeScanned }).update f
    have hasking : Live t := by
      apply hlive.update (f := f) h.finished
      exact { hlive.shown.toSays with
        awaiting := fun _ => mem_of_lastAnswer hlast' }
    have hthere : Fits t (.watchingStage flow) := (hfits.staged _).update (f := f) nofun nofun
    have hlast'' : lastAnswer t.ledger = some (.stage .codeScanned) :=
      (lastAnswer_update ..).trans hlast'
    split
    · next hheld => exact sound_confirms hasking hthere rfl hflow hlast'' hheld
    · exact sound_watchOn hasking hthere rfl hflow hlast''
  · exact sound_watchOn hlive (hfits.staged _) rfl hflow hlast'

theorem sound_confirmed (h : Live s) (hfits : Fits s (.confirmedPump flow)) :
    Sound (s.confirmed flow) := by
  have hflow := hfits.flow flow rfl
  have hlive : Live (s.update fun st => { st with
      awaitingConfirmation := false
      headline := "Confirmed. Waiting for the other device to finish."
      detail := none }) := h.update h.finished { h.shown.toSays with awaiting := nofun }
  exact hlive.goesOn (hfits.update nofun nofun) trivial rfl (le_refl 5)
    (fun g hg => hflow.trans hg) fun _ => (hfits.drawn rfl).append _

/-! What comes back. -/

theorem Live.since (h : Live s) (since : String) : Live { s with since := since } := { h with }

theorem Fits.since (h : Fits s p) (since : String) : Fits { s with since := since } p := { h with }

/-- Whatever comes back, but for the flow that was asked for, the run goes on as it allows. -/
theorem sound_resume {a : Answer} {now : ℕ} {t : ScannedRun} (h : Live s) (hfits : Fits s p)
    (hlast : lastAnswer s.ledger = some a) (ha : ∀ g, a ≠ .flow g)
    (hres : s.resume setting now p a = some t) : Sound t := by
  have hthrows : ∀ e, a = .threw e → Sound (s.failWith e) := by
    rintro e rfl
    exact h.failWith fun _ => hlast
  unfold resume at hres
  -- the places, in the order of the run
  split at hres
  · exact Option.some.inj hres ▸ sound_created h hfits
  · exact Option.some.inj hres ▸ sound_published h hfits
  · next flow => exact absurd rfl (ha flow)
  · exact Option.some.inj hres ▸ sound_askedPumped h hfits
  · next since =>
    exact Option.some.inj hres ▸ sound_waitForFlow (h.since since) (hfits.since since) rfl
  · exact Option.some.inj hres ▸ sound_firstSeen h hfits hlast
  · next flow =>
    exact Option.some.inj hres ▸ h.goesOn hfits trivial rfl (le_refl 4) hfits.flow nofun
  · next flow _ =>
    exact Option.some.inj hres ▸ sound_seekCode h hfits (le_refl 4) (hfits.flow flow rfl)
  · exact Option.some.inj hres ▸ sound_sought h hfits hlast now
  · exact Option.some.inj hres ▸ h.goesOn hfits trivial rfl (le_refl 4) nofun nofun
  · exact Option.some.inj hres ▸ sound_notCancelled h hfits
  · exact Option.some.inj hres ▸ sound_restaged h hfits hlast
  · exact Option.some.inj hres ▸ sound_giveUp h hfits (le_refl 4) true
  · exact Option.some.inj hres ▸ sound_attempted h hfits
  · exact Option.some.inj hres ▸ sound_attempted h hfits
  · exact Option.some.inj hres ▸ h.goesOn hfits trivial rfl (le_refl 4) nofun nofun
  · exact Option.some.inj hres ▸ sound_coded h hfits hlast
  · next flow e => exact Option.some.inj hres ▸ sound_uncoded h hfits e
  · next flow since =>
    exact Option.some.inj hres ▸ sound_seekCode (h.since since) (hfits.since since) (le_refl 4)
      (hfits.flow flow rfl)
  · exact Option.some.inj hres ▸ sound_watched h hfits hlast
  · next flow =>
    exact Option.some.inj hres ▸ h.goesOn hfits trivial rfl (le_refl 5) hfits.flow hfits.drawn
  · exact Option.some.inj hres ▸ sound_confirmed h hfits
  · next flow since =>
    exact Option.some.inj hres ▸ (h.since since).goesOn (hfits.since since) trivial rfl
      (le_refl 5) hfits.flow hfits.drawn
  · next flow =>
    exact Option.some.inj hres ▸ sound_watch h hfits (le_refl 5) (hfits.flow flow rfl)
      (hfits.drawn rfl)
  · cases hres
  · exact Option.some.inj hres ▸ hthrows _ rfl
  · cases hres

/-! ### What a step keeps -/

theorem sound_press (h : Sound s) (b : Press) : Sound (s.press b) := by
  have hjustified : ∀ e, Warranted s.ledger e → Justified Warranted (s.note e).ledger :=
    fun e he => justified_append_singleton.mpr ⟨h.justified, he⟩
  cases b with
  | confirm =>
    refine ⟨hjustified (.press .confirm) trivial, fun hp => ?_⟩
    obtain ⟨hlive, hfits⟩ := h.live hp
    have hconfirms := hlive.confirms
    have hnoted : Live (s.note (.press .confirm)) := hlive.note trivial rfl rfl rfl nofun
    have hfits' : Fits (s.note (.press .confirm)) s.place :=
      hfits.note rfl (fun _ => nofun) fun _ _ => nofun
    refine ⟨{ hnoted with confirms := ?_ }, { hfits' with }⟩
    -- one more was asked for, and one is held
    show (s.ledger ++ [_]).countP _ + 1 ≤ (s.ledger ++ [_]).countP _
    rw [List.countP_append, List.countP_append]
    simp only [List.countP_singleton, Entry.isConfirmScan, Entry.isConfirmPress,
      Bool.false_eq_true, if_false, if_true]
    omega
  | askOtherDevices =>
    refine ⟨hjustified (.press .askOtherDevices) trivial, fun hp => ?_⟩
    obtain ⟨hlive, hfits⟩ := h.live hp
    have hnoted : Live (s.note (.press .askOtherDevices)) :=
      hlive.note trivial rfl rfl rfl nofun
    have hfits' : Fits (s.note (.press .askOtherDevices)) s.place :=
      hfits.note rfl (fun _ => nofun) fun _ _ => nofun
    refine ⟨{ hnoted with asked := fun _ => ?_ }, { hfits' with }⟩
    exact List.mem_append_right _ (List.mem_singleton_self _)
  | stop =>
    refine ⟨hjustified (.press .stop) trivial, fun hp => ?_⟩
    obtain ⟨hlive, hfits⟩ := h.live hp
    have hnoted : Live (s.note (.press .stop)) := hlive.note trivial rfl rfl rfl nofun
    have hfits' : Fits (s.note (.press .stop)) s.place :=
      hfits.note rfl (fun _ => nofun) fun _ _ => nofun
    exact ⟨{ hnoted with }, { hfits' with }⟩

/-- A flow that is heard of is the one, if there is none yet. -/
theorem Live.hears (h : Live s) (flow : String) :
    Live { s.note (.heard flow) with announced := s.announced.or (some flow) } where
  justified := justified_append_singleton.mpr ⟨h.justified, trivial⟩
  unfinished := h.unfinished.append nofun
  finished := h.finished
  shown := h.shown.append h.finished (Or.inl rfl)
  announced := by
    show s.announced.or (some flow) = flowOf (s.ledger ++ [.heard flow])
    have ho : (Entry.heard flow).opened? = none := rfl
    rw [h.announced, flowOf, flowOf, opened_append, invited_append, ho, Option.or_none,
      Option.or_assoc]
    rfl
  openedHere := by
    show s.openedHere = (opened (s.ledger ++ [.heard flow])).isSome
    rw [opened_append]
    exact h.openedHere.trans (congrArg Option.isSome (Option.or_none).symm)
  asked := fun hasked => List.mem_append_left _ (h.asked hasked)
  confirms := by
    show (s.ledger ++ [_]).countP _ + _ ≤ (s.ledger ++ [_]).countP _
    rw [List.countP_append, List.countP_append]
    exact h.confirms

theorem sound_hear (h : Sound s) (signal : CryptoSignal) : Sound (s.hear signal) := by
  cases signal with
  | verificationRequested user device flow =>
    have heq : s.hear (.verificationRequested user device flow) = if s.subscribed then
        { s.note (.heard flow) with announced := s.announced.or (some flow) } else s := by
      unfold hear
      cases hannounced : s.announced <;> simp [note, hannounced]
    rw [heq]
    split
    · refine ⟨justified_append_singleton.mpr ⟨h.justified, trivial⟩, fun hp => ?_⟩
      obtain ⟨hlive, hfits⟩ := h.live hp
      have hfits' : Fits (s.note (.heard flow)) s.place :=
        hfits.note rfl (fun _ => nofun) fun _ _ => nofun
      refine ⟨hlive.hears flow, { hfits' with flow := fun g hg => ?_ }⟩
      show s.announced.or (some flow) = some g
      rw [hfits.flow g hg]
      rfl
    · exact h
  | _ => exact h

theorem sound_answer {a : Answer} {now : ℕ} {t : ScannedRun} (h : Sound s)
    (hres : (s.note (.answer a)).resume setting now s.place a = some t) : Sound t := by
  by_cases hp : s.place = .ended
  · rw [hp] at hres
    cases hres
  · obtain ⟨hlive, hfits⟩ := h.live hp
    by_cases ha : ∃ g, a = .flow g
    · -- the one answer that says which flow the run is about
      obtain ⟨g, rfl⟩ := ha
      cases hplace : s.place with
      | asking =>
        rw [hplace] at hres hfits
        exact Option.some.inj hres ▸ sound_asked hlive hfits now
      | _ =>
        rw [hplace] at hres
        cases hres
    · have hnot : ∀ g, a ≠ .flow g := fun g hg => ha ⟨g, hg⟩
      have hopened : (Entry.answer a).opened? = none := by
        cases a with
        | flow g => exact absurd rfl (hnot g)
        | _ => rfl
      have hnoted : Live (s.note (.answer a)) := hlive.note trivial hopened rfl rfl nofun
      have hthere : Fits (s.note (.answer a)) s.place :=
        hfits.note hopened (fun _ => nofun) fun _ _ => nofun
      apply sound_resume hnoted hthere _ hnot hres
      exact lastAnswer_append s.ledger (.answer a)

theorem sound_startScannedCodeRun : Sound setting.startScannedCodeRun := by
  have hjustified : Justified Warranted setting.startScannedCodeRun.ledger :=
    justified_append_singleton.mpr ⟨justified_nil, nofun, trivial⟩
  refine ⟨hjustified, fun _ => ⟨?_, ?_⟩⟩
  · exact
      { justified := hjustified
        unfinished := fun st hst => by cases List.mem_singleton.mp hst
        finished := rfl
        shown := Says.shown ⟨nofun, nofun, nofun, nofun, nofun⟩ rfl
        announced := rfl
        openedHere := rfl
        asked := nofun
        confirms := le_rfl }
  · exact
      { flow := nofun
        unasked := fun _ hmem => by cases List.mem_singleton.mp hmem
        unopened := fun _ => rfl
        unnamed := fun _ => rfl
        unaccepted := fun _ g hmem => by cases List.mem_singleton.mp hmem
        undrawn := fun _ => rfl
        drawn := nofun }

theorem sound_of_reachable (h : setting.scannedRun.Reachable s) : Sound s := by
  apply h.invariant
  · rintro _ rfl
    exact sound_startScannedCodeRun
  · intro s event t hs hstep
    cases event with
    | press b => exact Option.some.inj hstep ▸ sound_press hs b
    | signal signal => exact Option.some.inj hstep ▸ sound_hear hs signal
    | answer a now => exact sound_answer hs hstep

end ScannedRun

open ScannedRun

variable {setting : ScannedSetting} {s : ScannedRun}

/-- **Everything a run does is warranted by what it was told**, and no scan is confirmed that the
person did not press for. -/
theorem warranted_of_reachable (h : setting.scannedRun.Reachable s) :
    Justified Warranted s.ledger ∧
      s.ledger.countP Entry.isConfirmScan ≤ s.ledger.countP Entry.isConfirmPress := by
  have hjustified := (sound_of_reachable h).justified
  refine ⟨hjustified, hjustified.countP_le ?_⟩
  intro l e he hscan
  cases e with
  | call c =>
    cases c with
    | confirmScan flow => exact he.2.2.2.2
    | _ => cases hscan
  | _ => cases hscan

/-! A run that is asked from this side, and verified. -/

/-- What an event comes to, if it can happen. -/
def ScannedSetting.after (setting : ScannedSetting) (s : ScannedRun) (e : RunEvent) : ScannedRun :=
  (setting.step s e).getD s

theorem reachable_foldl_after (setting : ScannedSetting) (events : List RunEvent) :
    setting.scannedRun.Reachable (events.foldl setting.after setting.startScannedCodeRun) := by
  induction events using List.reverseRecOn with
  | nil => exact ⟨_, [], rfl, .nil _⟩
  | append_singleton events e ih =>
    rw [List.foldl_append, List.foldl_cons, List.foldl_nil]
    generalize events.foldl setting.after setting.startScannedCodeRun = t at ih ⊢
    unfold ScannedSetting.after
    cases hstep : setting.step t e with
    | none => exact ih
    | some u => exact ih.run (.single hstep)

def walkthrough : ScannedSetting where
  plan := ⟨"https://example.org", "@alice:example.org", "PHONE", "token"⟩
  storeDir := "/files"
  unansweredRequestMs := unansweredRequestMs
  offering := none
  subscribing := none

/-- The person asks, holds the code up, and confirms what the other device says. -/
def verifying : List RunEvent :=
  [.answer .done 0, .answer (.pumped 1) 0, .press .askOtherDevices, .answer (.synced "s1") 1,
    .answer (.flow "f1") 2, .answer (.pumped 1) 3, .answer (.stage .requested) 4,
    .answer (.stage .ready) 5, .answer (.code ⟨[77, 65], 45, []⟩) 6,
    .answer (.stage .codeScanned) 7, .press .confirm, .answer (.synced "s2") 8, .answer .done 9,
    .answer (.stage .codeScanned) 10, .answer .done 11, .answer (.pumped 1) 12,
    .answer (.synced "s3") 13, .answer .done 14, .answer (.stage .done) 15]

/-- The run it comes to. -/
def verifiedRun : ScannedRun := verifying.foldl walkthrough.after walkthrough.startScannedCodeRun

theorem warranted_of_reachable_verified :
    (verifiedRun.state.headline = "Verified." ∧
        verifiedRun.ledger.countP Entry.isConfirmScan = 1) ∧
      Justified Warranted verifiedRun.ledger ∧
        verifiedRun.ledger.countP Entry.isConfirmScan ≤
          verifiedRun.ledger.countP Entry.isConfirmPress :=
  ⟨by decide, warranted_of_reachable (reachable_foldl_after walkthrough verifying)⟩

end App
end MatrixCrypto
