import MatrixCrypto.App.Pump
import MatrixCrypto.Facade.Errors
import MatrixCrypto.Lib.Ledger
import MatrixCrypto.Lib.Transition
import MatrixCrypto.Machine.Init
import MatrixCrypto.Signals.Channel
import MatrixCrypto.Verification.Code

/-!
# A run that shows a code

The product's run from a cold machine to a verification by a scanned code.  It waits at every call;
while it waits a person presses buttons and signals arrive, in any order, and the calls come back
as they like.  What the run did, and what it was told, is kept in a ledger.

## Main definitions

* `ScannedCodeState` — what the screen draws.
* `Place` — where the run waits.
* `ScannedRun`, `ScannedRun.resume` — the run, and how it goes on with what came back.
* `ScannedSetting.scannedRun` — its transition system.
-/

namespace MatrixCrypto
namespace App

open Lib

/-! ### What the run tells and is told -/

/-- What the screen draws. -/
structure ScannedCodeState where
  headline : String
  detail : Option String
  /-- `none` draws nothing. -/
  code : Option ScannableCode
  verificationId : Option String
  stage : Option FlowStage
  awaitingConfirmation : Bool
  finished : Bool
  /-- Over, and nothing was verified. -/
  failed : Bool
  deriving DecidableEq, Repr

/-- What a call throws. -/
inductive Thrown
  | crypto (kind : Facade.CryptoErrorKind)
  | other (text : String)
  deriving DecidableEq, Repr

/-- What the run calls. -/
inductive RunnerCall
  | createCryptoMachine (config : MachineConfig)
  | offerScannableCodes (canShow canScan : Bool)
  | onCryptoSignal
  | requestSelfVerification
  | getVerificationStage (flow : String)
  | acceptVerification (flow : String)
  | cancelVerification (flow : String)
  | getVerificationCode (flow : String)
  | confirmScan (flow : String)
  | pump
  | syncOnce (since : String)
  | sleep (ms : ℕ)
  deriving DecidableEq, Repr

/-- What comes back. -/
inductive Answer
  | done
  | flow (id : String)
  | stage (stage : FlowStage)
  | code (code : ScannableCode)
  /-- How many requests a pump was handed. -/
  | pumped (n : ℕ)
  | synced (since : String)
  | threw (e : Thrown)
  deriving DecidableEq, Repr

/-- The handle of a run, as a person uses it. -/
inductive Press
  | confirm
  | askOtherDevices
  | stop
  deriving DecidableEq, Repr

/-- What is kept of a run. -/
inductive Entry
  | call (c : RunnerCall)
  | answer (a : Answer)
  | press (p : Press)
  /-- A flow of somebody else's that the run was told of. -/
  | heard (flow : String)
  | publish (state : ScannedCodeState)
  deriving DecidableEq, Repr

/-- Where the run waits.  The flow it is about stays what it was once there is one. -/
inductive Place
  | creating
  | publishing
  | asking
  | askedPump
  | waitingSync
  | firstStage (flow : String)
  | accepting (flow : String)
  | acceptedPump (flow : String)
  | seekingStage (flow : String)
  | cancelling (flow : String)
  | restaging (flow : String)
  /-- The pump of an attempt to deliver the call-off. -/
  | delivering (attempt : ℕ)
  | resting (attempt : ℕ)
  | reading (flow : String)
  | seekingSync (flow : String)
  | watchingStage (flow : String)
  | confirming (flow : String)
  | confirmedPump (flow : String)
  | watchingSync (flow : String)
  | pausing (flow : String)
  | ended
  deriving DecidableEq, Repr

/-- What a run is started with, and what the two calls that are not waited for throw. -/
structure ScannedSetting where
  plan : ScannedCodePlan
  storeDir : String
  unansweredRequestMs : ℕ
  offering : Option Thrown
  subscribing : Option Thrown

/-- `UNANSWERED_REQUEST_MS`, the budget of a run that is given none. -/
def unansweredRequestMs : ℕ := 180000

/-- `STAGE_POLL_MS`. -/
def stagePollMs : ℕ := 400

/-- `CANCEL_PUMP_RETRY_MS`. -/
def cancelPumpRetryMs : ℕ := 500

/-- What the screen says of an error. -/
def Thrown.detail : Thrown → String
  | .crypto kind => "kind: " ++ kind.text
  | .other text => text

/-! ### The run -/

/-- A run. -/
structure ScannedRun where
  place : Place
  state : ScannedCodeState
  stopped : Bool
  confirmRequested : Bool
  askRequested : Bool
  /-- Whether it is subscribed to signals. -/
  subscribed : Bool
  announced : Option String
  openedHere : Bool
  askedAt : ℕ
  since : String
  ledger : List Entry

namespace ScannedRun

def note (s : ScannedRun) (e : Entry) : ScannedRun := { s with ledger := s.ledger ++ [e] }

/-- `update`: the screen is published. -/
def update (s : ScannedRun) (f : ScannedCodeState → ScannedCodeState) : ScannedRun :=
  { s with state := f s.state, ledger := s.ledger ++ [.publish (f s.state)] }

/-- A call is made, and waited for. -/
def waitFor (s : ScannedRun) (c : RunnerCall) (p : Place) : ScannedRun :=
  { s with place := p, ledger := s.ledger ++ [.call c] }

/-- The run returns: it is unsubscribed, however it ends. -/
def finish (s : ScannedRun) : ScannedRun := { s with place := .ended, subscribed := false }

/-- What the run catches ends it. -/
def failWith (s : ScannedRun) (e : Thrown) : ScannedRun :=
  (s.update fun st => { st with
    headline := "The run stopped on an error."
    detail := some e.detail
    finished := true
    failed := true }).finish

/-! Until a flow exists. -/

/-- What follows the first loop. -/
def leaveWaiting (s : ScannedRun) : ScannedRun :=
  match s.stopped, s.announced with
  | false, some flow =>
    (({ s with askRequested := false } : ScannedRun).update fun st =>
      { st with verificationId := some flow }).waitFor (.getVerificationStage flow)
        (.firstStage flow)
  | _, _ => s.finish

/-- The first loop. -/
def waitForFlow (s : ScannedRun) : ScannedRun :=
  if s.stopped = false ∧ s.announced = none then
    if s.askRequested then
      ({ s with askRequested := false } : ScannedRun).waitFor .requestSelfVerification .asking
    else s.waitFor (.syncOnce s.since) .waitingSync
  else s.leaveWaiting

/-- What follows the creation of the machine. -/
def created (setting : ScannedSetting) (s : ScannedRun) : ScannedRun :=
  let s := s.note (.call (.offerScannableCodes true false))
  match setting.offering with
  | some e => s.failWith e
  | none =>
    let s := s.note (.call .onCryptoSignal)
    match setting.subscribing with
    | some e => s.failWith e
    | none =>
      (({ s with subscribed := true } : ScannedRun).update fun st =>
        { st with headline := "Publishing this device’s keys…" }).waitFor .pump .publishing

def published (s : ScannedRun) : ScannedRun :=
  (s.update fun st => { st with
    headline := "Waiting for your other client to start a verification."
    detail := some
      ("In Element, open Settings, Sessions, this session, and choose to verify it. " ++
        "Or press the button below to ask from this side instead.") }).waitForFlow

/-- The flow of this side takes the place of one that was heard of meanwhile. -/
def asked (s : ScannedRun) (flow : String) (now : ℕ) : ScannedRun :=
  ({ s with announced := some flow, openedHere := true, askedAt := now } : ScannedRun).waitFor
    .pump .askedPump

def askedPumped (s : ScannedRun) : ScannedRun :=
  (s.update fun st => { st with
    headline := "Asked your other devices to verify."
    detail := some "Accept it there; this screen will show the code once it does." }).leaveWaiting

/-! Until a code is shown. -/

/-- The second loop. -/
def seekCode (s : ScannedRun) (flow : String) : ScannedRun :=
  if s.stopped then s.finish
  else s.waitFor (.getVerificationStage flow) (.seekingStage flow)

/-- A flow that this side opened is agreed to already. -/
def firstSeen (s : ScannedRun) (flow : String) (stage : FlowStage) : ScannedRun :=
  if s.openedHere = false ∧ stage = .requested then
    s.waitFor (.acceptVerification flow) (.accepting flow)
  else s.seekCode flow

/-- What the second loop does with a stage. -/
def nameStage (s : ScannedRun) (flow : String) (stage : FlowStage) : ScannedRun :=
  match stage with
  | .cancelled | .done =>
    (s.update fun st => { st with
      headline :=
        if stage = .done then "The verification finished before this device showed a code."
        else "The verification was called off."
      detail := some "Start again from the other client."
      finished := true
      failed := true }).finish
  | .ready | .started => s.waitFor (.getVerificationCode flow) (.reading flow)
  | _ => s.waitFor (.syncOnce s.since) (.seekingSync flow)

/-- A request nobody answers is called off. -/
def sought (setting : ScannedSetting) (s : ScannedRun) (flow : String) (stage : FlowStage)
    (now : ℕ) : ScannedRun :=
  let s := s.update fun st => { st with stage := some stage }
  if s.openedHere ∧ stage = .requested ∧ s.askedAt + setting.unansweredRequestMs < now then
    s.waitFor (.cancelVerification flow) (.cancelling flow)
  else s.nameStage flow stage

/-- The call-off is delivered, or its attempts ran out. -/
def giveUp (setting : ScannedSetting) (s : ScannedRun) (delivered : Bool) : ScannedRun :=
  (s.update fun st => { st with
    headline := "The verification request went unanswered."
    detail := some ("Nothing accepted it within " ++
      toString ((setting.unansweredRequestMs + 500) / 1000) ++ " s, " ++
      "so the run called it off. Start again and accept from the other device." ++
      (if delivered then ""
        else " The call-off could not be delivered; the other device may still show the request."))
    finished := true
    failed := true }).finish

/-- The stage moved since it was read: it is read again. -/
def notCancelled (s : ScannedRun) (flow : String) (e : Thrown) : ScannedRun :=
  if e = .crypto .wrongStage then s.waitFor (.getVerificationStage flow) (.restaging flow)
  else s.failWith e

def restaged (s : ScannedRun) (flow : String) (stage : FlowStage) : ScannedRun :=
  let s := s.update fun st => { st with stage := some stage }
  if stage = .requested then s.waitFor .pump (.delivering 0)
  else s.seekCode flow

/-- An attempt that was handed something, or that failed, is followed by another. -/
def attempted (setting : ScannedSetting) (s : ScannedRun) (attempt : ℕ) : ScannedRun :=
  if attempt + 1 < Surroundings.cancelPumpAttempts then
    s.waitFor (.sleep cancelPumpRetryMs) (.resting attempt)
  else s.giveUp setting false

/-- The third loop. -/
def watch (s : ScannedRun) (flow : String) : ScannedRun :=
  if s.stopped then s.finish
  else s.waitFor (.getVerificationStage flow) (.watchingStage flow)

/-- The code is drawn, unless the run was stopped meanwhile. -/
def coded (s : ScannedRun) (flow : String) (code : ScannableCode) : ScannedRun :=
  if s.stopped then s.finish
  else (s.update fun st => { st with
    code := some code
    headline := "Point the other client’s camera at this code."
    detail := some ("It is drawn from the bytes this library produced, at the size the " ++
      "protocol fixes. Hold the screen still and fill the viewfinder.") }).watch flow

/-- Where the code is not built yet the loop goes on. -/
def uncoded (s : ScannedRun) (flow : String) : Thrown → ScannedRun
  | .other text => s.failWith (.other text)
  | .crypto kind =>
    if kind = .wrongStage then s.waitFor (.syncOnce s.since) (.seekingSync flow)
    else (s.update fun st => { st with
      headline := "This device cannot show a code: " ++ kind.text ++ "."
      detail := some ("Both accounts need a published signing identity and each side needs " ++
        "to know the other’s device before a code exists.")
      finished := true
      failed := true }).finish

/-! Until the flow is over. -/

/-- What the third loop does with a stage, once the person was asked about it. -/
def watchOn (s : ScannedRun) (flow : String) (stage : FlowStage) : ScannedRun :=
  match stage with
  | .done =>
    (s.update fun st => { st with
      headline := "Verified."
      detail := some "A camera read what this library drew and the flow completed."
      awaitingConfirmation := false
      finished := true
      failed := false
      code := none }).finish
  | .cancelled =>
    (s.update fun st => { st with
      headline := "The verification was called off."
      detail := some "Nothing was verified. Start again from the other client."
      awaitingConfirmation := false
      finished := true
      failed := true
      code := none }).finish
  | _ => s.waitFor (.syncOnce s.since) (.watchingSync flow)

/-- The person is asked, and answers by having pressed the button, before or after. -/
def watched (s : ScannedRun) (flow : String) (stage : FlowStage) : ScannedRun :=
  let s := s.update fun st => { st with stage := some stage }
  if stage = .codeScanned then
    let s := s.update fun st => { st with
      awaitingConfirmation := true
      headline := "The other device says it scanned this code."
      detail := some "Was that really your other device? Confirm only if it was." }
    if s.confirmRequested then
      ({ s with confirmRequested := false } : ScannedRun).waitFor (.confirmScan flow)
        (.confirming flow)
    else s.watchOn flow stage
  else s.watchOn flow stage

def confirmed (s : ScannedRun) (flow : String) : ScannedRun :=
  (s.update fun st => { st with
    awaitingConfirmation := false
    headline := "Confirmed. Waiting for the other device to finish."
    detail := none }).watchOn flow .codeScanned

/-! What comes back. -/

/-- How the run goes on with what came back; `none` where that does not come back there. -/
def resume (setting : ScannedSetting) (s : ScannedRun) (now : ℕ) :
    Place → Answer → Option ScannedRun
  | .creating, .done => some (s.created setting)
  | .publishing, .pumped _ => some s.published
  | .asking, .flow flow => some (s.asked flow now)
  | .askedPump, .pumped _ => some s.askedPumped
  | .waitingSync, .synced since => some ({ s with since := since } : ScannedRun).waitForFlow
  | .firstStage flow, .stage stage => some (s.firstSeen flow stage)
  | .accepting flow, .done => some (s.waitFor .pump (.acceptedPump flow))
  | .acceptedPump flow, .pumped _ => some (s.seekCode flow)
  | .seekingStage flow, .stage stage => some (s.sought setting flow stage now)
  | .cancelling _, .done => some (s.waitFor .pump (.delivering 0))
  | .cancelling flow, .threw e => some (s.notCancelled flow e)
  | .restaging flow, .stage stage => some (s.restaged flow stage)
  | .delivering _, .pumped 0 => some (s.giveUp setting true)
  | .delivering attempt, .pumped (_ + 1) => some (s.attempted setting attempt)
  | .delivering attempt, .threw _ => some (s.attempted setting attempt)
  | .resting attempt, .done => some (s.waitFor .pump (.delivering (attempt + 1)))
  | .reading flow, .code code => some (s.coded flow code)
  | .reading flow, .threw e => some (s.uncoded flow e)
  | .seekingSync flow, .synced since =>
    some (({ s with since := since } : ScannedRun).seekCode flow)
  | .watchingStage flow, .stage stage => some (s.watched flow stage)
  | .confirming flow, .done => some (s.waitFor .pump (.confirmedPump flow))
  | .confirmedPump flow, .pumped _ => some (s.confirmed flow)
  | .watchingSync flow, .synced since =>
    some (({ s with since := since } : ScannedRun).waitFor (.sleep stagePollMs) (.pausing flow))
  | .pausing flow, .done => some (s.watch flow)
  | .ended, _ => none
  | _, .threw e => some (s.failWith e)
  | _, _ => none

/-- The listener of the run: the first flow it hears of is the one. -/
def hear (s : ScannedRun) : CryptoSignal → ScannedRun
  | .verificationRequested _ _ flow =>
    if s.subscribed then
      let s := s.note (.heard flow)
      if s.announced = none then { s with announced := some flow } else s
    else s
  | _ => s

def press (s : ScannedRun) : Press → ScannedRun
  | .confirm => { s.note (.press .confirm) with confirmRequested := true }
  | .askOtherDevices => { s.note (.press .askOtherDevices) with askRequested := true }
  | .stop => { s.note (.press .stop) with stopped := true, subscribed := false }

end ScannedRun

/-- What happens to a run. -/
inductive RunEvent
  | press (p : Press)
  | signal (signal : CryptoSignal)
  /-- What the run waits for comes back, at a time. -/
  | answer (a : Answer) (now : ℕ)

namespace ScannedSetting

variable (setting : ScannedSetting)

/-- What the machine is created with. -/
def config : MachineConfig where
  userId := setting.plan.userId
  deviceId := setting.plan.deviceId
  storePath := setting.storeDir ++ "/scanned-code"
  storePassphrase := some "scanned-code-walkthrough"

/-- `startScannedCodeRun`. -/
def startScannedCodeRun : ScannedRun where
  place := .creating
  state :=
    { headline := "Starting…"
      detail := none
      code := none
      verificationId := none
      stage := none
      awaitingConfirmation := false
      finished := false
      failed := false }
  stopped := false
  confirmRequested := false
  askRequested := false
  subscribed := false
  announced := none
  openedHere := false
  askedAt := 0
  since := ""
  ledger := [.call (.createCryptoMachine setting.config)]

def step (s : ScannedRun) : RunEvent → Option ScannedRun
  | .press p => some (s.press p)
  | .signal signal => some (s.hear signal)
  | .answer a now => (s.note (.answer a)).resume setting now s.place a

/-- Runs under every order of presses, signals and answers. -/
def scannedRun : TransitionSystem ScannedRun RunEvent where
  init := fun s => s = setting.startScannedCodeRun
  step := fun s e t => setting.step s e = some t

end ScannedSetting

end App
end MatrixCrypto
