import MatrixCrypto.Lib.InsertionSet

/-!
# The crypto signal channel

The listeners of the channel, and the one native observer behind them.  Subscribing
installs the observer where it is not installed, and the unsubscribe function that
leaves no listener takes it out again; either native call may throw.

## Main definitions

* `NativeCryptoSignal`, `CryptoSignal`, `cryptoSignalOf` — a signal on each side.
* `SignalChannel` — the listeners, the flag and the native observer.
* `installNativeObserver`, `uninstallNativeObserver`, `onCryptoSignal`,
  `unsubscribe`, `emitCryptoSignal` — the calls.

## Main results

* `emitCryptoSignal_eq` — a signal reaches every listener, whichever of them throw.
* `onCryptoSignal_throws` — subscribing that throws changes nothing.
-/

namespace MatrixCrypto

open Lib

/-! ### Signals -/

/-- A device's trust, as the native side says it. -/
inductive NativeTrustState
  | unverified
  | recognized
  | verified
  deriving DecidableEq, Repr

inductive TrustState
  | unverified
  | recognized
  | verified
  deriving DecidableEq, Repr

/-- A signal of the native side. -/
inductive NativeCryptoSignal
  | trustChanged (user : String) (state : NativeTrustState)
  | verificationRequested (user deviceId verificationId : String)
  | verificationCompleted (verificationId : String)
  deriving DecidableEq, Repr

/-- A signal of the public union; the last two have no producer. -/
inductive CryptoSignal
  | trustChanged (user : String) (state : TrustState)
  | verificationRequested (user device verificationId : String)
  | verificationCompleted (verificationId : String)
  | unexpectedDevice (scope user : String)
  | keyMissing (scope : String)
  deriving DecidableEq, Repr

def trustStateOf : NativeTrustState → TrustState
  | .unverified => .unverified
  | .recognized => .recognized
  | .verified => .verified

def cryptoSignalOf : NativeCryptoSignal → CryptoSignal
  | .trustChanged user state => .trustChanged user (trustStateOf state)
  | .verificationRequested user deviceId verificationId =>
    .verificationRequested user deviceId verificationId
  | .verificationCompleted verificationId => .verificationCompleted verificationId

/-- No two native signals are told as one. -/
theorem cryptoSignalOf_injective : Function.Injective cryptoSignalOf := by
  intro s t h
  cases s with
  | trustChanged user state =>
    cases t with
    | trustChanged user' state' =>
      obtain ⟨rfl, hstate⟩ := CryptoSignal.trustChanged.inj h
      cases state <;> cases state' <;> first | rfl | cases hstate
    | verificationRequested _ _ _ => cases h
    | verificationCompleted _ => cases h
  | verificationRequested user deviceId verificationId =>
    cases t with
    | verificationRequested _ _ _ =>
      obtain ⟨rfl, rfl, rfl⟩ := CryptoSignal.verificationRequested.inj h
      rfl
    | trustChanged _ _ => cases h
    | verificationCompleted _ => cases h
  | verificationCompleted verificationId =>
    cases t with
    | verificationCompleted _ =>
      obtain rfl := CryptoSignal.verificationCompleted.inj h
      rfl
    | trustChanged _ _ => cases h
    | verificationRequested _ _ _ => cases h

/-! ### The channel -/

/-- How a call ended. -/
inductive Outcome
  | returns
  | throws
  deriving DecidableEq, Repr

universe u

/-- The module's state, and whether the native side holds its observer.  A listener
is a callback, whatever subscriptions it was given in. -/
structure SignalChannel (α : Type u) where
  listeners : InsertionSet α
  nativeInstalled : Bool
  observer : Bool

namespace SignalChannel

variable {α : Type u} [DecidableEq α] (c : SignalChannel α)

/-- As the module is loaded. -/
def initial : SignalChannel α := ⟨.empty, false, false⟩

/-- The native call: one that throws has registered nothing. -/
def setCryptoObserver : Outcome → SignalChannel α × Outcome
  | .returns => ({ c with observer := true }, .returns)
  | .throws => (c, .throws)

/-- The native call: one that throws has forgotten nothing. -/
def clearCryptoObserver : Outcome → SignalChannel α × Outcome
  | .returns => ({ c with observer := false }, .returns)
  | .throws => (c, .throws)

def installNativeObserver (set : Outcome) : SignalChannel α × Outcome :=
  if c.nativeInstalled then (c, .returns)
  else
    match c.setCryptoObserver set with
    | (c', .throws) => (c', .throws)
    | (c', .returns) => ({ c' with nativeInstalled := true }, .returns)

def uninstallNativeObserver (clear : Outcome) : SignalChannel α × Outcome :=
  if c.nativeInstalled then
    match c.clearCryptoObserver clear with
    | (c', .throws) => (c', .throws)
    | (c', .returns) => ({ c' with nativeInstalled := false }, .returns)
  else (c, .returns)

/-- `onCryptoSignal`: installs first, then registers. -/
def onCryptoSignal (cb : α) (set : Outcome) : SignalChannel α × Outcome :=
  match c.installNativeObserver set with
  | (c', .throws) => (c', .throws)
  | (c', .returns) => ({ c' with listeners := c'.listeners.add cb }, .returns)

/-- The function `onCryptoSignal` returned for the callback. -/
def unsubscribe (cb : α) (clear : Outcome) : SignalChannel α × Outcome :=
  let c' := { c with listeners := c.listeners.delete cb }
  if c'.listeners.elems.length = 0 then c'.uninstallNativeObserver clear else (c', .returns)

/-- The walk over a snapshot of the listeners: what was called, each with the signal. -/
def dispatch (listener : α → CryptoSignal → Outcome) (signal : CryptoSignal) :
    List α → List (α × CryptoSignal)
  | [] => []
  | cb :: rest =>
    match listener cb signal with
    | .returns => (cb, signal) :: dispatch listener signal rest
    -- caught, so that it starves no other
    | .throws => (cb, signal) :: dispatch listener signal rest

/-- What a listener does while it is called, it does after the snapshot was taken. -/
def emitCryptoSignal (listener : α → CryptoSignal → Outcome) (signal : CryptoSignal) :
    List (α × CryptoSignal) := dispatch listener signal c.listeners.elems

/-- `onSignal` of the observer the module installs. -/
def onSignal (listener : α → CryptoSignal → Outcome) (signal : NativeCryptoSignal) :
    List (α × CryptoSignal) := c.emitCryptoSignal listener (cryptoSignalOf signal)

variable {c} {cb : α}

omit [DecidableEq α] in
theorem dispatch_eq (listener : α → CryptoSignal → Outcome) (signal : CryptoSignal)
    (snapshot : List α) :
    dispatch listener signal snapshot = snapshot.map fun cb => (cb, signal) := by
  induction snapshot with
  | nil => rfl
  | cons cb rest ih =>
    rw [dispatch, List.map_cons, ← ih]
    cases listener cb signal <;> rfl

omit [DecidableEq α] in
/-- **A signal reaches every listener and nobody else**, whichever of them throw. -/
theorem emitCryptoSignal_eq (listener : α → CryptoSignal → Outcome) (signal : CryptoSignal) :
    c.emitCryptoSignal listener signal = c.listeners.elems.map fun cb => (cb, signal) :=
  dispatch_eq listener signal _

omit [DecidableEq α] in
theorem mem_onSignal {listener : α → CryptoSignal → Outcome} {native : NativeCryptoSignal}
    {signal : CryptoSignal} : (cb, signal) ∈ c.onSignal listener native ↔
      cb ∈ c.listeners ∧ signal = cryptoSignalOf native := by
  rw [onSignal, emitCryptoSignal_eq, List.mem_map]
  constructor
  · rintro ⟨cb', hmem, heq⟩
    obtain ⟨rfl, rfl⟩ := Prod.mk.inj heq
    exact ⟨hmem, rfl⟩
  · rintro ⟨hmem, rfl⟩
    exact ⟨cb, hmem, rfl⟩

omit [DecidableEq α] in
theorem installNativeObserver_installed (h : c.nativeInstalled = true) (set : Outcome) :
    c.installNativeObserver set = (c, .returns) := if_pos h

omit [DecidableEq α] in
theorem installNativeObserver_returns (h : c.nativeInstalled = false) :
    c.installNativeObserver .returns =
      ({ c with nativeInstalled := true, observer := true }, .returns) := by
  unfold installNativeObserver
  rw [h]
  rfl

omit [DecidableEq α] in
theorem installNativeObserver_throws (h : c.nativeInstalled = false) :
    c.installNativeObserver .throws = (c, .throws) := by
  unfold installNativeObserver
  rw [h]
  rfl

/-- **Subscribing that throws changes nothing.** -/
theorem onCryptoSignal_throws {c' : SignalChannel α} {set : Outcome}
    (h : c.onCryptoSignal cb set = (c', .throws)) : c' = c := by
  unfold onCryptoSignal at h
  cases hinstalled : c.nativeInstalled with
  | true =>
    rw [installNativeObserver_installed hinstalled] at h
    cases h
  | false =>
    cases set with
    | returns =>
      rw [installNativeObserver_returns hinstalled] at h
      cases h
    | throws =>
      rw [installNativeObserver_throws hinstalled] at h
      exact (Prod.mk.inj h).1.symm

/-- Subscribing that returns has registered the callback, with the observer
installed. -/
theorem onCryptoSignal_returns {c' : SignalChannel α} {set : Outcome}
    (hflag : c.nativeInstalled = c.observer)
    (h : c.onCryptoSignal cb set = (c', .returns)) :
    c' = ⟨c.listeners.add cb, true, true⟩ := by
  unfold onCryptoSignal at h
  cases hinstalled : c.nativeInstalled with
  | true =>
    rw [installNativeObserver_installed hinstalled] at h
    rw [← (Prod.mk.inj h).1, ← hflag, hinstalled]
  | false =>
    cases set with
    | returns =>
      rw [installNativeObserver_returns hinstalled] at h
      exact (Prod.mk.inj h).1.symm
    | throws =>
      rw [installNativeObserver_throws hinstalled] at h
      cases h

/-- Where a listener is left, or no observer was installed, an unsubscribe function
only takes its callback out. -/
theorem unsubscribe_of_left {clear : Outcome}
    (h : (c.listeners.delete cb).elems ≠ [] ∨ c.nativeInstalled = false) :
    c.unsubscribe cb clear = ({ c with listeners := c.listeners.delete cb }, .returns) := by
  unfold unsubscribe
  by_cases hempty : (c.listeners.delete cb).elems.length = 0
  · rcases h with h | h
    · exact absurd (List.eq_nil_of_length_eq_zero hempty) h
    · rw [if_pos hempty]
      unfold uninstallNativeObserver
      rw [if_neg (by simp [h])]
  · rw [if_neg hempty]

/-- The last one out takes the observer out, unless the native call throws. -/
theorem unsubscribe_of_last {clear : Outcome} (h : (c.listeners.delete cb).elems = [])
    (hinstalled : c.nativeInstalled = true) :
    c.unsubscribe cb clear = match clear with
      | .returns => (⟨c.listeners.delete cb, false, false⟩, .returns)
      | .throws => ({ c with listeners := c.listeners.delete cb }, .throws) := by
  unfold unsubscribe
  rw [if_pos (by simp [h])]
  unfold uninstallNativeObserver
  rw [if_pos hinstalled]
  cases clear <;> rfl

/-- A listener is left or no observer was installed, or this is the last one out. -/
theorem left_or_last (c : SignalChannel α) (cb : α) :
    ((c.listeners.delete cb).elems ≠ [] ∨ c.nativeInstalled = false) ∨
      ((c.listeners.delete cb).elems = [] ∧ c.nativeInstalled = true) := by
  by_cases hempty : (c.listeners.delete cb).elems = []
  · cases hinstalled : c.nativeInstalled with
    | false => exact Or.inl (Or.inr rfl)
    | true => exact Or.inr ⟨hempty, rfl⟩
  · exact Or.inl (Or.inl hempty)

@[simp] theorem unsubscribe_listeners (c : SignalChannel α) (cb : α) (clear : Outcome) :
    (c.unsubscribe cb clear).1.listeners = c.listeners.delete cb := by
  rcases c.left_or_last cb with hleft | ⟨hempty, hinstalled⟩
  · rw [unsubscribe_of_left hleft]
  · rw [unsubscribe_of_last hempty hinstalled]
    cases clear <;> rfl

theorem unsubscribe_flag {clear : Outcome} (h : c.nativeInstalled = c.observer) :
    (c.unsubscribe cb clear).1.nativeInstalled = (c.unsubscribe cb clear).1.observer := by
  rcases c.left_or_last cb with hleft | ⟨hempty, hinstalled⟩
  · rw [unsubscribe_of_left hleft]
    exact h
  · rw [unsubscribe_of_last hempty hinstalled]
    cases clear with
    | returns => rfl
    | throws => exact h

/-- While a listener is left the observer stays as it is. -/
theorem unsubscribe_observer_of_mem {b : α} {clear : Outcome} (h : b ∈ c.listeners.delete cb) :
    (c.unsubscribe cb clear).1.observer = c.observer := by
  have hleft : (c.listeners.delete cb).elems ≠ [] :=
    fun hempty => InsertionSet.elems_eq_nil.mp hempty b h
  rw [unsubscribe_of_left (Or.inl hleft)]

/-- An observer that outlives the last listener outlives a native call that threw. -/
theorem unsubscribe_observer_of_last {clear : Outcome} (hflag : c.nativeInstalled = c.observer)
    (hempty : (c.listeners.delete cb).elems = [])
    (h : (c.unsubscribe cb clear).1.observer = true) :
    c.nativeInstalled = true ∧ clear = .throws := by
  rcases c.left_or_last cb with hleft | ⟨-, hinstalled⟩
  · rw [unsubscribe_of_left hleft] at h
    have hnot : c.nativeInstalled = false := hleft.resolve_left fun hne => hne hempty
    rw [hflag] at hnot
    exact absurd (h.symm.trans hnot) (by decide)
  · rw [unsubscribe_of_last hempty hinstalled] at h
    cases clear with
    | returns => cases h
    | throws => exact ⟨hinstalled, rfl⟩

end SignalChannel

end MatrixCrypto
