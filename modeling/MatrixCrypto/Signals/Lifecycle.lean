import MatrixCrypto.Lib.Transition
import MatrixCrypto.Signals.Channel

/-!
# The lifecycle of a subscription

A subscription is one successful call of `onCryptoSignal`, and lasts until the first
call of the function it returned.  The listeners are callbacks: two subscriptions of
one callback are one listener, and any of their functions takes it out.

## Main definitions

* `Subscriptions`, `Outstanding` — the channel, with the subscriptions made of it.
* `SignalOp`, `subscribing` — calls and signals, in any order.
* `Lockstep` — every outstanding subscription is told, nobody else is, and the
  observer is installed for them alone.
* `Alone` — no other outstanding subscription has the callback.

## Main results

* `tracked_run` — while functions are called alone, the listeners are the callbacks of
  the outstanding subscriptions.
* `lockstep_iff` — **the channel stays in lockstep exactly while no unsubscribe
  function is called that takes out another's callback.**
* `lockstep_lost` — a run in which one is.
-/

namespace MatrixCrypto

open Lib

universe u

variable {α : Type u} [DecidableEq α]

/-- The channel, with the subscriptions made of it. -/
structure Subscriptions (α : Type u) where
  channel : SignalChannel α
  /-- The callbacks of the subscriptions, in the order they were made. -/
  made : List α
  /-- The subscriptions whose function was called. -/
  ended : List ℕ
  /-- How the last call of `clearCryptoObserver` ended. -/
  lastClear : Option Outcome

namespace Subscriptions

/-- As the module is loaded. -/
def initial : Subscriptions α := ⟨.initial, [], [], none⟩

/-- The subscription of the callback was made, and its function was not called yet. -/
def Outstanding (s : Subscriptions α) (i : ℕ) (cb : α) : Prop :=
  s.made[i]? = some cb ∧ i ∉ s.ended

/-- An unsubscribe function calls `clearCryptoObserver`. -/
def clears (s : Subscriptions α) (cb : α) : Bool :=
  (s.channel.listeners.delete cb).elems.isEmpty && s.channel.nativeInstalled

/-- A subscription was made. -/
def subscribed (s : Subscriptions α) (c : SignalChannel α) (cb : α) : Subscriptions α :=
  { s with channel := c, made := s.made ++ [cb] }

/-- The function of a subscription was called. -/
def unsubscribed (s : Subscriptions α) (i : ℕ) (cb : α) (clear : Outcome) : Subscriptions α where
  channel := (s.channel.unsubscribe cb clear).1
  made := s.made
  ended := s.ended ++ [i]
  lastClear := if s.clears cb then some clear else s.lastClear

end Subscriptions

/-- What happens to the channel, with how the native call ends where there is one. -/
inductive SignalOp (α : Type u)
  | onCryptoSignal (cb : α) (set : Outcome)
  /-- The function that the subscription was given is called. -/
  | unsubscribe (i : ℕ) (clear : Outcome)
  | signal (native : NativeCryptoSignal)

/-- One call or signal. -/
inductive SignalStep (s : Subscriptions α) : SignalOp α → Subscriptions α → Prop
  | subscribes {cb : α} {set : Outcome} {c : SignalChannel α}
      (h : s.channel.onCryptoSignal cb set = (c, .returns)) :
      SignalStep s (.onCryptoSignal cb set) (s.subscribed c cb)
  | subscribeThrows {cb : α} {set : Outcome} {c : SignalChannel α}
      (h : s.channel.onCryptoSignal cb set = (c, .throws)) :
      SignalStep s (.onCryptoSignal cb set) { s with channel := c }
  | unsubscribes {i : ℕ} {cb : α} {clear : Outcome} (h : s.made[i]? = some cb) :
      SignalStep s (.unsubscribe i clear) (s.unsubscribed i cb clear)
  | signals {native : NativeCryptoSignal} : SignalStep s (.signal native) s

/-- Calls and signals in any order, from where the module is loaded. -/
def subscribing (α : Type u) [DecidableEq α] : TransitionSystem (Subscriptions α) (SignalOp α) where
  init := fun s => s = .initial
  step := fun s op t => SignalStep s op t

/-- **The channel is in lockstep with its subscriptions**: a signal reaches the
callback of every outstanding one and no other; the observer is installed while there
is one, and while there is none only where clearing it threw last; and subscribing
that throws changes nothing. -/
structure Lockstep (s : Subscriptions α) : Prop where
  receives : ∀ listener native i cb, s.Outstanding i cb →
    (cb, cryptoSignalOf native) ∈ s.channel.onSignal listener native
  only : ∀ listener native cb signal, (cb, signal) ∈ s.channel.onSignal listener native →
    ∃ i, s.Outstanding i cb
  installed : ∀ i cb, s.Outstanding i cb → s.channel.observer = true
  uninstalled : (∀ i cb, ¬ s.Outstanding i cb) → s.channel.observer = true →
    s.lastClear = some .throws
  throws : ∀ cb set c, s.channel.onCryptoSignal cb set = (c, .throws) → c = s.channel

/-- No other outstanding subscription has the callback of this one. -/
def Alone (s : Subscriptions α) (i : ℕ) : Prop :=
  ∀ j cb, s.made[i]? = some cb → s.Outstanding j cb → j = i

/-! ### The listeners are the outstanding subscriptions -/

/-- The listeners are the callbacks of the outstanding subscriptions, and the flag says
whether the observer is installed. -/
structure Tracked (s : Subscriptions α) : Prop where
  listeners : ∀ cb, cb ∈ s.channel.listeners ↔ ∃ i, s.Outstanding i cb
  flag : s.channel.nativeInstalled = s.channel.observer
  installed : ∀ cb ∈ s.channel.listeners, s.channel.observer = true
  uninstalled : s.channel.listeners.elems = [] → s.channel.observer = true →
    s.lastClear = some .throws
  ended : ∀ i ∈ s.ended, i < s.made.length

variable {s t : Subscriptions α} {op : SignalOp α}

omit [DecidableEq α] in
theorem tracked_initial : Tracked (Subscriptions.initial : Subscriptions α) where
  listeners := by
    intro cb
    constructor
    · intro h
      exact absurd h InsertionSet.not_mem_empty
    · rintro ⟨i, h, -⟩
      cases h
  flag := rfl
  installed := fun cb h => absurd h InsertionSet.not_mem_empty
  uninstalled := fun _ h => by cases h
  ended := fun i h => by cases h

theorem Tracked.lockstep (h : Tracked s) : Lockstep s where
  receives := by
    intro listener native i cb hout
    exact SignalChannel.mem_onSignal.mpr ⟨(h.listeners cb).mpr ⟨i, hout⟩, rfl⟩
  only := by
    intro listener native cb signal hmem
    exact (h.listeners cb).mp (SignalChannel.mem_onSignal.mp hmem).1
  installed := fun i cb hout => h.installed cb ((h.listeners cb).mpr ⟨i, hout⟩)
  uninstalled := by
    intro hnone hobserver
    refine h.uninstalled (InsertionSet.elems_eq_nil.mpr fun cb hcb => ?_) hobserver
    obtain ⟨i, hout⟩ := (h.listeners cb).mp hcb
    exact hnone i cb hout
  throws := fun _ _ _ hthrows => SignalChannel.onCryptoSignal_throws hthrows

/-- A subscription was made: it is outstanding, and every other is as it was. -/
theorem outstanding_subscribed (hended : ∀ i ∈ s.ended, i < s.made.length) {c : SignalChannel α}
    {cb cb' : α} {i : ℕ} : (s.subscribed c cb).Outstanding i cb' ↔
      s.Outstanding i cb' ∨ i = s.made.length ∧ cb' = cb := by
  unfold Subscriptions.Outstanding
  show (s.made ++ [cb])[i]? = some cb' ∧ i ∉ s.ended ↔ _
  rcases Nat.lt_trichotomy i s.made.length with hlt | rfl | hgt
  · rw [List.getElem?_append_left hlt]
    constructor
    · exact Or.inl
    · rintro (h | ⟨rfl, -⟩)
      · exact h
      · omega
  · rw [List.getElem?_append_right (Nat.le_refl _), List.getElem?_eq_none (Nat.le_refl _)]
    have hnot : s.made.length ∉ s.ended := fun h => Nat.lt_irrefl _ (hended _ h)
    simp [hnot, eq_comm]
  · rw [List.getElem?_eq_none (by simp; omega), List.getElem?_eq_none (by omega)]
    constructor
    · rintro ⟨h, -⟩
      cases h
    · rintro (⟨h, -⟩ | ⟨rfl, -⟩)
      · cases h
      · omega

/-- The function of a subscription was called: that one is over, and every other is as
it was. -/
theorem outstanding_unsubscribed {i j : ℕ} {cb cb' : α} {clear : Outcome} :
    (s.unsubscribed i cb clear).Outstanding j cb' ↔ s.Outstanding j cb' ∧ j ≠ i := by
  unfold Subscriptions.Outstanding
  show s.made[j]? = some cb' ∧ j ∉ s.ended ++ [i] ↔ _
  rw [List.mem_append, List.mem_singleton, not_or, and_assoc]

/-- Subscribing keeps the listeners those of the outstanding subscriptions. -/
theorem Tracked.subscribed (h : Tracked s) {cb : α} {set : Outcome} {c : SignalChannel α}
    (hreturns : s.channel.onCryptoSignal cb set = (c, .returns)) : Tracked (s.subscribed c cb) := by
  obtain rfl := SignalChannel.onCryptoSignal_returns h.flag hreturns
  refine ⟨fun cb' => ?_, rfl, fun _ _ => rfl, fun hempty _ => ?_, fun i hi => ?_⟩
  · show cb' ∈ s.channel.listeners.add cb ↔ _
    rw [InsertionSet.mem_add, h.listeners]
    constructor
    · rintro (⟨i, hout⟩ | rfl)
      · exact ⟨i, (outstanding_subscribed h.ended).mpr (Or.inl hout)⟩
      · exact ⟨s.made.length, (outstanding_subscribed h.ended).mpr (Or.inr ⟨rfl, rfl⟩)⟩
    · rintro ⟨i, hout⟩
      rcases (outstanding_subscribed h.ended).mp hout with hout | ⟨-, rfl⟩
      · exact Or.inl ⟨i, hout⟩
      · exact Or.inr rfl
  · have hcb : cb ∈ s.channel.listeners.add cb := InsertionSet.mem_add.mpr (Or.inr rfl)
    exact absurd hcb (InsertionSet.elems_eq_nil.mp hempty cb)
  · show i < (s.made ++ [cb]).length
    have := h.ended i hi
    rw [List.length_append]
    omega

/-- A function called alone takes out the callback of its own subscription only. -/
theorem Tracked.mem_delete_iff (h : Tracked s) {i : ℕ} {cb cb' : α} {clear : Outcome}
    (hmade : s.made[i]? = some cb) (halone : Alone s i) :
    cb' ∈ s.channel.listeners.delete cb ↔
      ∃ j, (s.unsubscribed i cb clear).Outstanding j cb' := by
  rw [InsertionSet.mem_delete, h.listeners]
  constructor
  · rintro ⟨⟨j, hout⟩, hne⟩
    refine ⟨j, outstanding_unsubscribed.mpr ⟨hout, ?_⟩⟩
    rintro rfl
    exact hne (Option.some.inj (hout.1.symm.trans hmade))
  · rintro ⟨j, hafter⟩
    obtain ⟨hout, hne⟩ := outstanding_unsubscribed.mp hafter
    refine ⟨⟨j, hout⟩, fun heq => ?_⟩
    subst heq
    exact hne (halone j cb' hmade hout)

theorem Tracked.unsubscribed (h : Tracked s) {i : ℕ} {cb : α} {clear : Outcome}
    (hmade : s.made[i]? = some cb) (halone : Alone s i) :
    Tracked (s.unsubscribed i cb clear) := by
  have hlisteners : (s.unsubscribed i cb clear).channel.listeners =
      s.channel.listeners.delete cb := s.channel.unsubscribe_listeners cb clear
  refine ⟨fun cb' => ?_, SignalChannel.unsubscribe_flag h.flag, fun cb' hcb' => ?_,
    fun hempty hobserver => ?_, fun j hj => ?_⟩
  · rw [hlisteners]
    exact h.mem_delete_iff hmade halone
  · rw [hlisteners] at hcb'
    exact (SignalChannel.unsubscribe_observer_of_mem hcb').trans
      (h.installed cb' (InsertionSet.mem_delete.mp hcb').1)
  · -- the last one out, and the observer is still there: the native call threw
    rw [hlisteners] at hempty
    obtain ⟨hinstalled, rfl⟩ :=
      SignalChannel.unsubscribe_observer_of_last h.flag hempty hobserver
    show (if s.clears cb then some Outcome.throws else s.lastClear) = some .throws
    rw [if_pos (by simp [Subscriptions.clears, hempty, hinstalled])]
  · have hj : j ∈ s.ended ++ [i] := hj
    show j < s.made.length
    rcases List.mem_append.mp hj with hj | hj
    · exact h.ended j hj
    · rw [List.mem_singleton] at hj
      subst hj
      exact (List.getElem?_eq_some_iff.mp hmade).1

/-- One call or signal. -/
theorem Tracked.step (h : Tracked s) (hstep : SignalStep s op t)
    (halone : ∀ i clear, op = .unsubscribe i clear → Alone s i) : Tracked t := by
  cases hstep with
  | subscribes hreturns => exact h.subscribed hreturns
  | subscribeThrows hthrows =>
    obtain rfl := SignalChannel.onCryptoSignal_throws hthrows
    exact h
  | unsubscribes hmade => exact h.unsubscribed hmade (halone _ _ rfl)
  | signals => exact h

/-! ### Every run -/

/-- Every unsubscribe function of the run is called alone. -/
def AllAlone (ops : List (SignalOp α)) : Prop :=
  ∀ before i clear after t, ops = before ++ .unsubscribe i clear :: after →
    (subscribing α).Run .initial before t → Alone t i

/-- **While functions are called alone, the listeners are the callbacks of the
outstanding subscriptions.** -/
theorem tracked_run {ops : List (SignalOp α)} (hrun : (subscribing α).Run .initial ops s)
    (halone : AllAlone ops) : Tracked s := by
  induction hrun with
  | nil => exact tracked_initial
  | @snoc t s ops op hrun hstep ih =>
    refine (ih fun before i clear after u hops hbefore => ?_).step hstep fun i clear hop => ?_
    · refine halone before i clear (after ++ [op]) u ?_ hbefore
      rw [hops]
      simp
    · exact halone ops i clear [] t (by rw [hop]) hrun

/-- One call or signal leads to one state. -/
theorem SignalStep.unique {u : Subscriptions α} (h : SignalStep s op t) (h' : SignalStep s op u) :
    t = u := by
  cases h with
  | subscribes hreturns =>
    cases h' with
    | subscribes hreturns' => rw [(Prod.mk.inj (hreturns.symm.trans hreturns')).1]
    | subscribeThrows hthrows => cases hreturns.symm.trans hthrows
  | subscribeThrows hthrows =>
    cases h' with
    | subscribes hreturns => cases hreturns.symm.trans hthrows
    | subscribeThrows hthrows' => rw [(Prod.mk.inj (hthrows.symm.trans hthrows')).1]
  | unsubscribes hmade =>
    cases h' with
    | unsubscribes hmade' =>
      obtain rfl := Option.some.inj (hmade.symm.trans hmade')
      rfl
  | signals =>
    cases h' with
    | signals => rfl

/-- A function that takes out the callback of another outstanding subscription loses
the lockstep. -/
theorem alone_of_lockstep {i : ℕ} {clear : Outcome} (hstep : SignalStep s (.unsubscribe i clear) t)
    (ht : Lockstep t) : Alone s i := by
  intro j cb hmade hout
  by_contra hne
  cases hstep with
  | @unsubscribes _ cb' _ hmade' =>
    obtain rfl := Option.some.inj (hmade.symm.trans hmade')
    have htold := ht.receives (fun _ _ => .returns) (.verificationCompleted "") j cb
      (outstanding_unsubscribed.mpr ⟨hout, hne⟩)
    have hmem := (SignalChannel.mem_onSignal.mp htold).1
    -- its callback is no longer among the listeners
    have hlisteners : (s.unsubscribed i cb clear).channel.listeners =
        s.channel.listeners.delete cb := s.channel.unsubscribe_listeners cb clear
    rw [hlisteners] at hmem
    exact (InsertionSet.mem_delete.mp hmem).2 rfl

/-- **The channel is in lockstep after every call and signal of a run exactly where no
unsubscribe function of the run is called while another subscription of its callback
is outstanding.** -/
theorem lockstep_iff {ops : List (SignalOp α)} (hrun : (subscribing α).Run .initial ops s) :
    (∀ before after t, ops = before ++ after → (subscribing α).Run .initial before t →
      Lockstep t) ↔ AllAlone ops := by
  constructor
  · intro hlockstep before i clear after t hops hbefore
    rw [hops] at hrun
    obtain ⟨t', hbefore', hafter⟩ := hrun.split
    obtain rfl := TransitionSystem.Run.unique (fun _ _ _ _ h h' => SignalStep.unique h h') hbefore
      hbefore'
    obtain ⟨u, hstep, -⟩ := hafter.uncons
    refine alone_of_lockstep hstep (hlockstep (before ++ [.unsubscribe i clear]) after u ?_
      (hbefore.snoc hstep))
    rw [hops]
    simp
  · intro halone before after t hops hbefore
    refine (tracked_run hbefore fun front i clear back u hfront hrun' => ?_).lockstep
    refine halone front i clear (back ++ after) u ?_ hrun'
    rw [hops, hfront]
    simp

/-! ### One callback, subscribed twice -/

/-- A channel with one listener. -/
def listening : SignalChannel String := ⟨InsertionSet.empty.add "banner", true, true⟩

/-- The callback was subscribed. -/
def bannerState : Subscriptions String := ⟨listening, ["banner"], [], none⟩

/-- Its function was called. -/
def bannerEnded : Subscriptions String := ⟨⟨.empty, false, false⟩, ["banner"], [0], some .returns⟩

theorem banner_subscribes :
    SignalStep .initial (.onCryptoSignal "banner" .returns) bannerState := .subscribes rfl

theorem banner_ends : SignalStep bannerState (.unsubscribe 0 .returns) bannerEnded :=
  @SignalStep.unsubscribes _ _ bannerState 0 "banner" .returns rfl

theorem banner_run : (subscribing String).Run .initial
    [.onCryptoSignal "banner" .returns, .unsubscribe 0 .returns] bannerEnded :=
  .cons banner_subscribes (.single banner_ends)

/-- The one function is called once, after the one subscription. -/
theorem banner_allAlone : AllAlone (α := String)
    [.onCryptoSignal "banner" .returns, .unsubscribe 0 .returns] := by
  intro before i clear after t hops hbefore j cb hmade hout
  match before, hops, hbefore with
  | [], hops, _ => cases (List.cons.inj hops).1
  | [op], hops, hbefore =>
    obtain ⟨rfl, hrest⟩ := List.cons.inj hops
    obtain rfl := SignalStep.unique banner_subscribes hbefore.step_of_singleton
    have hlt := (List.getElem?_eq_some_iff.mp hout.1).1
    have hi := (List.getElem?_eq_some_iff.mp hmade).1
    have hlength : bannerState.made.length = 1 := rfl
    omega
  | op :: op' :: rest, hops, _ =>
    have hlength := congrArg List.length hops
    simp at hlength

/-- A channel one subscription was made of is in lockstep, and when it is ended too. -/
theorem lockstep_bannerEnded : Lockstep bannerState ∧ Lockstep bannerEnded := by
  have hlockstep := (lockstep_iff banner_run).mpr banner_allAlone
  exact ⟨hlockstep [_] [_] _ rfl (.single banner_subscribes), hlockstep _ [] _ rfl banner_run⟩

/-- **The first function, called again after the callback was subscribed anew, takes
the second subscription's callback out**, and the observer with it. -/
theorem lockstep_lost : ∃ s, (subscribing String).Run .initial
    [.onCryptoSignal "banner" .returns, .unsubscribe 0 .returns, .onCryptoSignal "banner" .returns,
      .unsubscribe 0 .returns] s ∧ s.Outstanding 1 "banner" ∧ s.channel.observer = false ∧
        ¬ Lockstep s := by
  have hagain : SignalStep bannerEnded (.onCryptoSignal "banner" .returns)
      (bannerEnded.subscribed listening "banner") := .subscribes rfl
  have hlost : SignalStep (bannerEnded.subscribed listening "banner") (.unsubscribe 0 .returns)
      ((bannerEnded.subscribed listening "banner").unsubscribed 0 "banner" .returns) :=
    .unsubscribes rfl
  have hout : ((bannerEnded.subscribed listening "banner").unsubscribed 0 "banner"
      .returns).Outstanding 1 "banner" := ⟨rfl, by decide⟩
  refine ⟨_, .cons banner_subscribes (.cons banner_ends (.cons hagain (.single hlost))), hout, rfl,
    fun h => ?_⟩
  have hinstalled := h.installed 1 "banner" hout
  cases hinstalled

end MatrixCrypto
