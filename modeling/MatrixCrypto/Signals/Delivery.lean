import MatrixCrypto.Lib.Transition
import MatrixCrypto.Signals.Channel
import Mathlib.Data.List.Perm.Basic
import Mathlib.Data.List.Range

/-!
# From a signal to the callbacks

The process holds one observer, and hands a signal to it on a thread of its own: when the
signal is taken, nobody has been told yet.  The callbacks are those of the bundle that is
loaded; a bundle that is loaded anew finds the observer of the one before it in the slot.

## Main definitions

* `DeliveryTask`, `Told` — a signal on its way, and one that arrived.
* `DeliveryState`, `emitCrypto`, `DeliveryState.deliver` — the slot, and what goes through it.
* `DeliveryOp`, `delivering` — subscribing, reloading, emitting and arriving, in any order.

## Main results

* `accounted_of_reachable` — **every signal taken is on its way or arrived, and once.**
* `calls_of_signal` — **whoever listens when a signal arrives is called, and nobody else.**
-/

namespace MatrixCrypto

open Lib

universe u

/-- A signal that was taken, on its way to the observer that took it. -/
structure DeliveryTask where
  /-- Which of the signals taken it is. -/
  number : ℕ
  /-- The bundle whose observer it goes to. -/
  bundle : ℕ
  signal : NativeCryptoSignal
  deriving DecidableEq

/-- A signal that arrived, with the calls it came to. -/
structure Told (α : Type u) where
  number : ℕ
  calls : List (α × CryptoSignal)

/-- The process, with the bundle it has loaded. -/
structure DeliveryState (α : Type u) where
  bundle : ℕ
  /-- The module of the bundle. -/
  channel : SignalChannel α
  /-- `CRYPTO_OBSERVER`: whose observer is registered. -/
  slot : Option ℕ
  /-- How many signals were taken. -/
  taken : ℕ
  /-- The work of the blocking pool. -/
  inFlight : List DeliveryTask
  told : List (Told α)

variable {α : Type u} [DecidableEq α]

namespace DeliveryState

/-- The first bundle, as it is loaded. -/
def initial : DeliveryState α := ⟨0, .initial, none, 0, [], []⟩

variable (s : DeliveryState α)

/-- A call changed the module.  If it stored the observer or forgot it, it did so in the slot. -/
def withChannel (c : SignalChannel α) : DeliveryState α where
  bundle := s.bundle
  channel := c
  slot := if c.observer then some s.bundle else if s.channel.observer then none else s.slot
  taken := s.taken
  inFlight := s.inFlight
  told := s.told

/-- The bundle is loaded anew: the slot stays as it was. -/
def reload : DeliveryState α := { s with bundle := s.bundle + 1, channel := .initial }

/-- `emit_crypto`: whether an observer was there to take the signal. -/
def emitCrypto (signal : NativeCryptoSignal) : Bool × DeliveryState α :=
  match s.slot with
  | none => (false, s)
  | some bundle => (true,
      { s with
        taken := s.taken + 1
        inFlight := s.inFlight ++ [⟨s.taken, bundle, signal⟩] })

/-- The calls a signal comes to: those of the bundle that took it, if it is still loaded. -/
def callsOf (listener : α → CryptoSignal → Outcome) (task : DeliveryTask) :
    List (α × CryptoSignal) :=
  if task.bundle = s.bundle then s.channel.onSignal listener task.signal else []

/-- A signal arrives. -/
def deliver (i : ℕ) (task : DeliveryTask) (listener : α → CryptoSignal → Outcome) :
    DeliveryState α :=
  { s with
    inFlight := s.inFlight.eraseIdx i
    told := s.told ++ [⟨task.number, s.callsOf listener task⟩] }

/-- The calls one signal came to. -/
def callsFor (number : ℕ) : List (α × CryptoSignal) :=
  (s.told.filter fun t => t.number = number).flatMap Told.calls

end DeliveryState

/-- What happens, with how the native calls and the callbacks end. -/
inductive DeliveryOp (α : Type u)
  | onCryptoSignal (cb : α) (set : Outcome)
  /-- A function that subscribing the callback returned is called. -/
  | unsubscribe (cb : α) (clear : Outcome)
  | reload
  | emit (signal : NativeCryptoSignal)
  /-- The pool comes to a signal, which may be any. -/
  | arrive (i : ℕ) (listener : α → CryptoSignal → Outcome)

/-- One of them. -/
inductive DeliveryStep (s : DeliveryState α) : DeliveryOp α → DeliveryState α → Prop
  | subscribes (cb : α) (set : Outcome) :
      DeliveryStep s (.onCryptoSignal cb set) (s.withChannel (s.channel.onCryptoSignal cb set).1)
  | unsubscribes (cb : α) (clear : Outcome) :
      DeliveryStep s (.unsubscribe cb clear) (s.withChannel (s.channel.unsubscribe cb clear).1)
  | reloads : DeliveryStep s .reload s.reload
  | emits (signal : NativeCryptoSignal) : DeliveryStep s (.emit signal) (s.emitCrypto signal).2
  | arrives {i : ℕ} {task : DeliveryTask} (listener : α → CryptoSignal → Outcome)
      (h : s.inFlight[i]? = some task) :
      DeliveryStep s (.arrive i listener) (s.deliver i task listener)

/-- Any of them, in any order. -/
def delivering (α : Type u) [DecidableEq α] :
    TransitionSystem (DeliveryState α) (DeliveryOp α) where
  init := fun s => s = .initial
  step := fun s op t => DeliveryStep s op t

namespace DeliveryState

/-! ### Every signal is accounted for -/

/-- Every signal taken is on its way or arrived, and none is both or twice. -/
def Accounted (s : DeliveryState α) : Prop :=
  (s.inFlight.map DeliveryTask.number ++ s.told.map Told.number).Perm (List.range s.taken)

variable {s t : DeliveryState α} {op : DeliveryOp α}

omit [DecidableEq α] in
/-- What is taken off the way is one of what was on it. -/
theorem inFlight_perm {i : ℕ} {task : DeliveryTask} (h : s.inFlight[i]? = some task) :
    s.inFlight.Perm (task :: s.inFlight.eraseIdx i) := by
  obtain ⟨hi, hget⟩ := List.getElem?_eq_some_iff.mp h
  rw [← hget]
  exact (List.getElem_cons_eraseIdx_perm hi).symm

omit [DecidableEq α] in
theorem Accounted.emitCrypto (h : s.Accounted) (signal : NativeCryptoSignal) :
    (s.emitCrypto signal).2.Accounted := by
  unfold DeliveryState.emitCrypto
  cases s.slot with
  | none => exact h
  | some bundle =>
    unfold Accounted
    rw [List.map_append, List.append_assoc, List.range_succ]
    apply (List.perm_append_comm_assoc _ _ _).trans
    exact (List.perm_append_comm).trans (h.append_right _)

omit [DecidableEq α] in
theorem Accounted.deliver (h : s.Accounted) {i : ℕ} {task : DeliveryTask}
    (hi : s.inFlight[i]? = some task) (listener : α → CryptoSignal → Outcome) :
    (s.deliver i task listener).Accounted := by
  have hmap := (inFlight_perm hi).map DeliveryTask.number
  unfold Accounted DeliveryState.deliver
  rw [List.map_append]
  have hmove : ((s.inFlight.eraseIdx i).map DeliveryTask.number ++
      (s.told.map Told.number ++ [task.number])).Perm
      (s.inFlight.map DeliveryTask.number ++ s.told.map Told.number) := by
    rw [← List.append_assoc]
    apply List.perm_append_comm.trans
    exact (hmap.append_right _).symm
  exact hmove.trans h

theorem Accounted.step (h : s.Accounted) (hst : DeliveryStep s op t) : t.Accounted := by
  cases hst with
  | subscribes cb set => exact h
  | unsubscribes cb clear => exact h
  | reloads => exact h
  | emits signal => exact h.emitCrypto signal
  | arrives listener hi => exact h.deliver hi listener

/-! ### The observer of the bundle -/

/-- The flag of the module says whether the observer of its bundle is in the slot, and it is
there while anyone listens. -/
structure Linked (s : DeliveryState α) : Prop where
  flag : s.channel.nativeInstalled = s.channel.observer
  slot : s.channel.observer = true ↔ s.slot = some s.bundle
  older : ∀ bundle, s.slot = some bundle → bundle ≤ s.bundle
  installed : ∀ cb ∈ s.channel.listeners, s.channel.observer = true

omit [DecidableEq α] in
theorem linked_initial : (initial : DeliveryState α).Linked where
  flag := rfl
  slot := by simp [initial, SignalChannel.initial]
  older := by simp [initial]
  installed := by
    intro cb hcb
    exact absurd hcb InsertionSet.not_mem_empty

omit [DecidableEq α] in
theorem Linked.withChannel (h : s.Linked) {c : SignalChannel α}
    (hflag : c.nativeInstalled = c.observer)
    (hinstalled : ∀ cb ∈ c.listeners, c.observer = true) : (s.withChannel c).Linked where
  flag := hflag
  slot := by
    simp only [DeliveryState.withChannel]
    cases hc : c.observer with
    | true => simp
    | false =>
      cases hs : s.channel.observer with
      | true => simp
      | false =>
        have hslot := h.slot
        simp_all
  older := by
    intro bundle hslot
    simp only [DeliveryState.withChannel] at hslot ⊢
    split at hslot
    · simp only [Option.some.injEq] at hslot
      omega
    · split at hslot
      · cases hslot
      · exact h.older bundle hslot
  installed := hinstalled

/-- Whoever listens after subscribing listens with the observer in place. -/
theorem Linked.onCryptoSignal (h : s.Linked) (cb : α) (set : Outcome) :
    (s.withChannel (s.channel.onCryptoSignal cb set).1).Linked := by
  cases hcall : s.channel.onCryptoSignal cb set with
  | mk c outcome =>
    cases outcome with
    | throws =>
      obtain rfl := SignalChannel.onCryptoSignal_throws hcall
      exact h.withChannel h.flag h.installed
    | returns =>
      obtain rfl := SignalChannel.onCryptoSignal_returns h.flag hcall
      apply h.withChannel
      · rfl
      · intro cb' _
        rfl

theorem Linked.unsubscribe (h : s.Linked) (cb : α) (clear : Outcome) :
    (s.withChannel (s.channel.unsubscribe cb clear).1).Linked := by
  apply h.withChannel
  · exact SignalChannel.unsubscribe_flag h.flag
  · intro cb' hmem
    rw [SignalChannel.unsubscribe_listeners] at hmem
    rw [SignalChannel.unsubscribe_observer_of_mem hmem]
    exact h.installed cb' (InsertionSet.mem_delete.mp hmem).1

omit [DecidableEq α] in
theorem Linked.reload (h : s.Linked) : s.reload.Linked where
  flag := rfl
  slot := by
    have hnot : s.slot ≠ some (s.bundle + 1) := by
      intro hslot
      have := h.older _ hslot
      omega
    simp [DeliveryState.reload, SignalChannel.initial, hnot]
  older := by
    intro bundle hslot
    have := h.older bundle hslot
    simp only [DeliveryState.reload]
    omega
  installed := by
    intro cb hcb
    exact absurd hcb InsertionSet.not_mem_empty

omit [DecidableEq α] in
/-- Emitting touches neither the module nor the slot. -/
theorem emitCrypto_kept (s : DeliveryState α) (signal : NativeCryptoSignal) :
    (s.emitCrypto signal).2.bundle = s.bundle ∧ (s.emitCrypto signal).2.channel = s.channel ∧
      (s.emitCrypto signal).2.slot = s.slot ∧ (s.emitCrypto signal).2.told = s.told := by
  unfold emitCrypto
  cases hslot : s.slot <;> simp [hslot]

theorem Linked.step (h : s.Linked) (hst : DeliveryStep s op t) : t.Linked := by
  cases hst with
  | subscribes cb set => exact h.onCryptoSignal cb set
  | unsubscribes cb clear => exact h.unsubscribe cb clear
  | reloads => exact h.reload
  | emits signal =>
    obtain ⟨hbundle, hchannel, hslot, -⟩ := s.emitCrypto_kept signal
    constructor
    · rw [hchannel]; exact h.flag
    · rw [hchannel, hslot, hbundle]; exact h.slot
    · rw [hslot, hbundle]; exact h.older
    · rw [hchannel]; exact h.installed
  | arrives listener hi => exact ⟨h.flag, h.slot, h.older, h.installed⟩

omit [DecidableEq α] in
/-- While anyone listens, a signal is taken, for the bundle that is loaded. -/
theorem Linked.emitCrypto_eq (h : s.Linked) {cb : α} (hcb : cb ∈ s.channel.listeners)
    (signal : NativeCryptoSignal) :
    s.emitCrypto signal = (true, { s with
      taken := s.taken + 1
      inFlight := s.inFlight ++ [⟨s.taken, s.bundle, signal⟩] }) := by
  have hslot := h.slot.mp (h.installed cb hcb)
  unfold emitCrypto
  rw [hslot]

/-! ### The way of one signal -/

/-- The signal is on its way. -/
def Pending (s : DeliveryState α) (task : DeliveryTask) : Prop :=
  task ∈ s.inFlight ∧ task.number ∉ s.told.map Told.number

omit [DecidableEq α] in
/-- What did not arrive called nobody. -/
theorem callsFor_eq_nil {number : ℕ} (h : number ∉ s.told.map Told.number) :
    s.callsFor number = [] := by
  unfold callsFor
  have hnone : (s.told.filter fun t => t.number = number) = [] := by
    apply List.filter_eq_nil_iff.mpr
    intro t ht
    have hne : t.number ≠ number := fun heq => h (heq ▸ List.mem_map_of_mem ht)
    simpa using hne
  simp [hnone]

omit [DecidableEq α] in
theorem callsFor_append (s : DeliveryState α) (number : ℕ) (x : Told α)
    (inFlight : List DeliveryTask) :
    DeliveryState.callsFor { s with inFlight := inFlight, told := s.told ++ [x] } number =
      s.callsFor number ++ if x.number = number then x.calls else [] := by
  unfold callsFor
  rw [List.filter_append, List.flatMap_append]
  by_cases h : x.number = number <;> simp [h]

omit [DecidableEq α] in
/-- A signal on its way has not arrived. -/
theorem Accounted.not_told (h : s.Accounted) {task : DeliveryTask} (htask : task ∈ s.inFlight) :
    task.number ∉ s.told.map Told.number := by
  have hnodup := h.nodup_iff.mpr List.nodup_range
  intro htold
  exact (List.nodup_append.mp hnodup).2.2 _ (List.mem_map_of_mem htask) _ htold rfl

omit [DecidableEq α] in
/-- No two signals on their way have one number. -/
theorem Accounted.task_eq (h : s.Accounted) {task task' : DeliveryTask}
    (htask : task ∈ s.inFlight) (htask' : task' ∈ s.inFlight)
    (heq : task.number = task'.number) : task = task' := by
  have hnodup := h.nodup_iff.mpr List.nodup_range
  exact List.inj_on_of_nodup_map (List.nodup_append.mp hnodup).1 htask htask' heq

/-- While the bundle stays, its signal stays on its way or calls whoever listens. -/
theorem Pending.step {task : DeliveryTask} (h : s.Pending task) (hbundle : task.bundle = s.bundle)
    (hall : s.Accounted) (hst : DeliveryStep s op t) (hop : op ≠ .reload) :
    t.bundle = s.bundle ∧ (t.Pending task ∨
      ((∃ i listener, op = .arrive i listener ∧ s.inFlight[i]? = some task) ∧
        task.number ∈ t.told.map Told.number ∧
        t.callsFor task.number =
          s.channel.listeners.elems.map fun cb => (cb, cryptoSignalOf task.signal))) := by
  cases hst with
  | subscribes cb set => exact ⟨rfl, Or.inl h⟩
  | unsubscribes cb clear => exact ⟨rfl, Or.inl h⟩
  | reloads => exact absurd rfl hop
  | emits signal =>
    obtain ⟨hb, -, -, htold⟩ := s.emitCrypto_kept signal
    refine ⟨hb, Or.inl ⟨?_, ?_⟩⟩
    · unfold emitCrypto
      cases s.slot with
      | none => exact h.1
      | some bundle => exact List.mem_append_left _ h.1
    · rw [htold]
      exact h.2
  | @arrives i other listener hi =>
    have hperm := inFlight_perm hi
    have hother : other ∈ s.inFlight := hperm.mem_iff.mpr List.mem_cons_self
    refine ⟨rfl, ?_⟩
    by_cases heq : task = other
    · -- its own turn: whoever listens now is called
      subst heq
      refine Or.inr ⟨⟨i, listener, rfl, hi⟩, ?_, ?_⟩
      · simp [deliver]
      · unfold deliver
        rw [callsFor_append, callsFor_eq_nil h.2, if_pos rfl, List.nil_append]
        show s.callsOf listener task = _
        unfold callsOf
        rw [if_pos hbundle, SignalChannel.onSignal, SignalChannel.emitCryptoSignal_eq]
    · refine Or.inl ⟨?_, ?_⟩
      · have hmem := hperm.mem_iff.mp h.1
        exact (List.mem_cons.mp hmem).resolve_left heq
      · have hne : task.number ≠ other.number :=
          fun hnumber => heq (hall.task_eq h.1 hother hnumber)
        simp only [deliver, List.map_append, List.map_cons, List.map_nil, List.mem_append,
          List.mem_singleton, not_or]
        exact ⟨h.2, hne⟩

/-- What arrived does not arrive again. -/
theorem Accounted.step_told (hall : s.Accounted) (hst : DeliveryStep s op t) {number : ℕ}
    (h : number ∈ s.told.map Told.number) :
    number ∈ t.told.map Told.number ∧ t.callsFor number = s.callsFor number := by
  cases hst with
  | subscribes cb set => exact ⟨h, rfl⟩
  | unsubscribes cb clear => exact ⟨h, rfl⟩
  | reloads => exact ⟨h, rfl⟩
  | emits signal =>
    obtain ⟨-, -, -, htold⟩ := s.emitCrypto_kept signal
    unfold callsFor
    rw [htold]
    exact ⟨h, rfl⟩
  | @arrives i other listener hi =>
    have hother : other ∈ s.inFlight := (inFlight_perm hi).mem_iff.mpr List.mem_cons_self
    have hne : other.number ≠ number := by
      intro heq
      exact hall.not_told hother (heq ▸ h)
    constructor
    · simp only [DeliveryState.deliver, List.map_append]
      exact List.mem_append_left _ h
    · unfold DeliveryState.deliver
      rw [callsFor_append, if_neg hne, List.append_nil]

/-! ### Main results -/

omit [DecidableEq α] in
theorem accounted_initial : (initial : DeliveryState α).Accounted := List.Perm.refl []

/-- What every reachable state keeps. -/
theorem kept_of_reachable (h : (delivering α).Reachable s) : s.Accounted ∧ s.Linked := by
  apply h.invariant (I := fun s : DeliveryState α => s.Accounted ∧ s.Linked)
  · rintro _ rfl
    exact ⟨accounted_initial, linked_initial⟩
  · intro s op t hkept hst
    exact ⟨hkept.1.step hst, hkept.2.step hst⟩

/-- The run of one signal, from where it was taken. -/
theorem run_of_pending {task : DeliveryTask} {ops : List (DeliveryOp α)} (h : s.Pending task)
    (hbundle : task.bundle = s.bundle) (hall : s.Accounted)
    (hrun : ((delivering α).restrict fun _ op => op ≠ .reload).Run s ops t) :
    t.Accounted ∧ ((task.bundle = t.bundle ∧ t.Pending task) ∨
      task.number ∈ t.told.map Told.number ∧
        ∃ before after v i listener, ops = before ++ .arrive i listener :: after ∧
          (delivering α).Run s before v ∧ v.inFlight[i]? = some task ∧
          t.callsFor task.number =
            v.channel.listeners.elems.map fun cb => (cb, cryptoSignalOf task.signal)) := by
  induction hrun with
  | nil => exact ⟨hall, Or.inl ⟨hbundle, h⟩⟩
  | @snoc v t ops op hrun hst ih =>
    obtain ⟨hop, hst⟩ := hst
    obtain ⟨hv, hway⟩ := ih
    refine ⟨hv.step hst, ?_⟩
    rcases hway with ⟨hb, hpending⟩ |
      ⟨htold, before, after, w, i, listener, rfl, hbefore, hi, hcalls⟩
    · obtain ⟨hkeep, hpending' | ⟨⟨i, listener, rfl, hi⟩, htold, hcalls⟩⟩ :=
        hpending.step hb hv hst hop
      · exact Or.inl ⟨hb.trans hkeep.symm, hpending'⟩
      · exact Or.inr ⟨htold, ops, [], v, i, listener, rfl, hrun.of_restrict, hi, hcalls⟩
    · obtain ⟨htold', hsame⟩ := hv.step_told hst htold
      refine Or.inr ⟨htold', before, after ++ [op], w, i, listener, ?_, hbefore, hi, ?_⟩
      · simp
      · rw [hsame, hcalls]

/-- **Every signal that was taken is on its way or arrived, and once**, however subscribing,
reloading, emitting and arriving interleave; and while anyone listens one is taken. -/
theorem accounted_of_reachable (h : (delivering α).Reachable s) :
    (s.inFlight.map DeliveryTask.number ++ s.told.map Told.number).Perm (List.range s.taken) ∧
      ∀ cb ∈ s.channel.listeners, ∀ signal, (s.emitCrypto signal).1 = true ∧
        (s.emitCrypto signal).2.taken = s.taken + 1 := by
  obtain ⟨hall, hlinked⟩ := kept_of_reachable h
  refine ⟨hall, ?_⟩
  intro cb hcb signal
  rw [hlinked.emitCrypto_eq hcb]
  exact ⟨rfl, rfl⟩

/-- One callback, subscribed. -/
def subscribed : DeliveryState ℕ :=
  initial.withChannel (SignalChannel.initial.onCryptoSignal 7 .returns).1

theorem subscribed_reachable : (delivering ℕ).Reachable subscribed :=
  ⟨initial, _, rfl, TransitionSystem.Run.single (.subscribes 7 .returns)⟩

theorem accounted_of_reachable_subscribed :
    (subscribed.emitCrypto (.verificationCompleted "v")).1 = true := by
  have htaken := (accounted_of_reachable subscribed_reachable).2
  exact (htaken 7 (by decide) _).1

/-- **Whoever listens when a signal arrives is called once with it, and nobody else**: a signal
taken while anyone listens is on its way and called nobody, or one step of the run brought it
to those who listened then.  Only a reload in between can lose it. -/
theorem calls_of_signal {ops : List (DeliveryOp α)} {cb : α} {signal : NativeCryptoSignal}
    (h : (delivering α).Reachable s) (hcb : cb ∈ s.channel.listeners)
    (hrun : ((delivering α).restrict fun _ op => op ≠ .reload).Run
      (s.emitCrypto signal).2 ops t) :
    (∃ task ∈ t.inFlight, task.number = s.taken ∧ task.signal = signal) ∧
        t.callsFor s.taken = [] ∨
      ∃ before after v i listener, ops = before ++ .arrive i listener :: after ∧
        (delivering α).Run (s.emitCrypto signal).2 before v ∧
        v.inFlight[i]?.map DeliveryTask.number = some s.taken ∧
        t.callsFor s.taken =
          v.channel.listeners.elems.map fun cb => (cb, cryptoSignalOf signal) := by
  obtain ⟨hall, hlinked⟩ := kept_of_reachable h
  have htaken := hlinked.emitCrypto_eq hcb signal
  have hall' := hall.emitCrypto signal
  rw [htaken] at hrun hall' ⊢
  let task : DeliveryTask := ⟨s.taken, s.bundle, signal⟩
  have hmem : task ∈ s.inFlight ++ [task] := by simp
  have hpending : (DeliveryState.mk s.bundle s.channel s.slot (s.taken + 1)
      (s.inFlight ++ [task]) s.told).Pending task := ⟨hmem, hall'.not_told hmem⟩
  obtain ⟨-, ⟨-, hpending⟩ | ⟨-, before, after, v, i, listener, hops, hbefore, hi, hcalls⟩⟩ :=
    run_of_pending hpending rfl hall' hrun
  · exact Or.inl ⟨⟨task, hpending.1, rfl, rfl⟩, callsFor_eq_nil hpending.2⟩
  · refine Or.inr ⟨before, after, v, i, listener, hops, hbefore, ?_, hcalls⟩
    rw [hi]
    rfl

/-- A signal that arrived came to the callbacks of the state it arrived in. -/
theorem calls_of_signal_arrived :
    let signal := NativeCryptoSignal.verificationCompleted "v"
    let arrive := DeliveryOp.arrive 0 fun (_ : ℕ) (_ : CryptoSignal) => Outcome.returns
    let arrived := (subscribed.emitCrypto signal).2.deliver 0 ⟨0, 0, signal⟩ fun _ _ => .returns
    ∃ before after v i listener, [arrive] = before ++ .arrive i listener :: after ∧
      (delivering ℕ).Run (subscribed.emitCrypto signal).2 before v ∧
      v.inFlight[i]?.map DeliveryTask.number = some subscribed.taken ∧
      arrived.callsFor 0 =
        v.channel.listeners.elems.map fun cb => (cb, cryptoSignalOf signal) := by
  intro signal arrive arrived
  have harrives : DeliveryStep (subscribed.emitCrypto signal).2 arrive arrived :=
    .arrives (fun _ _ => .returns) rfl
  have hrun : ((delivering ℕ).restrict fun _ op => op ≠ .reload).Run
      (subscribed.emitCrypto signal).2 [arrive] arrived :=
    TransitionSystem.Run.single ⟨by simp [arrive], harrives⟩
  have hcb : 7 ∈ subscribed.channel.listeners := by decide
  apply (calls_of_signal subscribed_reachable hcb hrun).resolve_left
  rintro ⟨⟨task, hmem, -⟩, -⟩
  exact absurd hmem List.not_mem_nil

end DeliveryState
end MatrixCrypto
