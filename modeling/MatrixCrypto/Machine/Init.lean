import MatrixCrypto.Lib.Threads
import MatrixCrypto.Signing.Arrival

/-!
# One machine per process

`create_machine` and `open_store` are one function, `init`: under a lock it looks
whether a machine is held, and builds and writes one where none is.  Taking the lock,
the look, the build and the write are one atomic step each, and any number of calls run
at once.

## Main definitions

* `MachineConfig`, `InitError` — what a call is given, and what it fails with.
* `Opening`, `build` — what upstream answers, and what comes of it.
* `InitCall`, `InitNext`, `inits` — the steps of the calls.
* `Serialised` — the lock is held by the one call past it.
* `OneMachine` — what holds of every run.

## Main results

* `serialised_step` — **one call at a time is past the lock.**
* `oneMachine_of_initial` — one machine per process, whatever the calls and the builds.
-/

namespace MatrixCrypto

open Lib

/-! ### A configuration and what is built of it -/

/-- What a machine is created with. -/
structure MachineConfig where
  userId : String
  deviceId : String
  storePath : String
  storePassphrase : Option String
  deriving DecidableEq, Repr

/-- The errors of opening a store, as `MachineError` has them. -/
inductive InitError
  | alreadyInitialised
  | malformedIdentifier (detail : String)
  | store (detail : String)
  | mismatchedAccount
  deriving DecidableEq, Repr

/-- The errors of upstream's store. -/
inductive CryptoStoreError
  | mismatchedAccount
  | other
  deriving DecidableEq, Repr

/-- `store_error_detail`: the same for every error. -/
def storeErrorDetail : String := "the crypto store could not be opened"

/-- What upstream answers while a machine is built. -/
structure Opening where
  /-- `SqliteCryptoStore::open`. -/
  opened : Except Unit Unit
  /-- `OlmMachine::with_store`, with whether the private keys it found are complete. -/
  loaded : Except CryptoStoreError Bool

/-- The errors of `OlmMachine::with_store`. -/
def classifyStoreError : CryptoStoreError → InitError
  | .mismatchedAccount => .mismatchedAccount
  | .other => .store storeErrorDetail

/-- What every call reads and writes. -/
structure InitState where
  /-- `INIT_LOCK` is held. -/
  locked : Bool
  /-- `HELD`: what the machine was created with, if there is one. -/
  held : Option MachineConfig
  /-- Every store opened on disk, with the call that had it opened. -/
  stores : List (ℕ × String)
  /-- The latch of `signing`. -/
  privateKeysHeld : Bool
  deriving Repr

/-- `build`, for the call named: its machine, as the configuration it is of. -/
def build (parsesUser : String → Bool) (caller : ℕ) (config : MachineConfig) (up : Opening)
    (s : InitState) : Except InitError MachineConfig × InitState :=
  if !parsesUser config.userId then (.error (.malformedIdentifier "user id"), s)
  else if config.deviceId.isEmpty then (.error (.malformedIdentifier "device id"), s)
  else
    -- from here on there may be a store on disk
    let touched := { s with stores := s.stores ++ [(caller, config.storePath)] }
    match up.opened with
    | .error _ => (.error (.store storeErrorDetail), touched)
    | .ok _ =>
      match up.loaded with
      | .error e => (.error (classifyStoreError e), touched)
      | .ok complete =>
        (.ok config, { touched with privateKeysHeld := seedPrivateKeysHeld complete })

/-- The identifiers of the configuration are well formed. -/
def MachineConfig.WellFormed (config : MachineConfig) (parsesUser : String → Bool) : Prop :=
  parsesUser config.userId = true ∧ config.deviceId.isEmpty = false

/-! ### The calls -/

/-- A call in flight, named, with its configuration. -/
inductive InitCall
  /-- It waits for the lock. -/
  | init (caller : ℕ) (config : MachineConfig)
  /-- It has the lock, and is about to look. -/
  | locked (caller : ℕ) (config : MachineConfig)
  /-- It found no machine, and builds. -/
  | building (caller : ℕ) (config : MachineConfig)
  /-- Its machine is built, and is about to be written. -/
  | writing (caller : ℕ) (config built : MachineConfig)
  deriving DecidableEq

/-- What becomes of a call. -/
inductive InitResult
  | returned (out : Except InitError Unit)
  /-- The assertion that the slot is empty failed. -/
  | panicked

namespace InitCall

/-- Which call it is. -/
def caller : InitCall → ℕ
  | init n _ | locked n _ | building n _ | writing n _ _ => n

/-- The configuration it was made with. -/
def config : InitCall → MachineConfig
  | init _ c | locked _ c | building _ c | writing _ c _ => c

/-- It is past the lock. -/
def isInside : InitCall → Bool
  | init _ _ => false
  | _ => true

/-- It builds. -/
def isBuilding : InitCall → Bool
  | building _ _ => true
  | _ => false

/-- Its machine is built and not written. -/
def isWriting : InitCall → Bool
  | writing _ _ _ => true
  | _ => false

end InitCall

/-- One step of a call.  The lock goes with the return. -/
inductive InitNext (parsesUser : String → Bool) (s : InitState) :
    InitCall → InitState → InitCall ⊕ InitResult → Prop
  | acquires {n : ℕ} {c : MachineConfig} (h : s.locked = false) :
      InitNext parsesUser s (.init n c) { s with locked := true } (.inl (.locked n c))
  | accepts {n : ℕ} {c : MachineConfig} (h : s.held = some c) :
      InitNext parsesUser s (.locked n c) { s with locked := false }
        (.inr (.returned (.ok ())))
  | refuses {n : ℕ} {c existing : MachineConfig} (h : s.held = some existing)
      (hne : existing ≠ c) :
      InitNext parsesUser s (.locked n c) { s with locked := false }
        (.inr (.returned (.error .alreadyInitialised)))
  | begins {n : ℕ} {c : MachineConfig} (h : s.held = none) :
      InitNext parsesUser s (.locked n c) s (.inl (.building n c))
  | builds {n : ℕ} {c built : MachineConfig} {up : Opening}
      (h : (build parsesUser n c up s).1 = .ok built) :
      InitNext parsesUser s (.building n c) (build parsesUser n c up s).2
        (.inl (.writing n c built))
  | fails {n : ℕ} {c : MachineConfig} {up : Opening} {e : InitError}
      (h : (build parsesUser n c up s).1 = .error e) :
      InitNext parsesUser s (.building n c) { (build parsesUser n c up s).2 with locked := false }
        (.inr (.returned (.error e)))
  | writes {n : ℕ} {c built : MachineConfig} (h : s.held = none) :
      InitNext parsesUser s (.writing n c built) { s with held := some built, locked := false }
        (.inr (.returned (.ok ())))
  | asserts {n : ℕ} {c built : MachineConfig} (h : s.held.isSome = true) :
      InitNext parsesUser s (.writing n c built) { s with locked := false } (.inr .panicked)

/-- The calls over one slot.  The latch is set and cleared by others at any moment. -/
def inits (parsesUser : String → Bool) : Calls InitState InitCall InitResult Bool where
  start := fun _ call => ∃ n c, call = .init n c
  next := InitNext parsesUser
  world := fun s held t => t = { s with privateKeysHeld := held }

abbrev InitEvent := Event InitCall InitResult Bool

/-- A process that has just started. -/
def InitState.Initial (s : InitState) : Prop :=
  s.locked = false ∧ s.held = none ∧ s.stores = []

/-- All interleavings of the calls from there. -/
def initialising (parsesUser : String → Bool) :
    TransitionSystem (Pool InitState InitCall) InitEvent :=
  (inits parsesUser).system InitState.Initial

/-! ### What holds of every run -/

/-- A build that succeeds. -/
def Succeeds : InitEvent → Bool
  | .section (.building _ _) (.inl _) => true
  | _ => false

/-- The call named begins a build. -/
def BeginsBuild (n : ℕ) (es : List InitEvent) : Prop :=
  ∃ l c, .section l (.inl (.building n c)) ∈ es

/-- One machine per process: what holds of every run from a pool.  A call is named by
its number. -/
structure OneMachine (parsesUser : String → Bool) (p : Pool InitState InitCall) : Prop where
  /-- At most one build succeeds. -/
  oneBuild : ∀ es q, (initialising parsesUser).Run p es q → es.countP Succeeds ≤ 1
  /-- What is held once stays. -/
  kept : ∀ es s fs t c, (initialising parsesUser).Run p es s →
    (initialising parsesUser).Run s fs t → s.shared.held = some c → t.shared.held = some c
  /-- A call returns `Ok` exactly if what is held then is its own. -/
  answers : ∀ es s l out t, (initialising parsesUser).Run p es s →
    (initialising parsesUser).step s (.section l (.inr (.returned out))) t →
    (out = .ok () ↔ t.shared.held = some l.config)
  /-- A call turned away never began a build, and no store was opened for it. -/
  refused : ∀ es q l, (initialising parsesUser).Run p es q →
    .section l (.inr (.returned (.error .alreadyInitialised))) ∈ es →
    Calls.begun InitCall.caller l.caller es ≤ 1 →
    ¬ BeginsBuild l.caller es ∧ ∀ path, (l.caller, path) ∉ q.shared.stores
  /-- Two builds are never in progress at once. -/
  exclusive : ∀ es q, (initialising parsesUser).Run p es q →
    q.calls.countP InitCall.isBuilding ≤ 1
  /-- A failed build leaves nothing held, and a later call can succeed. -/
  recovers : ∀ es s n c e t, (initialising parsesUser).Run p es s →
    (initialising parsesUser).step s (.section (.building n c) (.inr (.returned (.error e)))) t →
    t.shared.held = none ∧ ∀ m d, d.WellFormed parsesUser → ∃ fs u l,
      (initialising parsesUser).Run t (.start (.init m d) :: fs) u ∧ l.caller = m ∧
        l.config = d ∧ .section l (.inr (.returned (.ok ()))) ∈ fs
  /-- The assertion never fires. -/
  asserted : ∀ es q l, (initialising parsesUser).Run p es q → .section l (.inr .panicked) ∉ es

section

variable {parsesUser : String → Bool}

/-! ### What a build changes -/

theorem build_locked (n : ℕ) (c : MachineConfig) (up : Opening) (s : InitState) :
    (build parsesUser n c up s).2.locked = s.locked := by
  unfold build
  split
  · rfl
  · split
    · rfl
    · split
      · rfl
      · split <;> rfl

theorem build_held (n : ℕ) (c : MachineConfig) (up : Opening) (s : InitState) :
    (build parsesUser n c up s).2.held = s.held := by
  unfold build
  split
  · rfl
  · split
    · rfl
    · split
      · rfl
      · split <;> rfl

/-- A build opens no store but its call's own. -/
theorem mem_stores_build {n m : ℕ} {c : MachineConfig} {up : Opening} {s : InitState}
    {path : String} (h : (m, path) ∈ (build parsesUser n c up s).2.stores) :
    (m, path) ∈ s.stores ∨ m = n := by
  unfold build at h
  have touched : (m, path) ∈ s.stores ++ [(n, c.storePath)] → (m, path) ∈ s.stores ∨ m = n := by
    intro h
    rcases List.mem_append.mp h with h | h
    · exact Or.inl h
    · rw [List.mem_singleton] at h
      exact Or.inr (congrArg Prod.fst h)
  split at h
  · exact Or.inl h
  · split at h
    · exact Or.inl h
    · split at h
      · exact touched h
      · split at h <;> exact touched h

/-- The machine built is of the configuration it was asked for. -/
theorem build_ok {n : ℕ} {c built : MachineConfig} {up : Opening} {s : InitState}
    (h : (build parsesUser n c up s).1 = .ok built) : built = c := by
  unfold build at h
  split at h
  · cases h
  · split at h
    · cases h
    · split at h
      · cases h
      · split at h
        · cases h
        · exact (Except.ok.inj h).symm

/-- A build is not turned away. -/
theorem build_ne_alreadyInitialised {n : ℕ} {c : MachineConfig} {up : Opening} {s : InitState} :
    (build parsesUser n c up s).1 ≠ .error .alreadyInitialised := by
  unfold build
  split
  · simp
  · split
    · simp
    · split
      · simp
      · split
        · next e _ => cases e <;> simp [classifyStoreError]
        · simp

/-- A well-formed configuration builds where upstream opens its store. -/
theorem build_of_wellFormed {n : ℕ} {c : MachineConfig} (h : c.WellFormed parsesUser)
    (s : InitState) : (build parsesUser n c ⟨.ok (), .ok false⟩ s).1 = .ok c := by
  unfold build
  simp [h.1, h.2]

/-! ### One call at a time is past the lock -/

/-- The lock is held by the one call past it, and while a call builds or writes there
is no machine. -/
structure Serialised (p : Pool InitState InitCall) : Prop where
  inside : p.calls.countP InitCall.isInside = p.shared.locked.toNat
  empty : ∀ l ∈ p.calls, l.isBuilding = true ∨ l.isWriting = true → p.shared.held = none

namespace Serialised

variable {p q : Pool InitState InitCall} {before after : List InitCall} {l : InitCall}

/-- Past the lock there is no other call. -/
theorem alone (h : Serialised p) (hsplit : p.calls = before ++ l :: after)
    (hl : l.isInside = true) :
    p.shared.locked = true ∧ before.countP InitCall.isInside = 0 ∧
      after.countP InitCall.isInside = 0 := by
  have hcount := h.inside
  rw [hsplit, List.countP_append, List.countP_cons_of_pos hl] at hcount
  cases hlocked : p.shared.locked with
  | false =>
    rw [hlocked] at hcount
    simp only [Bool.toNat_false] at hcount
    omega
  | true =>
    rw [hlocked] at hcount
    simp only [Bool.toNat_true] at hcount
    exact ⟨rfl, by omega, by omega⟩

theorem of_alone (hbefore : before.countP InitCall.isInside = 0)
    (hafter : after.countP InitCall.isInside = 0) {m : InitCall}
    (hm : m ∈ before ++ after) : m.isInside = false := by
  rw [List.countP_eq_zero] at hbefore hafter
  rcases List.mem_append.mp hm with hm | hm
  · exact Bool.eq_false_iff.mpr (hbefore m hm)
  · exact Bool.eq_false_iff.mpr (hafter m hm)

theorem isInside_of_busy (h : l.isBuilding = true ∨ l.isWriting = true) : l.isInside = true := by
  cases l with
  | init n c => simp [InitCall.isBuilding, InitCall.isWriting] at h
  | _ => rfl

/-- The call past the lock goes on: it may build or write only while there is none. -/
theorem goes (h : Serialised p) (hsplit : p.calls = before ++ l :: after)
    (hl : l.isInside = true) {l' : InitCall} (hl' : l'.isInside = true) {t : InitState}
    (hlocked : t.locked = p.shared.locked)
    (hheld : l'.isBuilding = true ∨ l'.isWriting = true → t.held = none)
    (hq : q = ⟨t, before ++ ([l'] ++ after)⟩) : Serialised q := by
  obtain ⟨hlock, hbefore, hafter⟩ := h.alone hsplit hl
  subst hq
  refine ⟨?_, fun m hm hbusy => ?_⟩
  · show (before ++ ([l'] ++ after)).countP InitCall.isInside = t.locked.toNat
    rw [List.countP_append, List.countP_append, hbefore, hafter, hlocked, hlock]
    simp [hl']
  · have hm : m ∈ before ++ ([l'] ++ after) := hm
    simp only [List.mem_append, List.mem_singleton] at hm
    rcases hm with hm | rfl | hm
    · have hout := of_alone hbefore hafter (List.mem_append_left after hm)
      rw [isInside_of_busy hbusy] at hout
      cases hout
    · exact hheld hbusy
    · have hout := of_alone hbefore hafter (List.mem_append_right before hm)
      rw [isInside_of_busy hbusy] at hout
      cases hout

/-- The call past the lock returns, and gives it back. -/
theorem returns (h : Serialised p) (hsplit : p.calls = before ++ l :: after)
    (hl : l.isInside = true) {t : InitState} (hlocked : t.locked = false)
    (hq : q = ⟨t, before ++ ([] ++ after)⟩) : Serialised q := by
  obtain ⟨-, hbefore, hafter⟩ := h.alone hsplit hl
  subst hq
  refine ⟨?_, fun m hm hbusy => ?_⟩
  · show (before ++ ([] ++ after)).countP InitCall.isInside = t.locked.toNat
    rw [List.countP_append, List.countP_append, hbefore, hafter, hlocked]
    rfl
  · have hout := of_alone hbefore hafter (m := m) (by simpa using hm)
    rw [isInside_of_busy hbusy] at hout
    cases hout

end Serialised

/-- **One call at a time is past the lock.** -/
theorem serialised_step {p q : Pool InitState InitCall} {e : InitEvent}
    (hstep : (initialising parsesUser).step p e q) (h : Serialised p) : Serialised q := by
  cases e with
  | start l =>
    obtain ⟨⟨n, c, rfl⟩, rfl⟩ := hstep
    refine ⟨?_, fun m hm hbusy => ?_⟩
    · show (p.calls ++ [InitCall.init n c]).countP InitCall.isInside = p.shared.locked.toNat
      rw [List.countP_append, h.inside]
      rfl
    · rcases List.mem_append.mp hm with hm | hm
      · exact h.empty m hm hbusy
      · rw [List.mem_singleton] at hm
        subst hm
        simp [InitCall.isBuilding, InitCall.isWriting] at hbusy
  | world held =>
    obtain ⟨hmove, hcalls⟩ := hstep
    have hmove : q.shared = { p.shared with privateKeysHeld := held } := hmove
    refine ⟨?_, fun m hm hbusy => ?_⟩
    · rw [hcalls, hmove]
      exact h.inside
    · rw [hcalls] at hm
      rw [hmove]
      exact h.empty m hm hbusy
  | «section» l r =>
    obtain ⟨before, after, hsplit, hnext, hcalls⟩ := hstep
    have hl : l ∈ p.calls := Calls.mem_of_split hsplit
    obtain ⟨t, calls⟩ := q
    obtain rfl := hcalls
    have hnext : InitNext parsesUser p.shared l t r := hnext
    cases hnext with
    | @acquires n c hfree =>
      -- the lock was free, so nobody was past it
      have hcount := h.inside
      rw [hsplit, List.countP_append, List.countP_cons_of_neg (by simp [InitCall.isInside]),
        hfree] at hcount
      have hzero : before.countP InitCall.isInside + after.countP InitCall.isInside = 0 := hcount
      refine ⟨?_, fun m hm hbusy => ?_⟩
      · show (before ++ ([InitCall.locked n c] ++ after)).countP InitCall.isInside = 1
        rw [List.countP_append, List.countP_append]
        have hone : [InitCall.locked n c].countP InitCall.isInside = 1 := rfl
        omega
      · have hm : m ∈ before ++ ([.locked n c] ++ after) := hm
        simp only [List.mem_append, List.mem_singleton] at hm
        rcases hm with hm | rfl | hm
        · exact h.empty m (by simp [hsplit, hm]) hbusy
        · simp [InitCall.isBuilding, InitCall.isWriting] at hbusy
        · exact h.empty m (by simp [hsplit, hm]) hbusy
    | accepts _ => exact h.returns hsplit rfl rfl rfl
    | refuses _ _ => exact h.returns hsplit rfl rfl rfl
    | begins hheld => exact h.goes hsplit rfl rfl rfl (fun _ => hheld) rfl
    | builds _ =>
      refine h.goes hsplit rfl rfl (build_locked _ _ _ _) (fun _ => ?_) rfl
      rw [build_held]
      exact h.empty _ hl (Or.inl rfl)
    | fails _ => exact h.returns hsplit rfl rfl rfl
    | writes _ => exact h.returns hsplit rfl rfl rfl
    | asserts _ => exact h.returns hsplit rfl rfl rfl

theorem serialised_run {p q : Pool InitState InitCall} {es : List InitEvent}
    (hp : (initialising parsesUser).init p) (hrun : (initialising parsesUser).Run p es q) :
    Serialised q := by
  refine hrun.invariant (I := Serialised) (fun _ _ _ h hstep => serialised_step hstep h) ?_
  refine ⟨?_, fun l hl => ?_⟩
  · rw [hp.2, hp.1.1]
    rfl
  · rw [hp.2] at hl
    cases hl

/-! ### What is held stays, and is built once -/

/-- One step leaves what is held, or writes it where nothing was. -/
theorem held_step {p q : Pool InitState InitCall} {e : InitEvent}
    (hstep : (initialising parsesUser).step p e q) :
    q.shared.held = p.shared.held ∨
      ∃ n c built, e = .section (.writing n c built) (.inr (.returned (.ok ()))) ∧
        p.shared.held = none ∧ q.shared.held = some built := by
  cases e with
  | start l =>
    obtain ⟨-, rfl⟩ := hstep
    exact Or.inl rfl
  | world held =>
    obtain ⟨hmove, -⟩ := hstep
    have hmove : q.shared = { p.shared with privateKeysHeld := held } := hmove
    rw [hmove]
    exact Or.inl rfl
  | «section» l r =>
    obtain ⟨_, _, -, hnext, -⟩ := hstep
    generalize q.shared = t at hnext
    cases hnext with
    | writes h => exact Or.inr ⟨_, _, _, rfl, h, rfl⟩
    | builds _ => exact Or.inl (build_held _ _ _ _)
    | fails _ => exact Or.inl (build_held _ _ _ _)
    | _ => exact Or.inl rfl

theorem held_kept {p q : Pool InitState InitCall} {es : List InitEvent} {c : MachineConfig}
    (hrun : (initialising parsesUser).Run p es q) (h : p.shared.held = some c) :
    q.shared.held = some c := by
  refine hrun.invariant (I := fun p => p.shared.held = some c) ?_ h
  intro p e q h hstep
  rcases held_step hstep with heq | ⟨_, _, _, -, hnone, -⟩
  · exact heq.trans h
  · rw [h] at hnone
    cases hnone

/-- The machine to be written, and the one held, are of the call's own configuration. -/
theorem writing_own {p q : Pool InitState InitCall} {es : List InitEvent}
    (hp : (initialising parsesUser).init p) (hrun : (initialising parsesUser).Run p es q) :
    ∀ n c built, .writing n c built ∈ q.calls → built = c := by
  refine hrun.invariant (I := fun q => ∀ n c built, .writing n c built ∈ q.calls → built = c) ?_ ?_
  · intro p e q h hstep n c built hmem
    cases e with
    | start l =>
      obtain ⟨⟨m, d, rfl⟩, rfl⟩ := hstep
      exact h n c built (by simpa using hmem)
    | world held =>
      rw [hstep.2] at hmem
      exact h n c built hmem
    | «section» l r =>
      rcases Calls.mem_of_section hstep hmem with hmem | hmem
      · exact h n c built hmem
      · obtain ⟨-, -, -, hnext, -⟩ := hstep
        generalize q.shared = t at hnext
        cases hnext with
        | builds hbuilt =>
          rw [remaining_inl, List.mem_singleton] at hmem
          cases hmem
          exact build_ok hbuilt
        | _ => simp at hmem
  · intro n c built hmem
    rw [hp.2] at hmem
    cases hmem

/-- The machines built are the one held and the one to be written. -/
theorem built_run {p q : Pool InitState InitCall} {es : List InitEvent}
    (hp : (initialising parsesUser).init p) (hrun : (initialising parsesUser).Run p es q) :
    es.countP Succeeds = q.shared.held.isSome.toNat + q.calls.countP InitCall.isWriting := by
  induction hrun with
  | nil =>
    rw [hp.2, hp.1.2.1]
    rfl
  | @snoc s t es e hrun hstep ih =>
    have hserial := serialised_run hp hrun
    rw [List.countP_append, ih]
    cases e with
    | start l =>
      obtain ⟨⟨m, d, rfl⟩, rfl⟩ := hstep
      simp [Succeeds, InitCall.isWriting]
    | world held =>
      obtain ⟨hmove, hcalls⟩ := hstep
      have hmove : t.shared = { s.shared with privateKeysHeld := held } := hmove
      rw [hcalls, hmove]
      simp [Succeeds]
    | «section» l r =>
      obtain ⟨before, after, hsplit, hnext, hcalls⟩ := hstep
      have hl : l ∈ s.calls := Calls.mem_of_split hsplit
      have hnext : InitNext parsesUser s.shared l t.shared r := hnext
      rw [hsplit, hcalls]
      simp only [List.countP_append]
      generalize t.shared = t' at hnext
      cases hnext with
      | builds hbuilt =>
        rw [build_held]
        simp [Succeeds, InitCall.isWriting]
        omega
      | fails _ =>
        show _ = (build parsesUser _ _ _ s.shared).2.held.isSome.toNat + _
        rw [build_held]
        simp [Succeeds, InitCall.isWriting]
      | writes hnone =>
        rw [hnone]
        simp [Succeeds, List.countP_cons, InitCall.isWriting]
        omega
      | asserts hheld =>
        -- the one that writes found none
        rw [hserial.empty _ hl (Or.inr rfl)] at hheld
        cases hheld
      | _ => simp [Succeeds, InitCall.isWriting]

theorem countP_isWriting_le {p : Pool InitState InitCall} (h : Serialised p) :
    p.shared.held.isSome.toNat + p.calls.countP InitCall.isWriting ≤ 1 := by
  have hinside : p.calls.countP InitCall.isWriting ≤ p.calls.countP InitCall.isInside :=
    List.countP_mono_left fun l _ hl => Serialised.isInside_of_busy (Or.inr hl)
  have hlocked := p.shared.locked.toNat_le
  rw [h.inside] at hinside
  by_cases hany : ∃ l ∈ p.calls, l.isWriting = true
  · obtain ⟨l, hl, hwriting⟩ := hany
    rw [h.empty l hl (Or.inr hwriting)]
    simp only [Option.isSome_none, Bool.toNat_false]
    omega
  · have hzero : p.calls.countP InitCall.isWriting = 0 :=
      List.countP_eq_zero.mpr fun l hl hwriting => hany ⟨l, hl, hwriting⟩
    have hheld := p.shared.held.isSome.toNat_le
    omega

theorem countP_isBuilding_le {p : Pool InitState InitCall} (h : Serialised p) :
    p.calls.countP InitCall.isBuilding ≤ 1 := by
  have hinside : p.calls.countP InitCall.isBuilding ≤ p.calls.countP InitCall.isInside :=
    List.countP_mono_left fun l _ hl => Serialised.isInside_of_busy (Or.inl hl)
  have hlocked := p.shared.locked.toNat_le
  rw [h.inside] at hinside
  omega

/-! ### A call that is turned away -/

theorem caller_next {s t : InitState} {l l' : InitCall}
    (h : (inits parsesUser).next s l t (.inl l')) : l'.caller = l.caller := by
  generalize hr : (.inl l' : InitCall ⊕ InitResult) = r at h
  cases h with
  | acquires _ => cases hr; rfl
  | begins _ => cases hr; rfl
  | builds _ => cases hr; rfl
  | _ => cases hr

/-- Before its look a call has begun no build, and one turned away never did. -/
theorem not_begun_of_thread {es : List InitEvent} {cur : Option InitCall}
    (h : (inits parsesUser).Thread es cur) {n : ℕ} :
    (∀ l, cur = some l → l.isBuilding = false → l.isWriting = false → ¬ BeginsBuild n es) ∧
      ∀ l, .section l (.inr (.returned (.error .alreadyInitialised))) ∈ es →
        ¬ BeginsBuild n es := by
  induction h with
  | start _ =>
    refine ⟨?_, by simp⟩
    rintro l - - - ⟨l', c, hmem⟩
    simp at hmem
  | @goes es s t l l' hes hnext ih =>
    refine ⟨?_, fun m hmem => ?_⟩
    · rintro m ⟨⟩ hbuilding hwriting ⟨l'', c, hbegins⟩
      rcases List.mem_append.mp hbegins with hearlier | hbegins
      · -- the call is at its look, so it was waiting for the lock
        generalize hr : (.inl l' : InitCall ⊕ InitResult) = r at hnext
        cases hnext with
        | acquires _ => exact ih.1 _ rfl rfl rfl ⟨_, _, hearlier⟩
        | begins _ =>
          obtain rfl := Sum.inl.inj hr
          cases hbuilding
        | builds _ =>
          obtain rfl := Sum.inl.inj hr
          cases hwriting
        | _ => cases hr
      · rw [List.mem_singleton] at hbegins
        cases hbegins
        cases hbuilding
    · rcases List.mem_append.mp hmem with hmem | hmem
      · exact absurd hmem hes.not_returned
      · simp at hmem
  | @returns es s t l out hes hnext ih =>
    refine ⟨fun _ hcur => (by cases hcur), fun m hmem => ?_⟩
    rcases List.mem_append.mp hmem with hmem | hmem
    · exact absurd hmem hes.not_returned
    · rw [List.mem_singleton] at hmem
      cases hmem
      rintro ⟨l', c, hbegins⟩
      generalize hr : (.inr (.returned (.error .alreadyInitialised)) : InitCall ⊕ InitResult) = r
        at hnext
      have hes' : BeginsBuild n es := by
        rcases List.mem_append.mp hbegins with hbegins | hbegins
        · exact ⟨l', c, hbegins⟩
        · simp at hbegins
      -- the refusal is the look's, or upstream's build would have to give it
      cases hnext with
      | refuses _ _ => exact ih.1 _ rfl rfl rfl hes'
      | fails h =>
        obtain rfl := Except.error.inj (InitResult.returned.inj (Sum.inr.inj hr))
        exact absurd h build_ne_alreadyInitialised
      | _ => cases hr

/-- Every store was opened by a call that began a build. -/
theorem stores_begun {p q : Pool InitState InitCall} {es : List InitEvent}
    (hp : (initialising parsesUser).init p) (hrun : (initialising parsesUser).Run p es q) :
    (∀ n path, (n, path) ∈ q.shared.stores → BeginsBuild n es) ∧
      ∀ n c, .building n c ∈ q.calls → BeginsBuild n es := by
  refine hrun.invariant_history (I := fun es q =>
    (∀ n path, (n, path) ∈ q.shared.stores → BeginsBuild n es) ∧
      ∀ n c, .building n c ∈ q.calls → BeginsBuild n es) ?_ ?_
  · intro es p e q h hstep
    have hmono : ∀ {n}, BeginsBuild n es → BeginsBuild n (es ++ [e]) := by
      rintro n ⟨l, c, hmem⟩
      exact ⟨l, c, List.mem_append_left _ hmem⟩
    cases e with
    | start l =>
      obtain ⟨⟨m, d, rfl⟩, rfl⟩ := hstep
      exact ⟨fun n path hmem => hmono (h.1 n path hmem),
        fun n c hmem => hmono (h.2 n c (by simpa using hmem))⟩
    | world held =>
      obtain ⟨hmove, hcalls⟩ := hstep
      have hmove : q.shared = { p.shared with privateKeysHeld := held } := hmove
      rw [hmove, hcalls]
      exact ⟨fun n path hmem => hmono (h.1 n path hmem), fun n c hmem => hmono (h.2 n c hmem)⟩
    | «section» l r =>
      -- the call that goes on builds only if this step began it
      have hbuilding : (∀ n c, .building n c ∈ remaining r →
          BeginsBuild n (es ++ [.section l r])) →
          ∀ n c, .building n c ∈ q.calls → BeginsBuild n (es ++ [.section l r]) := by
        intro hr n c hmem
        rcases Calls.mem_of_section hstep hmem with hmem | hmem
        · exact hmono (h.2 n c hmem)
        · exact hr n c hmem
      obtain ⟨before, after, hsplit, hnext, -⟩ := hstep
      have hl : l ∈ p.calls := Calls.mem_of_split hsplit
      refine ⟨?_, hbuilding ?_⟩
      · generalize q.shared = t at hnext
        intro n path hmem
        cases hnext with
        | @builds m c _ _ _ =>
          rcases mem_stores_build hmem with hmem | rfl
          · exact hmono (h.1 n path hmem)
          · exact hmono (h.2 n c hl)
        | @fails m c _ _ _ =>
          rcases mem_stores_build hmem with hmem | rfl
          · exact hmono (h.1 n path hmem)
          · exact hmono (h.2 n c hl)
        | _ => exact hmono (h.1 n path hmem)
      · intro n c hmem
        cases r with
        | inl l' =>
          rw [remaining_inl, List.mem_singleton] at hmem
          subst hmem
          exact ⟨l, c, List.mem_append_right es (List.mem_singleton_self _)⟩
        | inr _ => simp at hmem
  · rw [hp.1.2.2, hp.2]
    exact ⟨fun _ _ hmem => (by cases hmem), fun _ _ hmem => (by cases hmem)⟩

/-- A call turned away never began a build. -/
theorem not_begun_of_refused {p q : Pool InitState InitCall} {es : List InitEvent} {l : InitCall}
    (hp : (initialising parsesUser).init p) (hrun : (initialising parsesUser).Run p es q)
    (hmem : .section l (.inr (.returned (.error .alreadyInitialised))) ∈ es)
    (honce : Calls.begun InitCall.caller l.caller es ≤ 1) : ¬ BeginsBuild l.caller es := by
  have hnamed : Event.Named InitCall.caller l.caller
      (.section l (.inr (.returned (.error .alreadyInitialised))) : InitEvent) := rfl
  rintro ⟨l', c, hbegins⟩
  have hown : (initialising parsesUser).Run p es q := hrun
  have hcaller : l'.caller = l.caller := by
    obtain ⟨as, bs, rfl⟩ := List.mem_iff_append.mp hbegins
    obtain ⟨s, -, hrest⟩ := hrun.split
    obtain ⟨t, ⟨_, _, -, hnext, -⟩, -⟩ := hrest.uncons
    exact (caller_next hnext).symm
  cases Calls.thread_of_run (fun s l t l' h => caller_next h) hown hp.2 honce with
  | apart hes _ =>
    have hin := Calls.mem_events.mpr ⟨hmem, hnamed⟩
    rw [hes] at hin
    cases hin
  | thread hthread _ =>
    refine (not_begun_of_thread hthread).2 l (Calls.mem_events.mpr ⟨hmem, hnamed⟩)
      ⟨l', c, Calls.mem_events.mpr ⟨hbegins, hcaller⟩⟩

/-! ### After a failed build -/

/-- Where the lock is free and nothing is held, a new call can succeed. -/
theorem run_succeeds {s : InitState} {calls : List InitCall} (hfree : s.locked = false)
    (hnone : s.held = none) (m : ℕ) {d : MachineConfig} (h : d.WellFormed parsesUser) :
    ∃ fs u, (initialising parsesUser).Run ⟨s, calls⟩ (.start (.init m d) :: fs) u ∧
      .section (.writing m d d) (.inr (.returned (.ok ()))) ∈ fs := by
  have hsteps : ∀ {s t : InitState} {l : InitCall} {r : InitCall ⊕ InitResult},
      InitNext parsesUser s l t r → (initialising parsesUser).step ⟨s, calls ++ [l]⟩
        (.section l r) ⟨t, calls ++ (remaining r ++ [])⟩ :=
    fun hnext => (inits parsesUser).step_section calls [] hnext
  have hstart : (initialising parsesUser).step ⟨s, calls⟩ (.start (.init m d))
      ⟨s, calls ++ [.init m d]⟩ := ⟨⟨m, d, rfl⟩, rfl⟩
  refine ⟨_, _, .cons hstart (.cons (hsteps (.acquires hfree)) (.cons (hsteps (.begins hnone))
    (.cons (hsteps (.builds (build_of_wellFormed h _))) (.single (hsteps (.writes ?_)))))), ?_⟩
  · exact (build_held _ _ _ _).trans hnone
  · simp

/-- Nothing is held after the build of a call that is past the lock. -/
theorem build_held_none {s : Pool InitState InitCall} {n : ℕ} {c : MachineConfig}
    (hserial : Serialised s) (hl : .building n c ∈ s.calls) (up : Opening) :
    (build parsesUser n c up s.shared).2.held = none :=
  (build_held n c up s.shared).trans (hserial.empty _ hl (Or.inl rfl))

/-- A call returns `Ok` exactly if what is held then is its own. -/
theorem ok_iff_held {p s t : Pool InitState InitCall} {es : List InitEvent} {l : InitCall}
    {out : Except InitError Unit} (hp : (initialising parsesUser).init p)
    (hrun : (initialising parsesUser).Run p es s)
    (hstep : (initialising parsesUser).step s (.section l (.inr (.returned out))) t) :
    out = .ok () ↔ t.shared.held = some l.config := by
  have hserial := serialised_run hp hrun
  have hown := writing_own hp hrun
  obtain ⟨before, after, hsplit, hnext, -⟩ := hstep
  have hl : l ∈ s.calls := Calls.mem_of_split hsplit
  generalize hr : (.inr (.returned out) : InitCall ⊕ InitResult) = r at hnext
  generalize t.shared = t' at hnext
  cases hnext with
  | accepts hheld =>
    obtain rfl := InitResult.returned.inj (Sum.inr.inj hr)
    exact ⟨fun _ => hheld, fun _ => rfl⟩
  | refuses hheld hne =>
    obtain rfl := InitResult.returned.inj (Sum.inr.inj hr)
    refine ⟨fun h => (by cases h), fun h => absurd ?_ hne⟩
    exact Option.some.inj (hheld.symm.trans h)
  | @fails n c up e _ =>
    -- the one that builds found none, and its build wrote none
    obtain rfl := InitResult.returned.inj (Sum.inr.inj hr)
    refine ⟨fun h => (by cases h), fun h => ?_⟩
    have hheld : (build parsesUser n c up s.shared).2.held = some c := h
    rw [build_held_none hserial hl up] at hheld
    cases hheld
  | @writes n c built _ =>
    obtain rfl := InitResult.returned.inj (Sum.inr.inj hr)
    obtain rfl := hown n c built hl
    exact ⟨fun _ => rfl, fun _ => rfl⟩
  | _ => cases hr

/-- **One machine per process**, whatever the calls, their configurations and the
builds that fail. -/
theorem oneMachine_of_initial {p : Pool InitState InitCall}
    (hp : (initialising parsesUser).init p) : OneMachine parsesUser p where
  oneBuild := by
    intro es q hrun
    rw [built_run hp hrun]
    exact countP_isWriting_le (serialised_run hp hrun)
  kept := fun _ _ _ _ _ _ hrun hheld => held_kept hrun hheld
  answers := fun _ _ _ _ _ hrun hstep => ok_iff_held hp hrun hstep
  refused := by
    intro es q l hrun hmem honce
    have hnot := not_begun_of_refused hp hrun hmem honce
    exact ⟨hnot, fun path hpath => hnot ((stores_begun hp hrun).1 _ path hpath)⟩
  exclusive := fun es q hrun => countP_isBuilding_le (serialised_run hp hrun)
  recovers := by
    intro es s n c e t hrun hstep
    have hserial := serialised_run hp hrun
    obtain ⟨before, after, hsplit, hnext, -⟩ := hstep
    have hl : .building n c ∈ s.calls := Calls.mem_of_split hsplit
    generalize hr : (.inr (.returned (.error e)) : InitCall ⊕ InitResult) = r at hnext
    obtain ⟨t', calls⟩ := t
    cases hnext with
    | @fails _ _ up _ _ =>
      have hnone : (build parsesUser n c up s.shared).2.held = none :=
        build_held_none hserial hl up
      refine ⟨hnone, fun m d hd => ?_⟩
      obtain ⟨fs, u, hlater, hmem⟩ :=
        run_succeeds (s := { (build parsesUser n c up s.shared).2 with locked := false })
          rfl hnone m hd
      exact ⟨fs, u, _, hlater, rfl, rfl, hmem⟩
    | _ => cases hr
  asserted := by
    intro es q l hrun hmem
    obtain ⟨as, bs, rfl⟩ := List.mem_iff_append.mp hmem
    obtain ⟨s, hbefore, hrest⟩ := hrun.split
    obtain ⟨t, ⟨before, after, hsplit, hnext, -⟩, -⟩ := hrest.uncons
    have hl : l ∈ s.calls := Calls.mem_of_split hsplit
    generalize hr : (.inr .panicked : InitCall ⊕ InitResult) = r at hnext
    generalize t.shared = t' at hnext
    cases hnext with
    | asserts hheld =>
      rw [(serialised_run hp hbefore).empty _ hl (Or.inr rfl)] at hheld
      cases hheld
    | _ => cases hr

end

/-! ### A process that has just started -/

/-- The identifier of a user begins with a sigil. -/
def sigilParses (user : String) : Bool := user.toList.head? == some '@'

/-- No call has been made. -/
def nothingHeld : Pool InitState InitCall := ⟨⟨false, none, [], false⟩, []⟩

/-- **One machine per process** in that process, where a call can succeed. -/
theorem oneMachine_nothingHeld : OneMachine sigilParses nothingHeld ∧
    ∃ fs u, (initialising sigilParses).Run nothingHeld
      (.start (.init 1 ⟨"@me:example.org", "DEVICE", "store", none⟩) :: fs) u ∧
        .section (.writing 1 ⟨"@me:example.org", "DEVICE", "store", none⟩
          ⟨"@me:example.org", "DEVICE", "store", none⟩) (.inr (.returned (.ok ()))) ∈ fs :=
  ⟨oneMachine_of_initial ⟨⟨rfl, rfl, rfl⟩, rfl⟩, run_succeeds rfl rfl 1 ⟨rfl, rfl⟩⟩

end MatrixCrypto
