import MatrixCrypto.Process

/-!
# The registry, one section at a time

Every section under the registry lock, as one atomic step, in any order.  What a
take's trip returned and what upstream made of a response are part of the label,
so a section may come any time after the trip it belongs to: the runs are those
of all calls, interleaved at will.

## Main definitions

* `RegistrySection`, with `after` — the sections and their effect.
* `registry` — the step relation.
* `MintsNew` — the ids minted for a section are new to the registry.

## Main results

* `registry_run_of_call`, `registry_reachable` — **a call is a run of its
  sections**, so every registry a process reaches is reached here.
* `KeptByWrites.afterSection` — what the writes keep and handing out keeps, every
  section keeps.
-/

namespace MatrixCrypto

open Lib Relation

/-- One section under the registry lock. -/
inductive RegistrySection
  | queueAction (r : UpstreamOutgoingRequest)
  | queueToDevice (rs : List ToDeviceRequest)
  | queueSigningKeys (id : String) (r : UploadSigningKeysRequest)
  | queueAccountQuery (id : String) (r : KeysQueryRequest)
  | queuePeerQuery (id : String) (r : KeysQueryRequest)
  | share (missing : Except Unit (Option (String × KeysClaimRequest)))
      (shared : Except Unit (List ToDeviceRequest)) (tracked : Except Unit Unit)
  /-- The section of a take, with what its trip returned. -/
  | take (trip : Option Offered)
  /-- The section of a mark, with what its trip came to. -/
  | mark (id : String) (settled : Except SessionError AnswerAboutAccount)

namespace RegistrySection

/-- The registry after a section. -/
def after (account : String) (s : RequestState) : RegistrySection → RequestState
  | queueAction r => s.queueActionRequest r
  | queueToDevice rs => s.queueToDeviceRequests rs
  | queueSigningKeys id r => s.queueSigningKeysRequest id r
  | queueAccountQuery id r => s.queueAccountKeyQuery id r
  | queuePeerQuery id r => s.queuePeerKeyQuery id r
  | share missing shared tracked => (s.shareQueues missing shared tracked).2
  | take trip => (s.takeOutgoingRequests account trip).2
  | mark id (.ok answer) => s.settle id answer
  | mark _ (.error _) => s

/-- The ids minted for a section. -/
def minted : RegistrySection → List String
  | queueSigningKeys id _ | queueAccountQuery id _ | queuePeerQuery id _ => [id]
  | _ => []

/-- The section is a take's that hands a batch out. -/
def Drains (account : String) (s : RequestState) : RegistrySection → Prop
  | take trip => ∃ batch, s.takeBatch account trip = .ok batch
  | _ => False

end RegistrySection

/-- The ids minted for a section are new: none waits, and none is pending. -/
def MintsNew (s : RequestState) (c : RegistrySection) : Prop :=
  ∀ id ∈ c.minted, ¬ s.Carries id ∧ s.pending.get? id = none

/-- The registry: any sections in any order. -/
def registry (account : String) : TransitionSystem RequestState RegistrySection where
  init := fun s => s = .initial
  step := fun s c t => t = c.after account s

/-- What a trip returns when upstream offers these and has no backup batch. -/
def offers (rs : List UpstreamOutgoingRequest) : Option Offered := some ⟨.ok rs, none⟩

/-! ### A call is a run of its sections -/

section refinement

variable (account : String)

theorem registry_step (s : RequestState) (c : RegistrySection) :
    (registry account).step s c (c.after account s) := rfl

theorem registry_unique (s : RequestState) (c : RegistrySection) (t u : RequestState)
    (ht : (registry account).step s c t) (hu : (registry account).step s c u) : t = u :=
  Eq.trans ht (Eq.symm hu)

theorem registry_run_of_queueing {s t : RequestState} (h : Queueing s t) :
    ∃ cs, (registry account).Run s cs t := by
  cases h with
  | action r => exact ⟨_, .single (registry_step account s (.queueAction r))⟩
  | toDevice rs => exact ⟨_, .single (registry_step account s (.queueToDevice rs))⟩
  | claim c => exact ⟨_, .single (registry_step account s (.share (.ok c) (.error ()) (.ok ())))⟩
  | accountQuery id r => exact ⟨_, .single (registry_step account s (.queueAccountQuery id r))⟩
  | peerQuery id r => exact ⟨_, .single (registry_step account s (.queuePeerQuery id r))⟩

theorem registry_run_of_queueings {s t : RequestState} (h : ReflTransGen Queueing s t) :
    ∃ cs, (registry account).Run s cs t := by
  induction h with
  | refl => exact ⟨[], .nil s⟩
  | tail _ hstep ih =>
    obtain ⟨cs, hrun⟩ := ih
    obtain ⟨cs', hrun'⟩ := registry_run_of_queueing account hstep
    exact ⟨cs ++ cs', hrun.append hrun'⟩

/-- What a create queues, lock by lock. -/
theorem registry_run_of_publication (s : RequestState) (up : Publishing)
    (requests : BootstrapRequests) : ∃ cs, (registry account).Run s cs
      ((s.queuePublication up requests).queueAccountKeyQuery up.queryId up.query) := by
  obtain ⟨cs, hdevice⟩ := registry_run_of_queueings account
    (queueing_queueDeviceKeys s requests.uploadKeysReq)
  have hkeys := hdevice.snoc (registry_step account _
    (.queueSigningKeys up.signingKeysId requests.uploadSigningKeysReq))
  have hsignatures := hkeys.snoc (registry_step account _ (.queueAction (up.signatures requests)))
  exact ⟨_, hsignatures.snoc (registry_step account _ (.queueAccountQuery up.queryId up.query))⟩

/-- **A call is a run of its sections.** -/
theorem registry_run_of_call (P : Parsers) (p : Process) (c : Call) :
    ∃ cs, (registry account).Run p.requests cs (c.after P account p).requests := by
  by_cases hc : ∃ trip, c = .take trip
  · obtain ⟨trip, rfl⟩ := hc
    exact ⟨_, .single (registry_step account _ (.take trip))⟩
  · have heffect := after_requests P account p c
    generalize (c.after P account p).requests = t at heffect
    cases heffect with
    | queues h => exact registry_run_of_queueings account h
    | publishes up requests => exact registry_run_of_publication account _ up requests
    | drains => exact absurd ⟨_, rfl⟩ hc
    | settles answer => exact ⟨_, .single (registry_step account _ (.mark _ (.ok answer)))⟩

/-- Every registry a process reaches, its sections reach. -/
theorem registry_reachable {P : Parsers} {p : Process} (h : (process P account).Reachable p) :
    (registry account).Reachable p.requests := by
  refine h.invariant (I := fun p => (registry account).Reachable p.requests) ?_ ?_
  · intro p (hp : p.requests = .initial)
    rw [hp]
    exact ⟨_, [], rfl, .nil _⟩
  · rintro p c q hp rfl
    obtain ⟨cs, hrun⟩ := registry_run_of_call account P p c
    exact hp.run hrun

end refinement

/-! ### What the writes keep, the sections keep -/

/-- What a take that hands a batch out collects, and what it leaves. -/
theorem RequestState.takeBatch_leaves {s : RequestState} {account : String}
    {trip : Option Offered} {batch : List Entry} (h : s.takeBatch account trip = .ok batch) :
    ∃ o prepared fresh, trip = some o ∧ prepare account o = .ok prepared ∧
      s.collect account prepared = .ok fresh ∧ batch = s.handOut fresh ∧
      (s.takeOutgoingRequests account trip).2 = s.handedOut fresh := by
  obtain ⟨o, prepared, fresh, rfl, hprep, hfresh, rfl⟩ := takeBatch_ok h
  refine ⟨o, prepared, fresh, rfl, hprep, hfresh, rfl, ?_⟩
  simp only [takeOutgoingRequests, takeSection, hprep, hfresh]

/-- A take hands a batch out, or changes nothing. -/
theorem RequestState.takeBatch_cases (s : RequestState) (account : String)
    (trip : Option Offered) : (∃ batch, s.takeBatch account trip = .ok batch) ∨
      (s.takeOutgoingRequests account trip).2 = s := by
  cases h : s.takeBatch account trip with
  | ok batch => exact Or.inl ⟨batch, rfl⟩
  | error e =>
    refine Or.inr (takeOutgoingRequests_error (e := e) ?_)
    rw [takeOutgoingRequests_fst, h]
    rfl

/-- What a take leaves: a batch that could be built is handed out. -/
theorem RegistrySection.after_take (account : String) (s : RequestState) (trip : Option Offered) :
    (∃ o prepared fresh, trip = some o ∧ prepare account o = .ok prepared ∧
      s.collect account prepared = .ok fresh ∧
      (RegistrySection.take trip).after account s = s.handedOut fresh) ∨
      (RegistrySection.take trip).after account s = s := by
  rcases s.takeBatch_cases account trip with ⟨batch, hbatch⟩ | hsame
  · obtain ⟨o, prepared, fresh, htrip, hprep, hfresh, -, hleft⟩ :=
      RequestState.takeBatch_leaves hbatch
    exact Or.inl ⟨o, prepared, fresh, htrip, hprep, hfresh, hleft⟩
  · exact Or.inr hsame

/-- **What the writes keep and handing out keeps, every section keeps.** -/
theorem KeptByWrites.afterSection {I : RequestState → Prop} (h : KeptByWrites I) {account : String}
    {s : RequestState} {c : RegistrySection} (hs : I s)
    (hdrain : ∀ o prepared fresh, c = .take (some o) → prepare account o = .ok prepared →
      s.collect account prepared = .ok fresh → I (s.handedOut fresh)) :
    I (c.after account s) := by
  cases c with
  | queueAction r => exact h.queue hs (.action r)
  | queueToDevice rs => exact h.queue hs (.toDevice rs)
  | queueSigningKeys id r => exact h.keys id r hs
  | queueAccountQuery id r => exact h.queue hs (.accountQuery id r)
  | queuePeerQuery id r => exact h.queue hs (.peerQuery id r)
  | share missing shared tracked =>
    exact h.queues hs (queueing_shareQueues s missing shared tracked)
  | take trip =>
    rcases RegistrySection.after_take account s trip with
      ⟨o, prepared, fresh, rfl, hprep, hfresh, hleft⟩ | hsame
    · rw [hleft]
      exact hdrain o prepared fresh rfl hprep hfresh
    · rw [hsame]
      exact hs
  | mark id settled =>
    cases settled with
    | ok answer => exact h.settle id answer hs
    | error _ => exact hs

end MatrixCrypto
