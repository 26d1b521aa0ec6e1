import Mathlib.Data.List.Dedup
import Mathlib.Data.List.Sort
import MatrixCrypto.Signals.Channel
import MatrixCrypto.Signing.Arrival
import MatrixCrypto.Verification.InviteBooks
import MatrixCrypto.Verification.Kept
import MatrixCrypto.Verification.Retention

/-!
# What a sync announces

`announce_state_changes` as a whole: the devices that comparisons verified, the flows that
finished by scanning, the arrival of this account's private keys, and the invitations;
beside `device_statuses`, the call that the first of these sends a product to.

## Main definitions

* `Devices`, `deviceStatuses` — what the store answers of devices, and the call.
* `MachineView`, `Announcer` — what a pass reads, and what it writes.
* `registerAll`, `collect`, `announce` — its parts.
* `announceStateChanges` — the pass.
* `firstOf` — the candidates whose flow is not known yet, each flow once.

## Main results

* `registerAll_spec` — registering one after the other, as one list and one set of keys.
* `trustChanged_iff` — **the channel names a user where the call shows a device of theirs
  verified.**
* `announceStateChanges_again` — **the next pass tells what reached nobody, and of that the
  invitations alone.**
-/

namespace MatrixCrypto

open Lib

/-! ### Devices -/

/-- A device of a user, as the crypto store has it. -/
structure Device where
  deviceId : String
  /-- `is_verified`: trusted here, or by a cross signature this machine can follow. -/
  verified : Bool
  deriving DecidableEq, Repr

/-- What the store answers of devices. -/
structure Devices where
  /-- `get_user_devices`: a map, walked in an order of its own. -/
  ofUser : String → Except Unit (List Device)
  /-- `get_device`. -/
  device : String → String → Except Unit (Option Device)

/-- Both calls answer for the user, and out of one map. -/
def Devices.Answer (devices : Devices) (user : String) (held : List Device) : Prop :=
  devices.ofUser user = .ok held ∧ (held.map Device.deviceId).Nodup ∧
    ∀ id, devices.device user id = .ok (held.find? fun device => device.deviceId == id)

/-- What this library says about one device. -/
structure DeviceStatus where
  deviceId : String
  trust : NativeTrustState
  deriving DecidableEq, Repr

/-- The status of a device. -/
def Device.status (device : Device) : DeviceStatus :=
  ⟨device.deviceId, if device.verified then .verified else .unverified⟩

/-- `device_statuses`. -/
def deviceStatuses (isUserId : String → Bool) (machine : Option Devices) (userId : String) :
    Except MachineError (List DeviceStatus) :=
  match machine with
  | none => .error .notInitialised
  | some devices =>
    if !isUserId userId then .error .malformedIdentifier
    else
      match devices.ofUser userId with
      | .error _ => .error .store
      | .ok held => .ok ((held.map Device.status).insertionSort fun left right =>
          left.deviceId ≤ right.deviceId)

/-- The statuses are those of the devices the store has. -/
theorem mem_deviceStatuses {isUserId : String → Bool} {devices : Devices} {user : String}
    {held : List Device} {statuses : List DeviceStatus} (hheld : devices.ofUser user = .ok held)
    (h : deviceStatuses isUserId (some devices) user = .ok statuses) (status : DeviceStatus) :
    status ∈ statuses ↔ ∃ device ∈ held, device.status = status := by
  simp only [deviceStatuses, hheld] at h
  split at h
  · cases h
  · cases h
    rw [List.mem_insertionSort, List.mem_map]

/-! ### The pass -/

/-- What a pass reads of the machine. -/
structure MachineView where
  devices : Devices
  /-- `cross_signing_status` is complete. -/
  complete : Bool
  /-- The tracked users in the order of this reading; none where they cannot be read. -/
  tracked : List String

/-- What a pass writes. -/
structure Announcer where
  flows : Registry
  /-- `PRIVATE_KEYS_HELD`. -/
  held : Bool

/-- Whether the store says now that the device is verified. -/
def Devices.verified (devices : Devices) (user id : String) : Bool :=
  match devices.device user id with
  | .ok (some device) => device.verified
  | _ => false

/-- The users a completed comparison verified a device of: a set, walked in order. -/
def changedUsers (devices : Devices) (completions : List (String × String)) : List String :=
  (((completions.filter fun c => devices.verified c.1 c.2).map Prod.fst).dedup).insertionSort
    (· ≤ ·)

/-- The announcement of an invitation. -/
def Candidate.signal (c : Candidate) : NativeCryptoSignal :=
  .verificationRequested c.user c.deviceId c.flowId

/-- Registers one after the other, while somebody is subscribed; announced is what was not
there. -/
def registerAll (u : Upstream) : Registry → List Candidate → List NativeCryptoSignal × Registry
  | flows, [] => ([], flows)
  | flows, c :: found =>
    let registered := flows.registerIfAbsent u true c.flowId c.record
    let rest := registerAll u registered.2 found
    (if registered.1 then c.signal :: rest.1 else rest.1, rest.2)

/-- What a pass comes to: the invitations of the tracked users, then the comparisons its sync
began. -/
def MachineView.found (m : MachineView) (u : Upstream) (starts : List (String × String)) :
    List Candidate := announceable u m.tracked ++ bareStarts u starts

/-- The arrival of the private keys, and the latch after it. -/
def arrival (u : Upstream) (complete held : Bool) : List NativeCryptoSignal × Bool :=
  let noted := notePrivateKeysHeld held complete
  (if noted.1 then [.trustChanged u.userId .verified] else [], noted.2)

/-- What one trip collects, and what it leaves. -/
def collect (u : Upstream) (m : MachineView) (starts : List (String × String)) (a : Announcer) :
    List NativeCryptoSignal × Announcer :=
  let taken := a.flows.takePendingCompletions u
  let arrived := arrival u m.complete a.held
  let invited := registerAll u taken.2 (m.found u starts)
  ((changedUsers m.devices taken.1.verified).map (.trustChanged · .verified) ++
    taken.1.scanned.map .verificationCompleted ++ arrived.1 ++ invited.1,
    ⟨invited.2, arrived.2⟩)

/-- `announce`, with what `emit_crypto` answered for the invitation to each flow: one that
reached nobody is not held any longer. -/
def announce (heard : String → Bool) : Registry → List NativeCryptoSignal → Registry
  | flows, [] => flows
  | flows, .verificationRequested _ _ flowId :: signals =>
    announce heard (if heard flowId then flows else flows.forgetFlow flowId) signals
  | flows, _ :: signals => announce heard flows signals

/-- `announce_state_changes`, up to its delivery: nothing where nobody is subscribed as it
begins, and what was taken is lost where the machine has gone away. -/
def announceStateChanges (observed : Bool) (u : Upstream) (machine : Option MachineView)
    (starts : List (String × String)) (a : Announcer) : List NativeCryptoSignal × Announcer :=
  if !observed then ([], a)
  else
    match machine with
    | none => ([], { a with flows := (a.flows.takePendingCompletions u).2 })
    | some m => collect u m starts a

/-! ### Whose trust changed -/

theorem mem_changedUsers {devices : Devices} {completions : List (String × String)}
    {user : String} : user ∈ changedUsers devices completions ↔
      ∃ id, (user, id) ∈ completions ∧ devices.verified user id = true := by
  rw [changedUsers, List.mem_insertionSort, List.mem_dedup, List.mem_map]
  constructor
  · rintro ⟨⟨_, id⟩, hc, rfl⟩
    obtain ⟨hmem, hverified⟩ := List.mem_filter.mp hc
    exact ⟨id, hmem, hverified⟩
  · rintro ⟨id, hmem, hverified⟩
    exact ⟨(user, id), List.mem_filter.mpr ⟨hmem, hverified⟩, rfl⟩

theorem nodup_changedUsers (devices : Devices) (completions : List (String × String)) :
    (changedUsers devices completions).Nodup :=
  ((List.perm_insertionSort _ _).nodup_iff).mpr (List.nodup_dedup _)

/-- Registering announces invitations and nothing else. -/
theorem mem_registerAll {u : Upstream} {found : List Candidate} {signal : NativeCryptoSignal} :
    ∀ {flows : Registry}, signal ∈ (registerAll u flows found).1 →
      ∃ c ∈ found, signal = c.signal := by
  induction found with
  | nil =>
    intro flows h
    cases h
  | cons c found ih =>
    intro flows h
    rw [registerAll] at h
    split at h
    · rcases List.mem_cons.mp h with rfl | h
      · exact ⟨c, List.mem_cons_self, rfl⟩
      · obtain ⟨c', hc', hsignal⟩ := ih h
        exact ⟨c', List.mem_cons_of_mem _ hc', hsignal⟩
    · obtain ⟨c', hc', hsignal⟩ := ih h
      exact ⟨c', List.mem_cons_of_mem _ hc', hsignal⟩

theorem trustChanged_notMem_registerAll {u : Upstream} {found : List Candidate} {flows : Registry}
    {user : String} {state : NativeTrustState} :
    .trustChanged user state ∉ (registerAll u flows found).1 := by
  intro h
  obtain ⟨c, -, hsignal⟩ := mem_registerAll h
  cases hsignal

theorem mem_arrival {u : Upstream} {complete held : Bool} {signal : NativeCryptoSignal} :
    signal ∈ (arrival u complete held).1 ↔
      signal = .trustChanged u.userId .verified ∧ complete = true ∧ held = false := by
  cases complete <;> cases held <;> simp [arrival, notePrivateKeysHeld]

/-- What a pass says of a user's trust. -/
theorem mem_collect_trustChanged {u : Upstream} {m : MachineView}
    {starts : List (String × String)} {a : Announcer} {user : String}
    {state : NativeTrustState} :
    .trustChanged user state ∈ (collect u m starts a).1 ↔
      state = .verified ∧
        ((∃ id, (user, id) ∈ (a.flows.takePendingCompletions u).1.verified ∧
            m.devices.verified user id = true) ∨
          user = u.userId ∧ m.complete = true ∧ a.held = false) := by
  simp only [collect, List.mem_append, List.mem_map, mem_arrival, mem_changedUsers,
    trustChanged_notMem_registerAll, or_false, NativeCryptoSignal.trustChanged.injEq,
    reduceCtorEq, and_false, exists_false]
  constructor
  · rintro (⟨user, ⟨id, hmem, hverified⟩, rfl, rfl⟩ | ⟨⟨rfl, rfl⟩, hcomplete, hheld⟩)
    · exact ⟨rfl, Or.inl ⟨id, hmem, hverified⟩⟩
    · exact ⟨rfl, Or.inr ⟨rfl, hcomplete, hheld⟩⟩
  · rintro ⟨rfl, ⟨id, hmem, hverified⟩ | ⟨rfl, hcomplete, hheld⟩⟩
    · exact Or.inl ⟨user, ⟨id, hmem, hverified⟩, rfl, rfl⟩
    · exact Or.inr ⟨⟨rfl, rfl⟩, hcomplete, hheld⟩

/-- Where the store answers, the pass and the call read one map. -/
theorem Devices.Answer.verified_iff {devices : Devices} {user : String} {held : List Device}
    (h : devices.Answer user held) {isUserId : String → Bool} {statuses : List DeviceStatus}
    (hstatuses : deviceStatuses isUserId (some devices) user = .ok statuses) (id : String) :
    devices.verified user id = true ↔ ⟨id, .verified⟩ ∈ statuses := by
  obtain ⟨hheld, hnodup, hdevice⟩ := h
  rw [mem_deviceStatuses hheld hstatuses, Devices.verified, hdevice]
  constructor
  · intro hverified
    cases hfind : held.find? fun device => device.deviceId == id with
    | none => simp [hfind] at hverified
    | some device =>
      have hid : device.deviceId = id := by simpa using List.find?_some hfind
      have hdv : device.verified = true := by simpa [hfind] using hverified
      refine ⟨device, List.mem_of_find?_eq_some hfind, ?_⟩
      rw [Device.status, hid, hdv, if_pos rfl]
  · rintro ⟨device, hmem, hstatus⟩
    obtain ⟨hid, htrust⟩ := DeviceStatus.mk.inj hstatus
    have hfind : held.find? (fun device => device.deviceId == id) = some device := by
      cases hfind : held.find? fun device => device.deviceId == id with
      | none =>
        have := List.find?_eq_none.mp hfind device hmem
        simp [hid] at this
      | some other =>
        have hother : other.deviceId = id := by simpa using List.find?_some hfind
        have heq := List.inj_on_of_nodup_map hnodup (List.mem_of_find?_eq_some hfind) hmem
          (hother.trans hid.symm)
        rw [heq]
    rw [hfind]
    show device.verified = true
    by_contra hnot
    rw [if_neg hnot] at htrust
    cases htrust

/-- A pass names nobody else twice. -/
theorem count_collect_trustChanged {u : Upstream} {m : MachineView}
    {starts : List (String × String)} {a : Announcer} {user : String} (hother : user ≠ u.userId) :
    (collect u m starts a).1.count (.trustChanged user .verified) ≤ 1 := by
  have harrival : (arrival u m.complete a.held).1.count (.trustChanged user .verified) = 0 := by
    apply List.count_eq_zero.mpr
    intro h
    obtain ⟨heq, -⟩ := mem_arrival.mp h
    exact hother (NativeCryptoSignal.trustChanged.inj heq).1
  have hscanned : ∀ l : List String, (l.map NativeCryptoSignal.verificationCompleted).count
      (.trustChanged user .verified) = 0 := by
    intro l
    apply List.count_eq_zero.mpr
    intro h
    obtain ⟨id, -, hid⟩ := List.mem_map.mp h
    cases hid
  have hinvited : ∀ flows found, (registerAll u flows found).1.count
      (.trustChanged user .verified) = 0 := fun flows found =>
    List.count_eq_zero.mpr trustChanged_notMem_registerAll
  have hchanged : ∀ users : List String, users.Nodup →
      (users.map (NativeCryptoSignal.trustChanged · .verified)).count
        (.trustChanged user .verified) ≤ 1 := by
    intro users hnodup
    apply List.nodup_iff_count_le_one.mp
    refine hnodup.map ?_
    intro x y hxy
    exact (NativeCryptoSignal.trustChanged.inj hxy).1
  simp only [collect, List.count_append, harrival, hscanned, hinvited, Nat.add_zero]
  exact hchanged _ (nodup_changedUsers _ _)

/-- **The channel and the call agree about trust.**  Where the store answers for a user, a
pass says that the user's trust changed exactly if a comparison it takes the completion of
verified a device that `device_statuses` now shows as verified, or the user is this account
and its private keys have just arrived; it says so once of everybody else, and never of a
state the call does not return. -/
theorem trustChanged_iff {u : Upstream} {m : MachineView} {starts : List (String × String)}
    {a : Announcer} {user : String} {held : List Device} {isUserId : String → Bool}
    {statuses : List DeviceStatus} (hanswer : m.devices.Answer user held)
    (hstatuses : deviceStatuses isUserId (some m.devices) user = .ok statuses) :
    (∀ state, .trustChanged user state ∈ (announceStateChanges true u (some m) starts a).1 ↔
      state = .verified ∧
        ((∃ id, (user, id) ∈ (a.flows.takePendingCompletions u).1.verified ∧
            ⟨id, .verified⟩ ∈ statuses) ∨
          user = u.userId ∧ m.complete = true ∧ a.held = false)) ∧
      (user ≠ u.userId → (announceStateChanges true u (some m) starts a).1.count
        (.trustChanged user .verified) ≤ 1) ∧
      ∀ status ∈ statuses, status.trust ≠ .recognized := by
  refine ⟨?_, count_collect_trustChanged, ?_⟩
  · intro state
    rw [← exists_congr fun id => and_congr_right fun _ => hanswer.verified_iff hstatuses id]
    exact mem_collect_trustChanged
  · intro status hstatus
    obtain ⟨device, -, rfl⟩ := (mem_deviceStatuses hanswer.1 hstatuses status).mp hstatus
    unfold Device.status
    split
    · exact nofun
    · exact nofun

/-- A comparison with the user `b` has just finished, and verified a device of theirs. -/
def finishedComparison : Upstream where
  userId := "a"
  deviceId := "A"
  trackedUsers := []
  requestState := fun _ => .created
  sasState := fun _ => .done [("b", "B")]
  codeState := fun _ => .started
  getVerificationRequest := fun _ _ => none
  negotiated := fun _ => ([], [])
  hasCodeKeys := fun _ => true
  scanError := fun _ _ => none
  verifications := fun _ => ∅
  getVerificationRequests := fun _ => []

def finishedView : MachineView where
  devices :=
    ⟨fun _ => .ok [⟨"B", true⟩], fun _ id => .ok (([⟨"B", true⟩] : List Device).find?
      fun device => device.deviceId == id)⟩
  complete := false
  tracked := []

theorem trustChanged_iff_finished :
    .trustChanged "b" .verified ∈ (announceStateChanges true finishedComparison
      (some finishedView) [] ⟨OrdMap.empty.insert "f" (.fromComparison ⟨0, "f", "b", "B"⟩),
        false⟩).1 := by
  have hanswer : finishedView.devices.Answer "b" [⟨"B", true⟩] :=
    ⟨rfl, List.nodup_singleton _, fun _ => rfl⟩
  have hstatuses : deviceStatuses (fun _ => true) (some finishedView.devices) "b" =
      .ok [⟨"B", .verified⟩] := rfl
  refine ((trustChanged_iff hanswer hstatuses).1 .verified).mpr ⟨rfl, Or.inl ⟨"B", ?_, ?_⟩⟩
  · exact List.mem_singleton.mpr rfl
  · exact List.mem_singleton.mpr rfl

/-! ### Which flows are new -/

/-- The candidates whose flow is not known, the first of each flow. -/
def firstOf (known : String → Bool) : List Candidate → List Candidate
  | [] => []
  | c :: found =>
    if known c.flowId then firstOf known found
    else c :: firstOf (fun id => known id || id == c.flowId) found

theorem known_of_mem_firstOf {found : List Candidate} {c : Candidate} :
    ∀ {known : String → Bool}, c ∈ firstOf known found → known c.flowId = false ∧ c ∈ found := by
  induction found with
  | nil =>
    intro known h
    cases h
  | cons d found ih =>
    intro known h
    rw [firstOf] at h
    split at h
    · obtain ⟨hknown, hmem⟩ := ih h
      exact ⟨hknown, List.mem_cons_of_mem _ hmem⟩
    · next hd =>
      rcases List.mem_cons.mp h with rfl | h
      · exact ⟨by simpa using hd, List.mem_cons_self⟩
      · obtain ⟨hknown, hmem⟩ := ih h
        exact ⟨(Bool.or_eq_false_iff.mp hknown).1, List.mem_cons_of_mem _ hmem⟩

/-- Of every flow that is new the first stands for it. -/
theorem exists_mem_firstOf {found : List Candidate} {c : Candidate} :
    ∀ known : String → Bool, c ∈ found → known c.flowId = false →
      ∃ d ∈ firstOf known found, d.flowId = c.flowId := by
  induction found with
  | nil =>
    intro known hc
    cases hc
  | cons d found ih =>
    intro known hc hknown
    rw [firstOf]
    by_cases hd : c.flowId = d.flowId
    · rw [← hd, if_neg (by simp [hknown])]
      exact ⟨d, List.mem_cons_self, hd.symm⟩
    · have hmem : c ∈ found := by
        rcases List.mem_cons.mp hc with rfl | hmem
        · exact absurd rfl hd
        · exact hmem
      split
      · exact ih known hmem hknown
      · obtain ⟨e, he, heq⟩ := ih (fun id => known id || id == d.flowId) hmem
          (by rw [hknown, Bool.false_or]; exact beq_eq_false_iff_ne.mpr hd)
        exact ⟨e, List.mem_cons_of_mem _ he, heq⟩

/-- **Of the flows that were new before, those are new again that were forgotten**, in the
order they had. -/
theorem firstOf_forgotten {found : List Candidate} : ∀ known known' forgotten : String → Bool,
    (∀ id, forgotten id = true → known id = false) →
      (∀ c ∈ found, known' c.flowId = !forgotten c.flowId) →
        firstOf known' found = (firstOf known found).filter fun c => forgotten c.flowId := by
  induction found with
  | nil =>
    intro known known' forgotten _ _
    rfl
  | cons c found ih =>
    intro known known' forgotten hforgotten hknown'
    have hc := hknown' c List.mem_cons_self
    have htail : ∀ d ∈ found, known' d.flowId = !forgotten d.flowId :=
      fun d hd => hknown' d (List.mem_cons_of_mem _ hd)
    rw [firstOf, firstOf]
    by_cases hforg : forgotten c.flowId = true
    · -- it was new, and is forgotten: it comes first again
      rw [hforg] at hc
      rw [hc, hforgotten _ hforg, if_neg (by simp), if_neg (by simp),
        List.filter_cons_of_pos (by exact hforg)]
      congr 1
      -- from here on its flow is known to both
      rw [ih (fun id => known id || id == c.flowId) _
        (fun id => forgotten id && !(id == c.flowId))]
      · apply List.filter_congr
        intro d hd
        have hne := (Bool.or_eq_false_iff.mp (known_of_mem_firstOf hd).1).2
        rw [hne, Bool.not_false, Bool.and_true]
      · intro id hid
        obtain ⟨hid, hne⟩ := Bool.and_eq_true_iff.mp hid
        rw [hforgotten id hid, Bool.false_or]
        simpa using hne
      · intro d hd
        rw [htail d hd]
        cases forgotten d.flowId <;> cases d.flowId == c.flowId <;> rfl
    · have hforg : forgotten c.flowId = false := by simpa using hforg
      rw [hforg] at hc
      rw [hc, if_pos (by rfl)]
      cases hknown : known c.flowId with
      | true => exact ih _ _ _ hforgotten htail
      | false =>
        rw [if_neg (by simp), List.filter_cons_of_neg (by simp [hforg])]
        apply ih
        · intro id hid
          rw [hforgotten id hid, Bool.false_or, beq_eq_false_iff_ne]
          rintro rfl
          rw [hforg] at hid
          cases hid
        · exact htail

/-! ### The keys a pass finds and leaves -/

namespace Registry

/-- The registry holds a record under the id that a sweep keeps. -/
def keeps (flows : Registry) (u : Upstream) (id : String) : Bool :=
  (flows.get? id).any fun record => record.retained u true

/-- No completion is due. -/
def Settled (flows : Registry) (u : Upstream) : Prop :=
  ∀ id record, flows.get? id = some record → record.owesCompletion u = false

end Registry

namespace FlowRecord

variable {u : Upstream} {record filled : FlowRecord}

/-- Looking at a record changes nothing about its sweep. -/
theorem retained_lookedAt : (record.lookedAt u).retained u true = record.retained u true := by
  unfold retained
  rw [stageOf_lookedAt, filledFrom_lookedAt.requestIsOver, completionAnnounced_lookedAt,
    keyQueryQueued_lookedAt]

theorem owesCompletion_lookedAt :
    (record.lookedAt u).owesCompletion u = record.owesCompletion u := by
  unfold owesCompletion
  rw [stageOf_lookedAt, completionAnnounced_lookedAt]

/-- The pass leaves nothing due. -/
theorem owesCompletion_afterAnnouncing : (record.afterAnnouncing u).owesCompletion u = false := by
  unfold owesCompletion
  rw [filledFrom_afterAnnouncing.stageOf, completionAnnounced_afterAnnouncing]
  cases record.completionAnnounced <;> cases record.stageOf u <;> rfl

/-- A record nothing is due of goes through the pass as it is swept. -/
theorem retained_afterAnnouncing (h : record.owesCompletion u = false) :
    (record.afterAnnouncing u).retained u true = record.retained u true := by
  unfold afterAnnouncing
  split
  · rfl
  · next hannounced =>
    split
    · exact retained_lookedAt
    · next hdone =>
      rw [not_not] at hdone
      rw [owesCompletion, hdone, Bool.eq_false_iff.mpr hannounced] at h
      cases h

end FlowRecord

namespace Registry

variable {flows : Registry} {u : Upstream} {c : Candidate} {found : List Candidate}

theorem keeps_releaseFinished (id : String) :
    (flows.releaseFinished u true).keeps u id = flows.keeps u id := by
  unfold keeps
  rw [get?_releaseFinished]
  cases flows.get? id with
  | none => rfl
  | some record =>
    cases hret : record.retained u true with
    | true =>
      rw [Option.filter_some, if_pos hret, Option.map_some, Option.any_some, Option.any_some,
        FlowRecord.retained_lookedAt]
    | false =>
      rw [Option.filter_some, if_neg (by simp [hret]), Option.map_none, Option.any_none,
        Option.any_some, hret]

/-- Of what a sweep leaves, it would keep everything again. -/
theorem get?_releaseFinished_eq_none {id : String} :
    (flows.releaseFinished u true).get? id = none ↔ flows.keeps u id = false := by
  rw [get?_releaseFinished, Option.map_eq_none_iff]
  unfold keeps
  cases flows.get? id with
  | none => simp
  | some record => simp [Option.filter_some]

theorem Settled.releaseFinished (h : flows.Settled u) :
    (flows.releaseFinished u true).Settled u := by
  intro id record hget
  obtain ⟨before, hbefore, rfl, -⟩ := of_get?_releaseFinished hget
  rw [FlowRecord.owesCompletion_lookedAt]
  exact h id before hbefore

theorem owesCompletion_of_live {record : FlowRecord} (h : record.Live u) :
    record.owesCompletion u = false := by
  have hstage := h.stage
  unfold FlowRecord.owesCompletion
  cases hs : record.stageOf u with
  | done =>
    rw [hs] at hstage
    cases hstage
  | _ => exact Bool.and_false _

/-- A flow is announced where the registry holds no record of it that a sweep keeps, and
holds one from then on. -/
theorem registerIfAbsent_spec (flows : Registry) (hlive : c.record.Live u) :
    (flows.registerIfAbsent u true c.flowId c.record).1 = (!flows.keeps u c.flowId) ∧
      (∀ id, (flows.registerIfAbsent u true c.flowId c.record).2.keeps u id =
        (flows.keeps u id || id == c.flowId)) ∧
      (flows.Settled u → (flows.registerIfAbsent u true c.flowId c.record).2.Settled u) := by
  cases hget : (flows.releaseFinished u true).get? c.flowId with
  | some held =>
    have hkeeps : flows.keeps u c.flowId = true := by
      by_contra hnot
      have hnone := get?_releaseFinished_eq_none.mpr (Bool.eq_false_iff.mpr hnot)
      rw [hget] at hnone
      cases hnone
    rw [registerIfAbsent_of_some hget]
    refine ⟨by rw [hkeeps]; rfl, ?_, Settled.releaseFinished⟩
    intro id
    show (flows.releaseFinished u true).keeps u id = _
    rw [keeps_releaseFinished]
    by_cases hid : id = c.flowId
    · rw [hid, hkeeps, Bool.true_or]
    · rw [beq_eq_false_iff_ne.mpr hid, Bool.or_false]
  | none =>
    have hkeeps : flows.keeps u c.flowId = false := get?_releaseFinished_eq_none.mp hget
    rw [registerIfAbsent_of_none hget]
    refine ⟨by rw [hkeeps]; rfl, ?_, ?_⟩
    · intro id
      by_cases hid : id = c.flowId
      · rw [hid, beq_self_eq_true, Bool.or_true]
        unfold keeps
        rw [OrdMap.get?_insert_self, Option.any_some]
        exact FlowRecord.retained_iff.mpr (Or.inl hlive)
      · have hsame : (flows.releaseFinished u true).keeps u id = flows.keeps u id :=
          keeps_releaseFinished id
        unfold keeps at hsame ⊢
        rw [beq_eq_false_iff_ne.mpr hid, Bool.or_false, OrdMap.get?_insert, if_neg hid]
        exact hsame
    · intro hsettled id record hrecord
      rw [OrdMap.get?_insert] at hrecord
      split at hrecord
      · cases hrecord
        exact owesCompletion_of_live hlive
      · exact hsettled.releaseFinished id record hrecord

/-- **Registering one after the other**: announced is the first of every flow that was not
held, and all are held from then on. -/
theorem registerAll_spec : ∀ (flows : Registry) (known : String → Bool),
    (∀ c ∈ found, c.record.Live u) → (∀ id, flows.keeps u id = known id) →
      (registerAll u flows found).1 = (firstOf known found).map Candidate.signal ∧
        (∀ id, (registerAll u flows found).2.keeps u id =
          (known id || found.any fun c => c.flowId == id)) ∧
        (flows.Settled u → (registerAll u flows found).2.Settled u) := by
  induction found with
  | nil =>
    intro flows known _ hknown
    refine ⟨rfl, ?_, fun h => h⟩
    intro id
    rw [List.any_nil, Bool.or_false]
    exact hknown id
  | cons c found ih =>
    intro flows known hlive hknown
    obtain ⟨hnew, hkeeps, hsettled⟩ := registerIfAbsent_spec flows (hlive c List.mem_cons_self)
    obtain ⟨hsignals, hkept, hsettles⟩ :=
      ih (flows.registerIfAbsent u true c.flowId c.record).2
        (fun id => known id || id == c.flowId)
        (fun d hd => hlive d (List.mem_cons_of_mem _ hd))
        (fun id => by rw [hkeeps, hknown])
    refine ⟨?_, ?_, fun h => hsettles (hsettled h)⟩
    · rw [registerAll, firstOf]
      simp only [hnew, hknown, hsignals]
      cases hc : known c.flowId with
      | false => rfl
      | true =>
        -- a flow that is known already makes no other known
        have hsame : (fun id => known id || id == c.flowId) = known := by
          funext id
          by_cases hid : id = c.flowId
          · rw [hid, hc, Bool.true_or]
          · rw [beq_eq_false_iff_ne.mpr hid, Bool.or_false]
        rw [hsame]
        rfl
    · intro id
      rw [registerAll, List.any_cons]
      simp only [hkept]
      rw [Bool.or_assoc, Bool.beq_comm]

/-- The completions are taken, and what a sweep keeps of the rest is the same where none was
due. -/
theorem takePendingCompletions_settled : (flows.takePendingCompletions u).2.Settled u := by
  intro id record hget
  unfold takePendingCompletions at hget
  rw [OrdMap.get?_mapValues, Option.map_eq_some_iff] at hget
  obtain ⟨before, -, rfl⟩ := hget
  exact FlowRecord.owesCompletion_afterAnnouncing

theorem Settled.takePendingCompletions (h : flows.Settled u) :
    (flows.takePendingCompletions u).1 = ⟨[], []⟩ ∧
      ∀ id, (flows.takePendingCompletions u).2.keeps u id = flows.keeps u id := by
  constructor
  · have hdue : (flows.filter fun _ record => record.owesCompletion u).entries = [] := by
      apply List.filter_eq_nil_iff.mpr
      intro e he
      have howes := h e.1 e.2 (OrdMap.get?_eq_some.mpr he)
      exact Bool.eq_false_iff.mp howes
    unfold Registry.takePendingCompletions
    rw [hdue]
    rfl
  · intro id
    unfold Registry.takePendingCompletions keeps
    rw [OrdMap.get?_mapValues, Option.any_map]
    cases hget : flows.get? id with
    | none => rfl
    | some record => exact FlowRecord.retained_afterAnnouncing (h id record hget)

/-- Forgetting is of one flow. -/
theorem keeps_forgetFlow (flowId id : String) :
    (flows.forgetFlow flowId).keeps u id = (flows.keeps u id && !(id == flowId)) := by
  unfold keeps
  rw [forgetFlow, OrdMap.get?_erase]
  by_cases hid : id = flowId
  · rw [if_pos hid, hid, beq_self_eq_true]
    exact (Bool.and_false _).symm
  · rw [if_neg hid, beq_eq_false_iff_ne.mpr hid, Bool.not_false, Bool.and_true]

theorem Settled.forgetFlow (h : flows.Settled u) (flowId : String) :
    (flows.forgetFlow flowId).Settled u := by
  intro id record hget
  rw [Registry.forgetFlow, OrdMap.get?_erase] at hget
  split at hget
  · cases hget
  · exact h id record hget

end Registry

/-! ### The pass after -/

/-- Every candidate is of a flow that is under way. -/
theorem live_announceable {u : Upstream} {tracked : List String} {c : Candidate}
    (h : c ∈ announceable u tracked) : c.record.Live u := by
  unfold announceable at h
  obtain ⟨user, -, h⟩ := List.mem_flatMap.mp h
  obtain ⟨request, -, h⟩ := List.mem_filterMap.mp h
  cases hstate : u.requestState request with
  | requested otherDeviceId =>
    rw [hstate] at h
    cases h
    have hbecame : (FlowRecord.fromRequest request).became u = none := by
      simp [FlowRecord.became, FlowRecord.fromRequest, hstate]
    constructor
    · unfold FlowRecord.stageOf
      rw [FlowRecord.comparisonOf_eq, FlowRecord.codeOf_eq, hbecame]
      simp [FlowRecord.fromRequest, hstate, stageOfRequest, isFinished]
    · simp [FlowRecord.requestIsOver, FlowRecord.fromRequest, hstate,
        VerificationRequestState.isFinal]
  | _ =>
    rw [hstate] at h
    cases h

theorem live_bareStarts {u : Upstream} {starts : List (String × String)} {c : Candidate}
    (h : c ∈ bareStarts u starts) : c.record.Live u := by
  obtain ⟨start, -, h⟩ := List.mem_filterMap.mp h
  unfold bareStart at h
  split at h
  · cases h
  · split at h
    · cases h
    · split at h
      · cases h
      · next hunfinished =>
        cases h
        exact ⟨by simpa using hunfinished, rfl⟩

theorem live_found {u : Upstream} {m : MachineView} {starts : List (String × String)}
    {c : Candidate} (h : c ∈ m.found u starts) : c.record.Live u := by
  rcases List.mem_append.mp h with h | h
  · exact live_announceable h
  · exact live_bareStarts h

/-- The flow an announced invitation is to. -/
def NativeCryptoSignal.invites : NativeCryptoSignal → Option String
  | verificationRequested _ _ flowId => some flowId
  | _ => none

/-- The signal is an invitation, and reached nobody. -/
def NativeCryptoSignal.unheard (heard : String → Bool) (signal : NativeCryptoSignal) : Bool :=
  signal.invites.any fun flowId => !heard flowId

/-- What is forgotten is what reached nobody. -/
theorem keeps_announce {u : Upstream} {heard : String → Bool} {signals : List NativeCryptoSignal} :
    ∀ flows : Registry, (flows.Settled u → (announce heard flows signals).Settled u) ∧
      ∀ id, (announce heard flows signals).keeps u id = (flows.keeps u id &&
        !signals.any fun s => s.unheard heard && s.invites == some id) := by
  induction signals with
  | nil =>
    intro flows
    exact ⟨fun h => h, fun id => (Bool.and_true _).symm⟩
  | cons signal signals ih =>
    intro flows
    cases signal with
    | verificationRequested user deviceId flowId =>
      rw [announce]
      cases hheard : heard flowId with
      | true =>
        obtain ⟨hsettled, hkeeps⟩ := ih flows
        refine ⟨hsettled, ?_⟩
        intro id
        rw [if_pos rfl, hkeeps, List.any_cons]
        simp [NativeCryptoSignal.unheard, NativeCryptoSignal.invites, hheard]
      | false =>
        obtain ⟨hsettled, hkeeps⟩ := ih (flows.forgetFlow flowId)
        refine ⟨fun h => hsettled (h.forgetFlow flowId), ?_⟩
        intro id
        rw [if_neg (by simp), hkeeps, Registry.keeps_forgetFlow, List.any_cons, Bool.and_assoc]
        simp [NativeCryptoSignal.unheard, NativeCryptoSignal.invites, hheard,
          Bool.beq_comm (a := flowId)]
    | trustChanged user state => exact ih flows
    | verificationCompleted flowId => exact ih flows

/-- The flows a pass finds known. -/
def Announcer.known (a : Announcer) (u : Upstream) (id : String) : Bool :=
  (a.flows.takePendingCompletions u).2.keeps u id

section

variable (u : Upstream) (m : MachineView) (starts : List (String × String)) (a : Announcer)
  (heard : String → Bool)

/-- A pass ends with the invitations to the flows that were not known, and there is none among
the rest. -/
theorem exists_collect_eq :
    ∃ others, (collect u m starts a).1 =
        others ++ (firstOf (a.known u) (m.found u starts)).map Candidate.signal ∧
      ∀ signal ∈ others, signal.invites = none := by
  rw [← (Registry.registerAll_spec (a.flows.takePendingCompletions u).2 (a.known u)
    (fun c hc => live_found hc) fun id => rfl).1]
  refine ⟨_, rfl, ?_⟩
  intro signal hsignal
  rcases List.mem_append.mp hsignal with hsignal | hsignal
  · rcases List.mem_append.mp hsignal with hsignal | hsignal
    · obtain ⟨user, -, rfl⟩ := List.mem_map.mp hsignal
      rfl
    · obtain ⟨id, -, rfl⟩ := List.mem_map.mp hsignal
      rfl
  · obtain ⟨rfl, -⟩ := mem_arrival.mp hsignal
    rfl

/-- Unheard are invitations. -/
theorem filter_unheard_collect : (collect u m starts a).1.filter (fun s => s.unheard heard) =
    ((firstOf (a.known u) (m.found u starts)).filter fun c => !heard c.flowId).map
      Candidate.signal := by
  obtain ⟨others, heq, hnone⟩ := exists_collect_eq u m starts a
  have hnil : others.filter (fun s => s.unheard heard) = [] := by
    apply List.filter_eq_nil_iff.mpr
    intro s hs
    rw [NativeCryptoSignal.unheard, hnone s hs]
    exact Bool.false_ne_true
  rw [heq, List.filter_append, hnil, List.nil_append, List.filter_map]
  rfl

/-- The flow was new to the pass, and its invitation reached nobody. -/
def Announcer.forgets (id : String) : Bool :=
  (firstOf (a.known u) (m.found u starts)).any fun c => !heard c.flowId && some c.flowId == some id

theorem any_unheard_collect (id : String) :
    ((collect u m starts a).1.any fun s => s.unheard heard && s.invites == some id) =
      a.forgets u m starts heard id := by
  obtain ⟨others, heq, hnone⟩ := exists_collect_eq u m starts a
  have hfalse : (others.any fun s => s.unheard heard && s.invites == some id) = false := by
    apply List.any_eq_false.mpr
    intro s hs
    rw [NativeCryptoSignal.unheard, hnone s hs]
    simp
  rw [heq, List.any_append, hfalse, Bool.false_or, List.any_map]
  rfl

/-- What a pass and its delivery leave. -/
def Announcer.delivered : Announcer :=
  let first := announceStateChanges true u (some m) starts a
  { first.2 with flows := announce heard first.2.flows first.1 }

/-- After a pass no completion is due, and it knows of its own flows but for those it took
back. -/
theorem delivered_spec : (a.delivered u m starts heard).flows.Settled u ∧
    (m.complete = true → (a.delivered u m starts heard).held = true) ∧
      ∀ id, (a.delivered u m starts heard).known u id =
        ((a.known u id || (m.found u starts).any fun c => c.flowId == id) &&
          !a.forgets u m starts heard id) := by
  obtain ⟨-, hkeeps, hsettled⟩ := Registry.registerAll_spec
    (a.flows.takePendingCompletions u).2 (a.known u) (fun c hc => live_found hc) fun id => rfl
  obtain ⟨hsettles, hforgets⟩ := keeps_announce (u := u) (collect u m starts a).2.flows
  have htold : (a.delivered u m starts heard).flows.Settled u :=
    hsettles (hsettled Registry.takePendingCompletions_settled)
  refine ⟨htold, ?_, ?_⟩
  · intro hcomplete
    simp [Announcer.delivered, announceStateChanges, collect, arrival, notePrivateKeysHeld,
      hcomplete]
  · intro id
    rw [← any_unheard_collect, ← hkeeps]
    exact (htold.takePendingCompletions.2 id).trans (hforgets id)

/-- A pass that finds no completion due and the keys noted announces invitations only. -/
theorem collect_settled (h : a.flows.Settled u) (hheld : m.complete = true → a.held = true) :
    (collect u m starts a).1 =
      (firstOf (a.known u) (m.found u starts)).map Candidate.signal := by
  have harrival : (arrival u m.complete a.held).1 = [] := by
    apply List.eq_nil_iff_forall_not_mem.mpr
    intro signal hsignal
    obtain ⟨-, hcomplete, hnot⟩ := mem_arrival.mp hsignal
    rw [hheld hcomplete] at hnot
    cases hnot
  rw [← (Registry.registerAll_spec (a.flows.takePendingCompletions u).2 (a.known u)
    (fun c hc => live_found hc) fun id => rfl).1, collect, h.takePendingCompletions.1, harrival]
  rfl

end

/-- Of a flow that was new, the first pass announced the first that stands for it. -/
theorem forgets_of_new {u : Upstream} {m : MachineView} {starts : List (String × String)}
    {a : Announcer} {heard : String → Bool} {c : Candidate} (hc : c ∈ m.found u starts)
    (hnew : a.known u c.flowId = false) :
    a.forgets u m starts heard c.flowId = !heard c.flowId := by
  obtain ⟨d, hd, hflow⟩ := exists_mem_firstOf (a.known u) hc hnew
  rw [Announcer.forgets, Bool.eq_iff_iff, List.any_eq_true]
  constructor
  · rintro ⟨e, -, he⟩
    obtain ⟨hheard, heq⟩ := Bool.and_eq_true_iff.mp he
    have heq : e.flowId = c.flowId := by simpa using heq
    rw [← heq]
    exact hheard
  · intro hheard
    refine ⟨d, hd, ?_⟩
    rw [hflow, hheard, Bool.true_and]
    exact beq_self_eq_true _

/-- The flows whose invitation reached nobody were new to the pass. -/
theorem some_mem_invites_unheard (u : Upstream) (m : MachineView) (starts : List (String × String))
    (a : Announcer) (heard : String → Bool) (id : String) :
    some id ∈ ((collect u m starts a).1.filter fun s => s.unheard heard).map
        NativeCryptoSignal.invites ↔
      a.known u id = false ∧ heard id = false ∧
        id ∈ (m.found u starts).map Candidate.flowId := by
  rw [filter_unheard_collect, List.map_map, List.mem_map, List.mem_map]
  constructor
  · rintro ⟨c, hc, hid⟩
    obtain rfl : c.flowId = id := Option.some.inj hid
    obtain ⟨hfirst, hheard⟩ := List.mem_filter.mp hc
    obtain ⟨hnew, hmem⟩ := known_of_mem_firstOf hfirst
    exact ⟨hnew, by simpa using hheard, c, hmem, rfl⟩
  · rintro ⟨hnew, hheard, c, hmem, rfl⟩
    obtain ⟨d, hd, hflow⟩ := exists_mem_firstOf (a.known u) hmem hnew
    refine ⟨d, List.mem_filter.mpr ⟨hd, ?_⟩, congrArg some hflow⟩
    rw [hflow, hheard]
    rfl

/-- **The next pass tells what reached nobody, and of that the invitations alone.**  Where
the machine reads as it did and the sync carries no start event the sync before did not, the
second pass announces what it would have announced in the place of the first, as far as it is
invitations that nobody heard: to the flows whose invitation in the first reached nobody, of
requests and of starts that the second sync carries again.  No change of trust, no completion
and no arrival is told a second time, and nothing at all where everything was heard. -/
theorem announceStateChanges_again (u : Upstream) (m : MachineView)
    (starts again : List (String × String)) (a : Announcer) (heard : String → Bool)
    (hagain : again ⊆ starts) :
    (announceStateChanges true u (some m) again (a.delivered u m starts heard)).1 =
        ((announceStateChanges true u (some m) again a).1.filter fun s => s.unheard heard) ∧
      ∀ id, some id ∈ (announceStateChanges true u (some m) again
            (a.delivered u m starts heard)).1.map NativeCryptoSignal.invites ↔
          some id ∈ ((announceStateChanges true u (some m) starts a).1.filter
              fun s => s.unheard heard).map NativeCryptoSignal.invites ∧
            id ∈ (m.found u again).map Candidate.flowId := by
  have hsub : ∀ c ∈ m.found u again, c ∈ m.found u starts := by
    intro c hc
    rcases List.mem_append.mp hc with hc | hc
    · exact List.mem_append_left _ hc
    · obtain ⟨start, hstart, hbare⟩ := List.mem_filterMap.mp hc
      exact List.mem_append_right _ (List.mem_filterMap.mpr ⟨start, hagain hstart, hbare⟩)
  obtain ⟨hsettled, hheld, hknown⟩ := delivered_spec u m starts a heard
  -- what is new to the second pass was new to the first, and forgotten
  have hnew : firstOf ((a.delivered u m starts heard).known u) (m.found u again) =
      (firstOf (a.known u) (m.found u again)).filter fun c =>
        a.forgets u m starts heard c.flowId := by
    apply firstOf_forgotten
    · intro id hid
      obtain ⟨c, hc, heq⟩ := List.any_eq_true.mp hid
      have hflow : c.flowId = id := by simpa using (Bool.and_eq_true_iff.mp heq).2
      rw [← hflow]
      exact (known_of_mem_firstOf hc).1
    · intro c hc
      have hany : ((m.found u starts).any fun d => d.flowId == c.flowId) = true :=
        List.any_eq_true.mpr ⟨c, hsub c hc, beq_self_eq_true _⟩
      rw [hknown, hany, Bool.or_true, Bool.true_and]
  have hsecond : (collect u m again (a.delivered u m starts heard)).1 =
      (collect u m again a).1.filter fun s => s.unheard heard := by
    rw [collect_settled _ _ _ _ hsettled hheld, filter_unheard_collect, hnew]
    congr 1
    apply List.filter_congr
    intro c hc
    obtain ⟨hnot, hmem⟩ := known_of_mem_firstOf hc
    exact forgets_of_new (hsub c hmem) hnot
  refine ⟨hsecond, ?_⟩
  intro id
  show some id ∈ (collect u m again (a.delivered u m starts heard)).1.map _ ↔
    some id ∈ ((collect u m starts a).1.filter _).map _ ∧ _
  rw [hsecond, some_mem_invites_unheard, some_mem_invites_unheard]
  constructor
  · rintro ⟨hnot, hheard, hmem⟩
    obtain ⟨c, hc, hid⟩ := List.mem_map.mp hmem
    exact ⟨⟨hnot, hheard, List.mem_map.mpr ⟨c, hsub c hc, hid⟩⟩, hmem⟩
  · rintro ⟨⟨hnot, hheard, -⟩, hmem⟩
    exact ⟨hnot, hheard, hmem⟩

/-- The user `b` asks for one flow, and has started a comparison in another without asking. -/
def askedAndStarted : Upstream where
  userId := "a"
  deviceId := "A"
  trackedUsers := ["b"]
  requestState := fun _ => .requested "B"
  sasState := fun _ => .started
  codeState := fun _ => .started
  getVerificationRequest := fun _ _ => none
  negotiated := fun _ => ([], [])
  hasCodeKeys := fun _ => true
  scanError := fun _ _ => none
  verifications := fun _ => OrdMap.empty.insert "g" (.sas ⟨0, "g", "b", "B"⟩)
  getVerificationRequests := fun user => [⟨0, "f", user⟩]

/-- Nobody hears of the two invitations, and the next sync carries no start: the flow that was
asked for is told again, and the other is not. -/
theorem announceStateChanges_again_unheard :
    (announceStateChanges true askedAndStarted (some { finishedView with tracked := ["b"] })
        [("b", "g")] ⟨OrdMap.empty, false⟩).1 =
          [.verificationRequested "b" "B" "f", .verificationRequested "b" "B" "g"] ∧
      (announceStateChanges true askedAndStarted (some { finishedView with tracked := ["b"] }) []
        (Announcer.delivered askedAndStarted { finishedView with tracked := ["b"] } [("b", "g")]
          ⟨OrdMap.empty, false⟩ fun _ => false)).1 = [.verificationRequested "b" "B" "f"] := by
  constructor
  · decide
  · refine (announceStateChanges_again askedAndStarted { finishedView with tracked := ["b"] }
      [("b", "g")] [] _ (fun _ => false) (List.nil_subset _)).1.trans ?_
    decide

end MatrixCrypto
