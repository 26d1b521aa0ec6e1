import MatrixCrypto.Backup.Batches

/-!
# One batch at a time

A batch stays in the registry under its id until it is marked sent, and nothing evicts
it.  Whether there can be two depends on upstream, whose one slot an enable of another
version, a disable and the trip of a report all empty, and on the drains in flight.

## Main definitions

* `RequestState.BatchPending`, `RequestState.OneBatchPending` — the batches handed out
  and not yet resolved.
* `BackupCall.Carrying`, `BatchOut` — a batch between its trip and its resolution.
* `handingOut` — the interleavings in which every other call only queues.
* `LeavesSlot` — no call takes the batch that is out from upstream's slot and leaves it out.
* `InSlot` — what is out is what the slot holds, or is about to be resolved.

## Main results

* `inSlot_step` — **what is out is what the slot holds**, whatever else the calls do.
* `oneBatchPending_of_leavesSlot` — the registry holds at most one batch.
* `two_batches_pending` — a run that leaves two, over an enable of another version.
-/

namespace MatrixCrypto

open Lib

/-! ### Where a batch is -/

/-- The id is a batch handed out and not yet resolved. -/
def RequestState.BatchPending (s : RequestState) (id : String) : Prop :=
  ∃ entry, s.pending.get? id = some entry ∧ entry.kind = .roomKeyBackup

/-- `pending` holds at most one entry of that kind. -/
def RequestState.OneBatchPending (s : RequestState) : Prop :=
  ∀ i j, s.BatchPending i → s.BatchPending j → i = j

/-- A drain holds the batch: it was offered in its trip, and its section is to come. -/
def BackupCall.Carrying : BackupCall → String → Prop
  | .taking prepared, id => ∃ f ∈ prepared, f.kind = .roomKeyBackup ∧ f.id = id
  | _, _ => False

/-- The batch was offered to a drain and is not resolved. -/
def BatchOut {K : Type} (p : Pool (BackupProcess K) BackupCall) (id : String) : Prop :=
  p.shared.requests.BatchPending id ∨ ∃ c ∈ p.calls, c.Carrying id

/-- Every other call that writes to the registry only queues. -/
def OthersQueue {K : Type} (p : Pool (BackupProcess K) BackupCall) : BackupEvent → Prop
  | .world (.registers requests) => requests.pending = p.shared.requests.pending
  | _ => True

/-- The five calls, with every other call only queueing. -/
def handingOut {K : Type} (S : Sealing K) (P : Parsers) (account : String) :
    TransitionSystem (Pool (BackupProcess K) BackupCall) BackupEvent :=
  (backingUp S P account).restrict OthersQueue

/-- No call takes the batch that is out from upstream's slot and leaves it out: another version is
enabled, and the backup disabled, while none is; a report of it is taken while no drain is on its
way with it; and no drain takes its trip before that report's section. -/
structure LeavesSlot {K : Type} (p : Pool (BackupProcess K) BackupCall) (e : BackupEvent) :
    Prop where
  enables : ∀ sealingKey version current r, e = .section (.enable sealingKey version) r →
    p.shared.machine.backupVersion = some current → current ≠ version → ∀ id, ¬ BatchOut p id
  disables : ∀ r, e = .section .disable r → ∀ id, ¬ BatchOut p id
  reports : ∀ id body r, e = .section (.marking id body .roomKeyBackup) r →
    ∀ c ∈ p.calls, ¬ c.Carrying id
  drains : ∀ r, e = .section .take r → ∀ id answer, .settling id answer ∈ p.calls →
    ¬ BatchOut p id

/-! ### What a section does to it -/

section

variable {K : Type} {S : Sealing K} {P : Parsers} {account : String}

/-- What a drain leaves pending as a batch was pending, or was offered in its trip. -/
theorem RequestState.batchPending_takeSection {s : RequestState} {prepared : List Fresh}
    {id : String} (h : (s.takeSection account prepared).2.BatchPending id) :
    s.BatchPending id ∨ (BackupCall.taking prepared).Carrying id := by
  obtain ⟨entry, hget, hkind⟩ := h
  cases hout : (s.takeSection account prepared).1 with
  | error e =>
    rw [takeSection_error hout] at hget
    exact Or.inl ⟨entry, hget, hkind⟩
  | ok out =>
    obtain ⟨fresh, hfresh, -, hs⟩ := takeSection_ok hout
    rw [hs] at hget
    rcases get?_record _ hget with ⟨e, he, rfl, rfl⟩ | ⟨hold, -⟩
    · -- recorded by this section: nothing that waits in a queue is a backup
      obtain ⟨f, hf, hid, hfkind, -⟩ := mem_stamp (mem_handOut.mp he)
      have hbackup : f.kind = .roomKeyBackup := hfkind.trans hkind
      rcases (mem_collect hfresh f).mp hf with hprepared | hwaits
      · exact Or.inr ⟨f, hprepared, hbackup, hid⟩
      · exact absurd hbackup hwaits.ne_roomKeyBackup
    · exact Or.inl ⟨entry, get?_evict hold, hkind⟩

theorem RequestState.batchPending_settle {s : RequestState} {answer : AnswerAboutAccount}
    {id' id : String} (h : (s.settle id' answer).BatchPending id) :
    s.BatchPending id ∧ id ≠ id' := by
  obtain ⟨entry, hget, hkind⟩ := h
  rw [settle_pending, OrdMap.get?_erase] at hget
  split at hget
  · cases hget
  · next hne => exact ⟨⟨entry, hget, hkind⟩, hne⟩

/-- **What is out after a section was out, or was offered in it.** -/
theorem batchOut_next {s t : BackupProcess K} {c : BackupCall} {r : BackupCall ⊕ BackupResult}
    (hnext : BackupNext S P account s c t r) :
    (∀ id, t.requests.BatchPending id → s.requests.BatchPending id ∨ c.Carrying id) ∧
      ∀ d ∈ remaining r, ∀ id, d.Carrying id → c = .take := by
  cases hnext with
  | takeTrip hbuilt h => exact ⟨fun _ h => Or.inl h, fun _ _ _ _ => rfl⟩
  | takeSection =>
    refine ⟨fun id h => ?_, by simp⟩
    exact RequestState.batchPending_takeSection h
  | markLookup hp hr =>
    refine ⟨fun _ h => Or.inl h, fun d hd id h => ?_⟩
    rw [remaining_inl, List.mem_singleton] at hd
    subst hd
    cases h
  | markTrip h =>
    refine ⟨fun _ h => Or.inl h, fun d hd id h => ?_⟩
    rw [remaining_inl, List.mem_singleton] at hd
    subst hd
    cases h
  | markSection =>
    refine ⟨fun id h => Or.inl ?_, by simp⟩
    exact (RequestState.batchPending_settle h).1
  | _ => exact ⟨fun _ h => Or.inl h, by simp⟩

/-- One drain's trip offers at most one batch. -/
theorem carrying_pending {s t : BackupProcess K} {c : BackupCall}
    (hnext : BackupNext S P account s .take t (.inl c)) {id : String} (hid : c.Carrying id) :
    ∃ b, t.machine.pendingBackup = some b ∧ b.requestId = id := by
  generalize hr : (.inl c : BackupCall ⊕ BackupResult) = r at hnext
  cases hnext with
  | takeTrip hbuilt h =>
    obtain rfl := Sum.inl.inj hr
    obtain ⟨f, hf, hfkind, rfl⟩ := hid
    obtain ⟨-, b, hb, hbf, -⟩ := exists_pending_of_prepared h hf hfkind
    exact ⟨b, hb, hbf⟩
  | _ => cases hr

/-- **What is out after a step was out before**, or it is what the step's own drain was offered. -/
theorem batchOut_step {p q : Pool (BackupProcess K) BackupCall} {e : BackupEvent}
    (hstep : (handingOut S P account).step p e q) {id : String} (hid : BatchOut q id) :
    BatchOut p id ∨ (∃ r, e = .section .take r) ∧
      ∃ b, q.shared.machine.pendingBackup = some b ∧ b.requestId = id := by
  obtain ⟨hqueue, hstep⟩ := hstep
  cases e with
  | start c =>
    obtain ⟨hstart, rfl⟩ := hstep
    -- a call that begins holds nothing yet
    rcases hid with hid | ⟨d, hd, hcarry⟩
    · exact Or.inl (Or.inl hid)
    · rcases List.mem_append.mp hd with hd | hd
      · exact Or.inl (Or.inr ⟨d, hd, hcarry⟩)
      · rw [List.mem_singleton] at hd
        subst hd
        cases hstart <;> cases hcarry
  | world move =>
    obtain ⟨hmove, hcalls⟩ := hstep
    have hpending : q.shared.requests.pending = p.shared.requests.pending := by
      rw [show q.shared = p.shared.moved move from hmove]
      cases move with
      | registers requests => exact hqueue
      | _ => rfl
    left
    unfold BatchOut RequestState.BatchPending at hid ⊢
    rwa [hpending, hcalls] at hid
  | «section» c r =>
    have hcame : ∀ d ∈ q.calls, d ∈ p.calls ∨ d ∈ remaining r := fun _ =>
      Calls.mem_of_section hstep
    obtain ⟨before, after, hsplit, hnext, -⟩ := hstep
    obtain ⟨hpending, hcarry⟩ := batchOut_next hnext
    rcases hid with hid | ⟨d, hd, hid⟩
    · rcases hpending id hid with hid | hid
      · exact Or.inl (Or.inl hid)
      · exact Or.inl (Or.inr ⟨c, Calls.mem_of_split hsplit, hid⟩)
    · rcases hcame d hd with hd | hd
      · exact Or.inl (Or.inr ⟨d, hd, hid⟩)
      · cases r with
        | inl d' =>
          rw [remaining_inl, List.mem_singleton] at hd
          subst hd
          obtain rfl := hcarry d (by simp) id hid
          exact Or.inr ⟨⟨_, rfl⟩, carrying_pending hnext hid⟩
        | inr _ => simp at hd

/-! ### The slot -/

/-- **What is out is what the slot holds**; while the slot is empty, at most one batch is out, its
report was taken and is about to resolve it, and no drain is on its way with it. -/
structure InSlot (p : Pool (BackupProcess K) BackupCall) : Prop where
  one : ∀ i j, BatchOut p i → BatchOut p j → i = j
  held : ∀ b, p.shared.machine.pendingBackup = some b → ∀ id, BatchOut p id → id = b.requestId
  resolving : p.shared.machine.pendingBackup = none → ∀ id, BatchOut p id →
    (∃ answer, .settling id answer ∈ p.calls) ∧ ∀ c ∈ p.calls, ¬ c.Carrying id

namespace InSlot

variable {p q : Pool (BackupProcess K) BackupCall} {e : BackupEvent}

theorem of_none (h : ∀ id, ¬ BatchOut q id) : InSlot q where
  one := fun i _ hi => absurd hi (h i)
  held := fun _ _ id hid => absurd hid (h id)
  resolving := fun _ id hid => absurd hid (h id)

/-- What is out is what the slot came to hold. -/
theorem of_held {b : PendingBackup} (hb : q.shared.machine.pendingBackup = some b)
    (h : ∀ id, BatchOut q id → id = b.requestId) : InSlot q where
  one := fun i j hi hj => (h i hi).trans (h j hj).symm
  held := by
    intro b' hb' id hid
    obtain rfl := Option.some.inj (hb.symm.trans hb')
    exact h id hid
  resolving := by
    intro hnone
    rw [hb] at hnone
    cases hnone

/-- A step that leaves the slot, and offers nothing, resolves what it resolves. -/
theorem keeps (h : InSlot p)
    (hslot : q.shared.machine.pendingBackup = p.shared.machine.pendingBackup)
    (hout : ∀ id, BatchOut q id → BatchOut p id)
    (hcalls : ∀ c ∈ q.calls, c ∈ p.calls ∨ ∀ id, ¬ c.Carrying id)
    (hsettling : ∀ id answer, BatchOut q id → .settling id answer ∈ p.calls →
      (∀ c ∈ q.calls, ¬ c.Carrying id) → .settling id answer ∈ q.calls) : InSlot q where
  one := fun i j hi hj => h.one i j (hout i hi) (hout j hj)
  held := by
    intro b hb id hid
    exact h.held b (hslot ▸ hb) id (hout id hid)
  resolving := by
    intro hnone id hid
    obtain ⟨⟨answer, hanswer⟩, hcarry⟩ := h.resolving (hslot ▸ hnone) id (hout id hid)
    have hcarry' : ∀ c ∈ q.calls, ¬ c.Carrying id := by
      intro c hc
      rcases hcalls c hc with hc | hc
      · exact hcarry c hc
      · exact hc id
    exact ⟨⟨answer, hsettling id answer hid hanswer hcarry'⟩, hcarry'⟩

/-- An enable leaves the slot, or moves to another version. -/
theorem enables {sealingKey version : String} {out : Except BackupError Unit}
    (hm : p.shared.machine.Enables S sealingKey version out q.shared.machine)
    (hkeeps : q.shared.machine.pendingBackup = p.shared.machine.pendingBackup → InSlot q)
    (hmoves : ∀ current, p.shared.machine.backupVersion = some current → current ≠ version →
      InSlot q) : InSlot q := by
  generalize q.shared.machine = n at hm hkeeps
  cases hm with
  | fails e => exact hkeeps rfl
  | empties e marks hcurrent hne => exact hmoves _ hcurrent hne
  | moves _ hcurrent hne => exact hmoves _ hcurrent hne
  | writes _ _ => exact hkeeps rfl

/-- A drain's trip is offered what the slot holds, or fills it while nothing is out. -/
theorem offers (h : InSlot p) {upstream : Except Unit (List UpstreamOutgoingRequest)}
    {built : Except Unit (Option PendingBackup)}
    (hm : q.shared.machine = (p.shared.machine.offers upstream built).2)
    (hdrains : ∀ id answer, .settling id answer ∈ p.calls → ¬ BatchOut p id)
    (hout : ∀ id, BatchOut q id → BatchOut p id ∨
      ∃ b, q.shared.machine.pendingBackup = some b ∧ b.requestId = id) : InSlot q := by
  -- with the slot empty before, nothing was out
  have hempty : p.shared.machine.pendingBackup = none → ∀ id, ¬ BatchOut p id := by
    intro hnone id hid
    obtain ⟨⟨answer, hanswer⟩, -⟩ := h.resolving hnone id hid
    exact hdrains id answer hanswer hid
  cases hq : q.shared.machine.pendingBackup with
  | none =>
    refine of_none fun id hid => ?_
    have hnone : p.shared.machine.pendingBackup = none := by
      rcases p.shared.machine.offers_eq_or upstream built with heq | ⟨hnone, -⟩
      · rwa [hm, heq] at hq
      · exact hnone
    rcases hout id hid with hid | ⟨b, hb, -⟩
    · exact hempty hnone id hid
    · rw [hq] at hb
      cases hb
  | some b =>
    refine of_held hq fun id hid => ?_
    rcases hout id hid with hid | ⟨b', hb', rfl⟩
    · rcases p.shared.machine.offers_eq_or upstream built with heq | ⟨hnone, -⟩
      · rw [hm, heq] at hq
        exact h.held b hq id hid
      · exact absurd hid (hempty hnone id)
    · rw [hq] at hb'
      rw [Option.some.inj hb']

/-- A report's trip leaves the slot, or empties it of what its own section is about to resolve. -/
theorem reports (h : InSlot p) {kind : PendingKind} {id : String} {answer : AnswerAboutAccount}
    (hm : q.shared.machine = p.shared.machine.markAsSent kind id)
    (hkeeps : q.shared.machine.pendingBackup = p.shared.machine.pendingBackup → InSlot q)
    (hout : ∀ id, BatchOut q id → BatchOut p id) (hown : .settling id answer ∈ q.calls)
    (hcarry : kind = .roomKeyBackup → ∀ c ∈ q.calls, ¬ c.Carrying id) : InSlot q := by
  by_cases hbackup : kind = .roomKeyBackup
  case neg =>
    refine hkeeps ?_
    rw [hm, BackupMachine.markAsSent, if_neg hbackup]
  rcases (p.shared.machine.markAsSent_eq_or kind id).2 with hsame | ⟨hnone, b, hb, rfl⟩
  · exact hkeeps (by rw [hm, hsame])
  refine ⟨fun i j hi hj => h.one i j (hout i hi) (hout j hj), fun b' hb' => ?_, fun _ id hid => ?_⟩
  · rw [hm, hnone] at hb'
    cases hb'
  · obtain rfl := h.held b hb id (hout id hid)
    exact ⟨⟨answer, hown⟩, hcarry hbackup⟩

end InSlot

/-- A section keeps what is out in the slot. -/
theorem inSlot_section {p q : Pool (BackupProcess K) BackupCall} {c : BackupCall}
    {r : BackupCall ⊕ BackupResult} (hleaves : LeavesSlot p (.section c r))
    (hstep : (handingOut S P account).step p (.section c r) q) (h : InSlot p) : InSlot q := by
  have hout : ∀ id, BatchOut q id → BatchOut p id ∨
      (∃ r', (.section c r : BackupEvent) = .section .take r') ∧
        ∃ b, q.shared.machine.pendingBackup = some b ∧ b.requestId = id :=
    fun _ hid => batchOut_step hstep hid
  have hkept : (∀ r', (.section c r : BackupEvent) ≠ .section .take r') →
      ∀ id, BatchOut q id → BatchOut p id := by
    intro hne id hid
    rcases hout id hid with hid | ⟨⟨r', hr⟩, -⟩
    · exact hid
    · exact absurd hr (hne r')
  obtain ⟨-, hstep⟩ := hstep
  have hcame : ∀ d ∈ q.calls, d ∈ p.calls ∨ d ∈ remaining r := fun _ =>
    Calls.mem_of_section hstep
  have hothers : ∀ d ∈ p.calls, d = c ∨ d ∈ q.calls := fun _ => Calls.mem_section hstep
  obtain ⟨before, after, hsplit, hnext, hcalls⟩ := hstep
  have hsettling : (∀ id answer, c ≠ .settling id answer) → ∀ id answer,
      .settling id answer ∈ p.calls → .settling id answer ∈ q.calls := by
    intro hne id answer hmem
    rcases hothers _ hmem with heq | hmem
    · exact absurd heq.symm (hne id answer)
    · exact hmem
  -- a section that leaves the slot as it is, and offers nothing
  have hquiet : q.shared.machine.pendingBackup = p.shared.machine.pendingBackup →
      (∀ r', (.section c r : BackupEvent) ≠ .section .take r') →
      (∀ id answer, c ≠ .settling id answer) →
      (∀ d ∈ remaining r, ∀ id, ¬ d.Carrying id) → InSlot q :=
    fun hslot htake hne hcarry => h.keeps hslot (hkept htake)
      (fun d hd => (hcame d hd).imp_right fun hd => hcarry d hd)
      fun id answer _ hmem _ => hsettling hne id answer hmem
  generalize ht : q.shared = t at hnext
  cases hnext with
  | @enables sealingKey version trip =>
    have hm := p.shared.machine.enables_enableBackup S sealingKey version trip
    rw [show (p.shared.machine.enableBackup S sealingKey version trip).2 = q.shared.machine by
      rw [ht]] at hm
    refine .enables hm (fun hslot => hquiet hslot (by simp) (by simp) (by simp))
      fun current hcurrent hne => .of_none fun id hid => ?_
    exact hleaves.enables _ _ current _ rfl hcurrent hne id (hkept (by simp) id hid)
  | disables trip =>
    rcases p.shared.machine.disableBackup_eq_or trip with hsame | -
    · exact hquiet (by rw [ht, hsame]) (by simp) (by simp) (by simp)
    · exact .of_none fun id hid => hleaves.disables _ rfl id (hkept (by simp) id hid)
  | takeTrip hbuilt hprepare =>
    exact h.offers (by rw [ht]) (hleaves.drains _ rfl) fun id hid =>
      (hout id hid).imp_right And.right
  | takeTripFails hbuilt hprepare =>
    exact h.offers (by rw [ht]) (hleaves.drains _ rfl) fun id hid =>
      (hout id hid).imp_right And.right
  | takeNoMachine =>
    -- a trip that reaches no machine is offered nothing
    have hcalls : ∀ d ∈ q.calls, d ∈ p.calls := fun d hd => (hcame d hd).resolve_right (by simp)
    refine h.keeps (by rw [ht]) (fun id hid => ?_) (fun d hd => Or.inl (hcalls d hd))
      fun id answer _ hmem _ => hsettling (by simp) id answer hmem
    unfold BatchOut at hid ⊢
    rw [ht] at hid
    exact hid.imp_right fun ⟨d, hd, hcarry⟩ => ⟨d, hcalls d hd, hcarry⟩
  | takeSection => exact hquiet (by rw [ht]) (by simp) (by simp) (by simp)
  | markLookup _ _ =>
    exact hquiet (by rw [ht]) (by simp) (by simp) (by simp [BackupCall.Carrying])
  | markUnknown _ => exact hquiet (by rw [ht]) (by simp) (by simp) (by simp)
  | markRefused _ _ => exact hquiet (by rw [ht]) (by simp) (by simp) (by simp)
  | @markTrip id body kind up answer store _ =>
    have hown : .settling id answer ∈ q.calls := by
      rw [hcalls]
      simp
    refine h.reports (by rw [ht])
      (fun hslot => hquiet hslot (by simp) (by simp) (by simp [BackupCall.Carrying]))
      (hkept (by simp)) hown fun hkind d hd => ?_
    subst hkind
    rcases hcame d hd with hd | hd
    · exact hleaves.reports id body _ rfl d hd
    · rw [remaining_inl, List.mem_singleton] at hd
      rw [hd]
      exact fun hcarry => hcarry
  | markTripFails _ => exact hquiet (by rw [ht]) (by simp) (by simp) (by simp)
  | markNoMachine => exact hquiet (by rw [ht]) (by simp) (by simp) (by simp)
  | @markSection id answer =>
    refine h.keeps (by rw [ht]) (hkept (by simp))
      (fun d hd => (hcame d hd).imp_right fun hd => (by simp at hd))
      fun id' answer' hid hmem hcarry => ?_
    rcases hothers _ hmem with heq | hmem
    · -- what this section resolves is out no more
      obtain ⟨rfl, -⟩ := BackupCall.settling.inj heq
      rcases hid with hid | ⟨d, hd, hid⟩
      · rw [ht] at hid
        exact absurd rfl (RequestState.batchPending_settle hid).2
      · exact absurd hid (hcarry d hd)
    · exact hmem
  | fails => exact hquiet (by rw [ht]) (by simp) (by simp) (by simp)

/-- **What is out is what the slot holds**, whatever else the calls do. -/
theorem inSlot_step {p q : Pool (BackupProcess K) BackupCall} {e : BackupEvent}
    (hstep : ((handingOut S P account).restrict LeavesSlot).step p e q) (h : InSlot p) :
    InSlot q := by
  obtain ⟨hleaves, hstep⟩ := hstep
  cases e with
  | start c =>
    have hkept : ∀ id, BatchOut q id → BatchOut p id := fun id hid =>
      (batchOut_step hstep hid).resolve_right (by simp)
    obtain ⟨-, hstart, rfl⟩ := hstep
    refine h.keeps rfl hkept (fun d hd => ?_) fun id answer _ hmem _ =>
      List.mem_append_left _ hmem
    rcases List.mem_append.mp hd with hd | hd
    · exact Or.inl hd
    · rw [List.mem_singleton] at hd
      subst hd
      right
      intro id hcarry
      cases hstart <;> cases hcarry
  | world move =>
    have hkept : ∀ id, BatchOut q id → BatchOut p id := fun id hid =>
      (batchOut_step hstep hid).resolve_right (by simp)
    obtain ⟨-, hmove, hcalls⟩ := hstep
    refine h.keeps ?_ hkept (fun c hc => Or.inl (hcalls ▸ hc)) fun id answer _ hmem _ =>
      hcalls ▸ hmem
    rw [show q.shared = p.shared.moved move from hmove]
    exact p.shared.moved_pendingBackup move
  | «section» c r => exact inSlot_section hleaves hstep h

/-- **The registry holds at most one batch** in every state of a run whose calls leave the slot to
the batch that is out. -/
theorem oneBatchPending_of_leavesSlot {p q : Pool (BackupProcess K) BackupCall}
    {es : List BackupEvent} (hp : (handingOut S P account).init p)
    (hrun : ((handingOut S P account).restrict LeavesSlot).Run p es q) :
    q.shared.requests.OneBatchPending := by
  have hinit : InSlot p := by
    refine .of_none fun id hid => ?_
    rcases hid with ⟨entry, hget, -⟩ | ⟨c, hc, -⟩
    · rw [hp.1.1] at hget
      cases hget
    · rw [hp.2] at hc
      cases hc
  have hout : InSlot q :=
    hrun.invariant (I := InSlot) (fun _ _ _ h hstep => inSlot_step hstep h) hinit
  exact fun i j hi hj => hout.one i j (Or.inl hi) (Or.inl hj)

end

/-! ### A batch offered again, and a second one

A backup is enabled and a drain hands its batch out.  The next drain is offered the same
batch; after an enable of another version it is offered another. -/

/-- Runs over the keys of `keeping` in which every other call only queues. -/
def keepingQueues : TransitionSystem (Pool (BackupProcess String) BackupCall) BackupEvent :=
  handingOut statedSealing emptyObjectParsers "@me:example.org"

theorem keepingQueues_start (s : BackupProcess String) (calls : List BackupCall) {c : BackupCall}
    (h : BackupStart c) : keepingQueues.step ⟨s, calls⟩ (.start c) ⟨s, calls ++ [c]⟩ :=
  ⟨trivial, keeping_start s calls h⟩

theorem keepingQueues_section {s t : BackupProcess String} {c : BackupCall}
    {r : BackupCall ⊕ BackupResult}
    (h : BackupNext statedSealing emptyObjectParsers "@me:example.org" s c t r) :
    keepingQueues.step ⟨s, [c]⟩ (.section c r) ⟨t, remaining r ++ []⟩ :=
  ⟨trivial, keeping_section [] [] h⟩

/-- A call that begins leaves the slot to what is out. -/
theorem keepingQueues_startAlone (s : BackupProcess String) {c : BackupCall} (h : BackupStart c) :
    (keepingQueues.restrict LeavesSlot).step ⟨s, []⟩ (.start c) ⟨s, [c]⟩ :=
  ⟨⟨by simp, by simp, by simp, by simp⟩, keepingQueues_start s [] h⟩

/-- So does a drain, once nothing else is in flight. -/
theorem leavesSlot_take (s : BackupProcess String) (r : BackupCall ⊕ BackupResult) :
    LeavesSlot ⟨s, [.take]⟩ (.section .take r) :=
  ⟨by simp, by simp, by simp, by simp⟩

theorem leavesSlot_taking (s : BackupProcess String) (calls : List BackupCall)
    (prepared : List Fresh) (r : BackupCall ⊕ BackupResult) :
    LeavesSlot ⟨s, calls⟩ (.section (.taking prepared) r) :=
  ⟨by simp, by simp, by simp, by simp⟩

/-- The process with that registry. -/
def holdingBatch (requests : RequestState) (key : String × String) (batch : PendingBackup) :
    BackupProcess String :=
  ⟨requests, ⟨none, none, false⟩, ⟨some key, some batch, fun _ => false⟩⟩

/-- The registry once the first batch is handed out. -/
def firstHandedOut : RequestState :=
  (RequestState.initial.takeSection "@me:example.org" firstPrepared).2

/-- The batch of the version enabled next, and what its drain prepares. -/
def nextBatch : PendingBackup :=
  ⟨"b2", ⟨"947282", some (roomsUnder secondKey)⟩, ["!scope:example.org"]⟩

def nextPrepared : List Fresh :=
  [⟨none, "b2", .roomKeyBackup, .obj [("version", .str "947282"), ("rooms", roomsUnder secondKey)]⟩]

/-- The first drain hands the batch out. -/
theorem run_handsOut : ∃ es, (keepingQueues.restrict LeavesSlot).Run
    ⟨backingUnder none none, []⟩ es
    ⟨holdingBatch firstHandedOut (firstKey, "947281") firstBatch, []⟩ := by
  have henable : (keepingQueues.restrict LeavesSlot).step
      ⟨backingUnder none none, [.enable firstKey "947281"]⟩
      (.section (.enable firstKey "947281") (.inr (.enabled (.ok ()))))
      ⟨backingUnder (some (firstKey, "947281")) none, []⟩ :=
    ⟨⟨by simp [backingUnder, BackupMachine.backupVersion], by simp, by simp, by simp⟩,
      keepingQueues_section (.enables (some (.taken, true)))⟩
  have htrip : keepingQueues.step ⟨backingUnder (some (firstKey, "947281")) none, [.take]⟩
      (.section .take (.inl (.taking firstPrepared)))
      ⟨backingUnder (some (firstKey, "947281")) (some firstBatch), [.taking firstPrepared]⟩ := by
    refine keepingQueues_section
      (@BackupNext.takeTrip _ _ _ _ _ (.ok []) (.ok (some firstBatch)) _ ?_ rfl)
    intro batch hbatch
    obtain rfl := Option.some.inj (Except.ok.inj hbatch)
    exact ⟨firstKey, rfl, rfl⟩
  have hsection : (keepingQueues.restrict LeavesSlot).step
      ⟨backingUnder (some (firstKey, "947281")) (some firstBatch), [.taking firstPrepared]⟩
      (.section (.taking firstPrepared)
        (.inr (.took (.ok [⟨"b1", "room_key_backup", firstBody⟩]))))
      ⟨holdingBatch firstHandedOut (firstKey, "947281") firstBatch, []⟩ :=
    ⟨leavesSlot_taking _ _ _ _, keepingQueues_section .takeSection⟩
  exact ⟨_, .cons (keepingQueues_startAlone _ (.enable _ _)) (.cons henable
    (.cons (keepingQueues_startAlone _ .take)
      (.cons ⟨leavesSlot_take _ _, htrip⟩ (.single hsection))))⟩

/-- The next drain is offered the batch again, while it is the one that is out. -/
theorem run_offeredAgain : ∃ es, (keepingQueues.restrict LeavesSlot).Run
    ⟨holdingBatch firstHandedOut (firstKey, "947281") firstBatch, []⟩ es
    ⟨holdingBatch (firstHandedOut.takeSection "@me:example.org" firstPrepared).2
      (firstKey, "947281") firstBatch, []⟩ := by
  have htrip : keepingQueues.step
      ⟨holdingBatch firstHandedOut (firstKey, "947281") firstBatch, [.take]⟩
      (.section .take (.inl (.taking firstPrepared)))
      ⟨holdingBatch firstHandedOut (firstKey, "947281") firstBatch, [.taking firstPrepared]⟩ := by
    refine keepingQueues_section (@BackupNext.takeTrip _ _ _ _ _ (.ok []) (.ok none) _ ?_ rfl)
    intro batch hbatch
    cases Except.ok.inj hbatch
  have hsection : (keepingQueues.restrict LeavesSlot).step
      ⟨holdingBatch firstHandedOut (firstKey, "947281") firstBatch, [.taking firstPrepared]⟩
      (.section (.taking firstPrepared)
        (.inr (.took (.ok [⟨"b1", "room_key_backup", firstBody⟩]))))
      ⟨holdingBatch (firstHandedOut.takeSection "@me:example.org" firstPrepared).2
        (firstKey, "947281") firstBatch, []⟩ :=
    ⟨leavesSlot_taking _ _ _ _, keepingQueues_section .takeSection⟩
  exact ⟨_, .cons (keepingQueues_startAlone _ .take)
    (.cons ⟨leavesSlot_take _ _, htrip⟩ (.single hsection))⟩

/-- The batch stays the only one when it is offered again. -/
theorem oneBatchPending_offeredAgain :
    (firstHandedOut.takeSection "@me:example.org" firstPrepared).2.BatchPending "b1" ∧
      (firstHandedOut.takeSection "@me:example.org" firstPrepared).2.OneBatchPending := by
  obtain ⟨es, hfirst⟩ := run_handsOut
  obtain ⟨fs, hagain⟩ := run_offeredAgain
  exact ⟨⟨⟨.roomKeyBackup, 0⟩, rfl, rfl⟩,
    oneBatchPending_of_leavesSlot ⟨⟨rfl, rfl, rfl⟩, rfl⟩ (hfirst.append hagain)⟩

/-- After an enable of another version the next drain hands another batch out. -/
theorem run_replaced : ∃ es, keepingQueues.Run
    ⟨holdingBatch firstHandedOut (firstKey, "947281") firstBatch, []⟩ es
    ⟨holdingBatch (firstHandedOut.takeSection "@me:example.org" nextPrepared).2
      (secondKey, "947282") nextBatch, []⟩ := by
  have henable : keepingQueues.step
      ⟨holdingBatch firstHandedOut (firstKey, "947281") firstBatch, [.enable secondKey "947282"]⟩
      (.section (.enable secondKey "947282") (.inr (.enabled (.ok ()))))
      ⟨⟨firstHandedOut, ⟨none, none, false⟩, ⟨some (secondKey, "947282"), none, fun _ => false⟩⟩,
        []⟩ :=
    keepingQueues_section (.enables (some (.taken, true)))
  have htrip : keepingQueues.step
      ⟨⟨firstHandedOut, ⟨none, none, false⟩, ⟨some (secondKey, "947282"), none, fun _ => false⟩⟩,
        [.take]⟩
      (.section .take (.inl (.taking nextPrepared)))
      ⟨holdingBatch firstHandedOut (secondKey, "947282") nextBatch, [.taking nextPrepared]⟩ := by
    refine keepingQueues_section
      (@BackupNext.takeTrip _ _ _ _ _ (.ok []) (.ok (some nextBatch)) _ ?_ rfl)
    intro batch hbatch
    obtain rfl := Option.some.inj (Except.ok.inj hbatch)
    exact ⟨secondKey, rfl, rfl⟩
  have hsection : keepingQueues.step
      ⟨holdingBatch firstHandedOut (secondKey, "947282") nextBatch, [.taking nextPrepared]⟩
      (.section (.taking nextPrepared) (.inr (.took
        (firstHandedOut.takeSection "@me:example.org" nextPrepared).1)))
      ⟨holdingBatch (firstHandedOut.takeSection "@me:example.org" nextPrepared).2
        (secondKey, "947282") nextBatch, []⟩ :=
    keepingQueues_section .takeSection
  exact ⟨_, .cons (keepingQueues_start _ [] (.enable _ _)) (.cons henable
    (.cons (keepingQueues_start _ [] .take) (.cons htrip (.single hsection))))⟩

/-- **A run that leaves two batches pending**: the second is of the version enabled
while the first was unresolved. -/
theorem two_batches_pending : ∃ p es q, keepingQueues.init p ∧ keepingQueues.Run p es q ∧
    ¬ q.shared.requests.OneBatchPending := by
  obtain ⟨es, hfirst⟩ := run_handsOut
  obtain ⟨fs, hnext⟩ := run_replaced
  refine ⟨_, _, _, ⟨⟨rfl, rfl, rfl⟩, rfl⟩, hfirst.of_restrict.append hnext, fun h => ?_⟩
  have hsame : "b1" = "b2" :=
    h "b1" "b2" ⟨⟨.roomKeyBackup, 0⟩, rfl, rfl⟩ ⟨⟨.roomKeyBackup, 1⟩, rfl, rfl⟩
  exact absurd hsame (by decide)

end MatrixCrypto
