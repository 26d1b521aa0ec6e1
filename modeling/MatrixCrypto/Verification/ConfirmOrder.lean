import MatrixCrypto.Handout.Foreign
import MatrixCrypto.Verification.Confirm

/-!
# The confirmation before the acknowledgement

What the takes return, over any interleaving of confirmations, syncs and takes.
The registry stamps a message when it is queued and not when upstream made it, so
the order rests on the confirmation being queued before a take that has read the
acknowledgement builds its batch.

## Main definitions

* `Unovertaken` — no take that read a comparison's acknowledgement builds its
  batch while a call still keeps the confirmation.
* `Ahead` — a message was handed out, or waits with a stamp below every stamp of
  another.
* `InOrder` — the books of one comparison's two messages.

## Main results

* `precedes_takeSection` — a batch keeps the order of two messages.
* `inOrder_step`, `inOrder_run` — the books are kept.
* `confirmation_precedes` — **the confirmation is returned first**, in every run
  in which no take overtakes it.
* `confirmation_overtaken` — a run in which one does.
-/

namespace MatrixCrypto

open Lib Relation

/-- What happens in one step. -/
abbrev ConfirmEvent := Event ConfirmCall ConfirmResult ConfirmMove

/-- The calls in flight. -/
abbrev ConfirmPool := Pool ConfirmState ConfirmCall

/-- The system of all interleavings. -/
abbrev confirmations (M : Messages) (account : String) :
    TransitionSystem ConfirmPool ConfirmEvent := (confirming M account).system M.Initial

/-- The call has the comparison's confirmation from upstream and has not queued
it. -/
def ConfirmCall.Keeps (M : Messages) (c : Sas) : ConfirmCall → Prop
  | queueing rest => ∃ r ∈ rest, r.requestId = (M.confirmation c).requestId
  | _ => False

/-- The call is a take whose trip was answered with the acknowledgement. -/
def ConfirmCall.Read (M : Messages) (c : Sas) : ConfirmCall → Prop
  | taking prepared => ∃ f ∈ prepared, f.id = (M.acknowledgement c).requestId
  | _ => False

/-- The step is no section of a take that read the acknowledgement while a call
still keeps the confirmation. -/
def Unovertaken (M : Messages) (c : Sas) (p : ConfirmPool) (e : ConfirmEvent) : Prop :=
  ∀ call res, e = .section call res → call.Read M c → ∀ other ∈ p.calls, ¬ other.Keeps M c

/-! ### One message ahead of another in the registry -/

/-- The message `x` was handed out, or waits in the action queue with a stamp below
every stamp of `y`. -/
inductive Ahead (x y : String) (handed : List String) (s : RequestState) : Prop
  | handed (h : x ∈ handed)
  | queued {n : ℕ} {r : UpstreamOutgoingRequest} (h : (n, r) ∈ s.queuedAction)
      (hid : r.requestId = x) (hlt : ∀ m, s.QueuedAt m y → n < m)

section ahead

variable {x y : String} {handed : List String} {s t : RequestState}

theorem Ahead.of_spares (h : Ahead x y handed s) (hst : Spares y s t) : Ahead x y handed t := by
  cases h with
  | handed h => exact .handed h
  | queued h hid hlt =>
    exact .queued (hst.kept _ h) hid fun m hm => hlt m (hst.queuedAt hm)

theorem Ahead.mono {handed' : List String} (h : Ahead x y handed s)
    (hsub : ∀ i ∈ handed, i ∈ handed') : Ahead x y handed' s := by
  cases h with
  | handed h => exact .handed (hsub _ h)
  | queued h hid hlt => exact .queued h hid hlt

/-- What waits in the action queue is ahead of what waits nowhere. -/
theorem ahead_of_queued (hy : s.Carries y → Ahead x y handed s) {n : ℕ}
    {r : UpstreamOutgoingRequest} (h : (n, r) ∈ s.queuedAction) (hid : r.requestId = x) :
    Ahead x y handed s := by
  by_cases hc : s.Carries y
  · exact hy hc
  · exact .queued h hid fun m hm => absurd (.stamped hm) hc

/-- Queueing any request keeps what is ahead: its stamp is the counter's. -/
theorem Ahead.queueActionRequest (h : Ahead x y handed s) (hs : s.Stamped)
    (r : UpstreamOutgoingRequest) : Ahead x y handed (s.queueActionRequest r) := by
  cases h with
  | handed h => exact .handed h
  | @queued n r' h hid hlt =>
    refine .queued (RequestState.mem_queueActionRequest h r) hid fun m hm => ?_
    rcases RequestState.queuedAt_queueActionRequest hm with hm | ⟨rfl, -⟩
    · exact hlt m hm
    · exact hs n _ (.action h)

/-- Every other call's write leaves a message of its own alone. -/
theorem Messages.OtherWrite.spares {M : Messages} (h : M.OtherWrite s t)
    (hy : ∀ i, M.Foreign i → i ≠ y) : Spares y s t := by
  cases h with
  | action h => exact ForeignWrite.spares (.action h) hy
  | toDevice h => exact ForeignWrite.spares (.toDevice h) hy
  | claim h => exact ForeignWrite.spares (.claim h) hy
  | signingKeys h => exact ForeignWrite.spares (.signingKeys h) hy
  | accountQuery h => exact ForeignWrite.spares (.accountQuery h) hy
  | peerQuery h => exact ForeignWrite.spares (.peerQuery h) hy
  | settles id answer => exact ForeignWrite.spares (.settles id answer) hy

/-! ### A batch -/

theorem map_outgoing_id (batch : List Entry) :
    (batch.map Entry.outgoing).map OutgoingRequest.id = batch.map Entry.id := by
  rw [List.map_map]
  rfl

/-- What waits in the action queue is in the batch, under its stamp. -/
theorem action_mem_handOut {account : String} {prepared fresh : List Fresh}
    (h : s.collect account prepared = .ok fresh) {n : ℕ} {r : UpstreamOutgoingRequest}
    (hr : (n, r) ∈ s.queuedAction) :
    ∃ e ∈ s.handOut fresh, e.sequence = n ∧ e.id = r.requestId := by
  obtain ⟨f, hf, hfr⟩ := RequestState.action_mem_collect h hr
  obtain ⟨_, _, _, rfl⟩ := freshOf_ok hfr
  obtain ⟨e, he, hseq, hid, -⟩ := RequestState.exists_mem_handOut (s := s) hf rfl
  exact ⟨e, he, hseq, hid⟩

/-- A message that is ahead of another was handed out, or is in the batch. -/
theorem Ahead.mem_batch {account : String} {prepared fresh : List Fresh}
    (h : Ahead x y handed s) (hc : s.collect account prepared = .ok fresh) :
    x ∈ handed ++ (s.handOut fresh).map Entry.id := by
  cases h with
  | handed h => exact List.mem_append_left _ h
  | queued h hid _ =>
    obtain ⟨e, he, -, hid'⟩ := action_mem_handOut hc h
    refine List.mem_append_right _ ?_
    rw [← hid, ← hid']
    exact List.mem_map_of_mem he

/-- **A batch keeps the order of two messages**: where the second is in it, the
first is ahead of it. -/
theorem precedes_takeSection {account : String} {prepared fresh : List Fresh}
    (hs : s.Stamped) (hprec : Precedes x y handed)
    (hpend : s.pending.get? y ≠ none → x ∈ handed)
    (hnone : ∀ f ∈ prepared, f.queuedAt = none)
    (hc : s.collect account prepared = .ok fresh)
    (hahead : y ∈ (s.handOut fresh).map Entry.id → Ahead x y handed s) :
    Precedes x y (handed ++ (s.handOut fresh).map Entry.id) := by
  refine hprec.append_right fun hy => ?_
  by_cases hx : x ∈ handed
  · exact Or.inl hx
  refine Or.inr ?_
  cases hahead hy with
  | handed h => exact absurd h hx
  | @queued n r hr hid hlt =>
    obtain ⟨e, he, hseq, hid'⟩ := action_mem_handOut hc hr
    have hsorted := pairwise_sortByKey Entry.sequence (stamp s.pending s.nextSequence fresh).1
    have hafter : ∀ b ∈ s.handOut fresh, b.id = y → e.sequence < b.sequence := by
      intro b hb hby
      rw [hseq]
      obtain ⟨f, hf, hfid, -, -, hpos | ⟨-, hle, -⟩⟩ := mem_stamp (RequestState.mem_handOut.mp hb)
      · cases hqueued : f.queuedAt with
        | none =>
          -- its position would be the one it was handed out with before
          rw [position_of_not_queued hqueued] at hpos
          obtain ⟨entry, hentry, -⟩ := Option.map_eq_some_iff.mp hpos
          rw [hfid, hby] at hentry
          exact absurd (hpend (by rw [hentry]; simp)) hx
        | some m =>
          rw [position_of_queuedAt hqueued] at hpos
          obtain rfl := Option.some.inj hpos
          rcases (RequestState.mem_collect hc f).mp hf with hf | hf
          · rw [hnone f hf] at hqueued
            cases hqueued
          · have hm := hf.queuedAt hqueued
            rw [hfid, hby] at hm
            exact hlt _ hm
      · -- a position of this batch is the counter's
        exact Nat.lt_of_lt_of_le (hs n _ (.action hr)) hle
    have hfirst := precedes_map_of_key_lt (f := Entry.id) hsorted he hafter
    rw [hid', hid] at hfirst
    exact hfirst

end ahead

/-! ### The books -/

/-- The comparison's confirmation is ahead of its acknowledgement. -/
abbrev Messages.InFront (M : Messages) (c : Sas) (handed : List String) (s : ConfirmState) : Prop :=
  Ahead (M.confirmation c).requestId (M.acknowledgement c).requestId handed s.flow.requests

/-- What a call has in hand respects the order: messages to be queued stand in it,
and an acknowledgement that was read follows a confirmation upstream made. -/
def ConfirmCall.Fits (M : Messages) (c : Sas) (handed : List String) (s : ConfirmState) :
    ConfirmCall → Prop
  | queueing rest => M.InFront c handed s ∨
    Precedes (M.confirmation c).requestId (M.acknowledgement c).requestId
      (rest.map UpstreamOutgoingRequest.requestId)
  | taking prepared => (∀ f ∈ prepared, f.queuedAt = none) ∧
    ((∃ f ∈ prepared, f.id = (M.acknowledgement c).requestId) → c ∈ s.confirmed)
  | _ => True

/-- An acknowledgement that waits, or was handed out, has the confirmation in front
of it; one that upstream offers has the confirmation there or with a call. -/
structure InOrder (M : Messages) (c : Sas) (handed : List String) (s : ConfirmState)
    (calls : List ConfirmCall) : Prop where
  stamped : s.flow.requests.Stamped
  precedes : Precedes (M.confirmation c).requestId (M.acknowledgement c).requestId handed
  queued : s.flow.requests.Carries (M.acknowledgement c).requestId → M.InFront c handed s
  confirmationPending : s.flow.requests.pending.get? (M.confirmation c).requestId ≠ none →
    (M.confirmation c).requestId ∈ handed
  acknowledgementPending : s.flow.requests.pending.get? (M.acknowledgement c).requestId ≠ none →
    (M.confirmation c).requestId ∈ handed
  cached : ∀ r ∈ s.cache, r.requestId = (M.acknowledgement c).requestId → c ∈ s.confirmed
  confirmed : c ∈ s.confirmed → M.InFront c handed s ∨ ∃ call ∈ calls, call.Keeps M c
  fits : ∀ call ∈ calls, call.Fits M c handed s

section books

variable {M : Messages} {c : Sas} {account : String} {handed : List String} {s t : ConfirmState}
  {calls calls' before after : List ConfirmCall} {l : ConfirmCall}

theorem ConfirmCall.Fits.mono {handed' : List String} {call : ConfirmCall}
    (h : call.Fits M c handed s) (hfront : M.InFront c handed s → M.InFront c handed' t)
    (hconfirmed : c ∈ s.confirmed → c ∈ t.confirmed) : call.Fits M c handed' t := by
  cases call with
  | queueing rest =>
    rcases h with h | h
    · exact Or.inl (hfront h)
    · exact Or.inr h
  | taking prepared => exact ⟨h.1, fun hread => hconfirmed (h.2 hread)⟩
  | _ => trivial

/-- What upstream's `confirm` returns for any comparison is in order. -/
theorem precedes_confirm (hown : M.Own c) (s : ConfirmState) (c' : Sas) :
    Precedes (M.confirmation c).requestId (M.acknowledgement c).requestId
      ((M.confirm s c').map UpstreamOutgoingRequest.requestId) := by
  by_cases hc : c' = c
  · subst hc
    have halone : Precedes (M.confirmation c').requestId (M.acknowledgement c').requestId
        [(M.confirmation c').requestId] :=
      precedes_of_not_mem fun hmem => hown.distinct (List.mem_singleton.mp hmem).symm
    unfold Messages.confirm
    split
    · exact halone.append_right fun _ => Or.inl (List.mem_singleton_self _)
    · exact halone
  · refine precedes_of_not_mem fun hmem => ?_
    obtain ⟨r, hr, hid⟩ := List.mem_map.mp hmem
    refine hown.others c' hc r.requestId ?_ (hid ▸ M.acknowledgement_mem_ids c)
    rcases Messages.mem_confirm hr with rfl | rfl
    · exact M.confirmation_mem_ids c'
    · exact M.acknowledgement_mem_ids c'

namespace InOrder

/-- A step that drains nothing, queues no acknowledgement and puts none in the
cache before the confirmation keeps the books. -/
theorem moved (h : InOrder M c handed s calls)
    (hreq : Spares (M.acknowledgement c).requestId s.flow.requests t.flow.requests)
    (hconfirmed : t.confirmed = s.confirmed)
    (hcache : ∀ r ∈ t.cache, r.requestId = (M.acknowledgement c).requestId → c ∈ s.confirmed)
    (hkeeps : (∃ call ∈ calls, call.Keeps M c) →
      M.InFront c handed t ∨ ∃ call ∈ calls', call.Keeps M c)
    (hfits : ∀ call ∈ calls', call.Fits M c handed t) : InOrder M c handed t calls' where
  stamped := hreq.stamped h.stamped
  precedes := h.precedes
  queued := fun hc => (h.queued (hreq.carries hc)).of_spares hreq
  confirmationPending := fun hp => h.confirmationPending (hreq.pending _ hp)
  acknowledgementPending := fun hp => h.acknowledgementPending (hreq.pending _ hp)
  cached := fun r hr hid => by rw [hconfirmed]; exact hcache r hr hid
  confirmed := by
    intro hc
    rw [hconfirmed] at hc
    rcases h.confirmed hc with hfront | hkeep
    · exact Or.inl (hfront.of_spares hreq)
    · exact hkeeps hkeep
  fits := hfits

/-- What the calls have in hand still respects the order after such a step. -/
theorem fits_moved (h : InOrder M c handed s calls)
    (hreq : Spares (M.acknowledgement c).requestId s.flow.requests t.flow.requests)
    (hconfirmed : t.confirmed = s.confirmed) : ∀ call ∈ calls, call.Fits M c handed t := by
  intro call hmem
  exact (h.fits call hmem).mono (fun hfront => hfront.of_spares hreq) fun hc => hconfirmed ▸ hc

/-- A section that writes to no request registry keeps the books, if its call did
not keep the confirmation. -/
theorem passed (res : ConfirmCall ⊕ ConfirmResult)
    (h : InOrder M c handed s (before ++ l :: after))
    (hreq : t.flow.requests = s.flow.requests) (hconfirmed : t.confirmed = s.confirmed)
    (hcache : ∀ r ∈ t.cache, r.requestId = (M.acknowledgement c).requestId → c ∈ s.confirmed)
    (hkeeps : ¬ l.Keeps M c) (hfits : ∀ call ∈ remaining res, call.Fits M c handed t) :
    InOrder M c handed t (before ++ (remaining res ++ after)) := by
  have hspares : Spares (M.acknowledgement c).requestId s.flow.requests t.flow.requests :=
    hreq ▸ Spares.refl _ _
  refine h.moved hspares hconfirmed hcache (fun hkeep => ?_) ?_
  · exact Or.inr (exists_remaining res hkeep fun hl => absurd hl hkeeps)
  · exact forall_remaining (h.fits_moved hspares hconfirmed) hfits

/-- Upstream confirms: the call has the confirmation, and queues it first. -/
theorem confirms {c' : Sas} {state : SasState} {upload : Option UpstreamOutgoingRequest}
    (hown : M.Own c) (hupload : ∀ r ∈ upload, M.Foreign r.requestId)
    (h : InOrder M c handed s (before ++ .confirming c' :: after)) :
    InOrder M c handed (s.confirm c' state)
      (before ++ (.queueing (M.confirm s c' ++ upload.toList) :: after)) := by
  have hack : ∀ r ∈ upload.toList, r.requestId ≠ (M.acknowledgement c).requestId := by
    intro r hr heq
    exact hupload r (Option.mem_toList.mp hr) c (heq ▸ M.acknowledgement_mem_ids c)
  have hgrows : c ∈ s.confirmed → c ∈ (s.confirm c' state).confirmed := List.mem_cons_of_mem _
  refine ⟨h.stamped, h.precedes, h.queued, h.confirmationPending, h.acknowledgementPending,
    fun r hr hid => hgrows (h.cached r hr hid), fun hc => ?_, ?_⟩
  · rcases List.mem_cons.mp hc with rfl | hc
    · -- the call that confirmed keeps it
      refine Or.inr ⟨_, List.mem_append_right _ List.mem_cons_self, M.confirmation c, ?_, rfl⟩
      refine List.mem_append_left _ ?_
      unfold Messages.confirm
      split <;> exact List.mem_cons_self
    · rcases h.confirmed hc with hfront | hkeep
      · exact Or.inl hfront
      · exact Or.inr (exists_remaining (.inl (.queueing _) : ConfirmCall ⊕ ConfirmResult) hkeep
          fun hl => hl.elim)
  · have hothers : ∀ call ∈ before ++ .confirming c' :: after,
        call.Fits M c handed (s.confirm c' state) := fun call hmem =>
      (h.fits call hmem).mono (fun hfront => hfront) hgrows
    refine forall_remaining (r := (.inl (.queueing _) : ConfirmCall ⊕ ConfirmResult)) hothers
      (forall_mem_remaining_inl.mpr (Or.inr ?_))
    rw [List.map_append]
    refine (precedes_confirm hown s c').append_right fun hmem => ?_
    obtain ⟨r, hr, hid⟩ := List.mem_map.mp hmem
    exact absurd hid (hack r hr)

/-- A call queues its next message.  The acknowledgement goes in behind the
confirmation, and the confirmation in front of everything that comes after it. -/
theorem queues {r : UpstreamOutgoingRequest} {rest : List UpstreamOutgoingRequest}
    (h : InOrder M c handed s (before ++ .queueing (r :: rest) :: after)) :
    InOrder M c handed
      { s with flow := { s.flow with requests := s.flow.requests.queueActionRequest r } }
      (before ++ (.queueing rest :: after)) := by
  have hown_fits : (ConfirmCall.queueing (r :: rest)).Fits M c handed s := h.fits _ (by simp)
  by_cases hack : r.requestId = (M.acknowledgement c).requestId
  · -- the acknowledgement: the confirmation is in front already
    have hfront : M.InFront c handed s := by
      rcases hown_fits with hfront | hprec
      · exact hfront
      · rw [List.map_cons, hack] at hprec
        exact absurd hprec (not_precedes_cons _ _ _)
    have hfront' := hfront.queueActionRequest h.stamped r
    refine ⟨RequestState.stamped_queueActionRequest h.stamped r, h.precedes, fun _ => hfront', ?_,
      ?_, h.cached, fun _ => Or.inl hfront', ?_⟩
    · intro hp
      exact h.confirmationPending (RequestState.queueActionRequest_pending s.flow.requests r ▸ hp)
    · intro hp
      exact h.acknowledgementPending
        (RequestState.queueActionRequest_pending s.flow.requests r ▸ hp)
    · have hothers : ∀ call ∈ before ++ .queueing (r :: rest) :: after, call.Fits M c handed
          { s with flow := { s.flow with
            requests := s.flow.requests.queueActionRequest r } } := fun call hmem =>
        (h.fits call hmem).mono (fun _ => hfront') fun hc => hc
      exact forall_remaining (r := (.inl (.queueing _) : ConfirmCall ⊕ ConfirmResult)) hothers
        (forall_mem_remaining_inl.mpr (Or.inl hfront'))
  · have hspares : Spares (M.acknowledgement c).requestId s.flow.requests
      (s.flow.requests.queueActionRequest r) := spares_queueActionRequest hack
    -- the confirmation: it is in front of everything queued after it
    have hfront : r.requestId = (M.confirmation c).requestId → M.InFront c handed
        { s with flow := { s.flow with requests := s.flow.requests.queueActionRequest r } } := by
      intro hconf
      rcases RequestState.queued_queueActionRequest s.flow.requests r with
        ⟨n, r', hr', hid⟩ | hp
      · exact ahead_of_queued (fun hc => (h.queued (hspares.carries hc)).of_spares hspares) hr'
          (hid.trans hconf)
      · rw [hconf] at hp
        exact .handed (h.confirmationPending hp)
    refine h.moved hspares rfl h.cached (fun hkeep => ?_) ?_
    · by_cases hconf : r.requestId = (M.confirmation c).requestId
      · exact Or.inl (hfront hconf)
      · refine Or.inr (exists_remaining (.inl (.queueing rest) : ConfirmCall ⊕ ConfirmResult)
          hkeep fun hl => ⟨_, List.mem_singleton_self _, ?_⟩)
        obtain ⟨r', hr', hid⟩ := hl
        rcases List.mem_cons.mp hr' with rfl | hr'
        · exact absurd hid hconf
        · exact ⟨r', hr', hid⟩
    · refine forall_remaining (r := (.inl (.queueing _) : ConfirmCall ⊕ ConfirmResult))
        (h.fits_moved hspares rfl) (forall_mem_remaining_inl.mpr ?_)
      by_cases hconf : r.requestId = (M.confirmation c).requestId
      · exact Or.inl (hfront hconf)
      · rcases hown_fits with hfront | hprec
        · exact Or.inl (hfront.of_spares hspares)
        · exact Or.inr (hprec.tail hconf)

/-- A take builds its batch.  What it has of the acknowledgement was in a queue
behind the confirmation, or was read while no call kept that. -/
theorem takes {prepared : List Fresh}
    (h : InOrder M c handed s (before ++ .taking prepared :: after))
    (hfree : (ConfirmCall.taking prepared).Read M c →
      ∀ call ∈ before ++ .taking prepared :: after, ¬ call.Keeps M c) :
    InOrder M c
      (handed ++ (ConfirmResult.took (s.flow.requests.takeSection account prepared).1).ids)
      { s with flow := { s.flow with
        requests := (s.flow.requests.takeSection account prepared).2 } }
      (before ++ after) := by
  obtain ⟨hnone, hread⟩ : (ConfirmCall.taking prepared).Fits M c handed s := h.fits _ (by simp)
  have hmem : ∀ call ∈ before ++ after, call ∈ before ++ .taking prepared :: after := by
    intro call hmem
    rcases List.mem_append.mp hmem with hmem | hmem <;> simp [hmem]
  cases hres : (s.flow.requests.takeSection account prepared).1 with
  | error e =>
    rw [RequestState.takeSection_error hres, ConfirmResult.ids_error, List.append_nil]
    refine h.moved (Spares.refl _ _) rfl h.cached (fun hkeep => ?_) fun call hcall =>
      h.fits call (hmem call hcall)
    exact Or.inr (exists_remaining (.inr (.took (.error e)) : ConfirmCall ⊕ ConfirmResult) hkeep
      fun hl => hl.elim)
  | ok out =>
    obtain ⟨fresh, hc, rfl, hleft⟩ := RequestState.takeSection_ok hres
    rw [hleft, ConfirmResult.ids_ok, map_outgoing_id]
    -- where the acknowledgement is in the batch, the confirmation is in front of it
    have hahead : (M.acknowledgement c).requestId ∈
        (s.flow.requests.handOut fresh).map Entry.id → M.InFront c handed s := by
      intro hy
      obtain ⟨e, he, hid⟩ := List.mem_map.mp hy
      rcases RequestState.carries_of_mem_handOut hc he with ⟨f, hf, hfid⟩ | hcarries
      · have hreads : (ConfirmCall.taking prepared).Read M c := ⟨f, hf, hfid.trans hid⟩
        rcases h.confirmed (hread hreads) with hfront | ⟨call, hcall, hkeeps⟩
        · exact hfront
        · exact absurd hkeeps (hfree hreads call hcall)
      · exact h.queued (hid ▸ hcarries)
    have hfirst : M.InFront c handed s →
        (M.confirmation c).requestId ∈ handed ++ (s.flow.requests.handOut fresh).map Entry.id :=
      fun hfront => hfront.mem_batch hc
    refine ⟨RequestState.stamped_handedOut _ _,
      precedes_takeSection h.stamped h.precedes h.acknowledgementPending hnone hc hahead,
      fun hcarries => absurd hcarries RequestState.not_carries_handedOut, fun hp => ?_,
      fun hp => ?_, h.cached, fun hconfirmed => ?_, fun call hcall => ?_⟩
    · obtain ⟨p, hp⟩ := Option.ne_none_iff_exists'.mp hp
      rcases get?_record _ hp with ⟨e, he, hid, -⟩ | ⟨hp, -⟩
      · exact List.mem_append_right _ (hid ▸ List.mem_map_of_mem he)
      · exact List.mem_append_left _ (h.confirmationPending (by rw [get?_evict hp]; simp))
    · obtain ⟨p, hp⟩ := Option.ne_none_iff_exists'.mp hp
      rcases get?_record _ hp with ⟨e, he, hid, -⟩ | ⟨hp, -⟩
      · exact hfirst (hahead (hid ▸ List.mem_map_of_mem he))
      · exact List.mem_append_left _ (h.acknowledgementPending (by rw [get?_evict hp]; simp))
    · rcases h.confirmed hconfirmed with hfront | hkeep
      · exact Or.inl (.handed (hfirst hfront))
      · exact Or.inr (exists_remaining (.inr (.took (.ok [])) : ConfirmCall ⊕ ConfirmResult)
          hkeep fun hl => hl.elim)
    · exact (h.fits call (hmem call hcall)).mono (fun hfront => .handed (hfirst hfront))
        fun hc => hc

end InOrder

/-- What a sync brings writes to no request registry, and brings an acknowledgement
only behind the confirmation upstream made. -/
theorem received_kept (hown : M.Own c) (h : ReflTransGen M.Received s t)
    (hs : ∀ r ∈ s.cache, r.requestId = (M.acknowledgement c).requestId → c ∈ s.confirmed) :
    t.flow.requests = s.flow.requests ∧ t.confirmed = s.confirmed ∧
      ∀ r ∈ t.cache, r.requestId = (M.acknowledgement c).requestId → c ∈ s.confirmed := by
  induction h with
  | refl => exact ⟨rfl, rfl, hs⟩
  | tail _ hstep ih =>
    obtain ⟨hreq, hconfirmed, hcache⟩ := ih
    cases hstep with
    | moves _ => exact ⟨hreq, hconfirmed, hcache⟩
    | @confirmation c' _ =>
      refine ⟨hreq, hconfirmed, fun r hr hid => ?_⟩
      unfold Messages.peerConfirms at hr
      split at hr
      · next hmem =>
        rcases List.mem_append.mp hr with hr | hr
        · exact hcache r hr hid
        · -- the acknowledgement of a comparison this side has confirmed
          rw [List.mem_singleton] at hr
          subst hr
          by_cases hc : c' = c
          · rw [← hc, ← hconfirmed]
            exact hmem
          · exact absurd (hid ▸ M.acknowledgement_mem_ids c)
              (hown.others c' hc _ (M.acknowledgement_mem_ids c'))
      · exact hcache r hr hid
    | @reaction r' hforeign =>
      refine ⟨hreq, hconfirmed, fun r hr hid => ?_⟩
      rcases List.mem_append.mp hr with hr | hr
      · exact hcache r hr hid
      · rw [List.mem_singleton] at hr
        subst hr
        exact absurd (hid ▸ M.acknowledgement_mem_ids c) (hforeign c)

/-- A take's trip reads the acknowledgement only off the cache. -/
theorem fits_taking {o : Offered} {prepared : List Fresh} (ho : M.Answers s o)
    (hp : prepare account o = .ok prepared)
    (hs : ∀ r ∈ s.cache, r.requestId = (M.acknowledgement c).requestId → c ∈ s.confirmed) :
    (ConfirmCall.taking prepared).Fits M c handed s := by
  refine ⟨fun f hf => (mem_prepare hp hf).1, ?_⟩
  rintro ⟨f, hf, hid⟩
  rcases (mem_prepare hp hf).2 with ⟨rs, hrs, r, hr, hfr⟩ | ⟨r, hb, -⟩
  · obtain ⟨_, _, _, rfl⟩ := freshOf_ok hfr
    exact hs r (ho.upstream rs hrs ▸ hr) hid
  · exact absurd (hid ▸ M.acknowledgement_mem_ids c) (ho.backup _ hb c)

/-- A call that begins keeps nothing and has read nothing. -/
theorem inOrder_start {calls : List ConfirmCall} {l : ConfirmCall} (hbegins : l.Begins)
    (h : InOrder M c handed s calls) : InOrder M c handed s (calls ++ [l]) := by
  refine h.moved (Spares.refl _ _) rfl h.cached ?_ fun call hmem => ?_
  · rintro ⟨call, hmem, hkeeps⟩
    exact Or.inr ⟨call, List.mem_append_left _ hmem, hkeeps⟩
  · rcases List.mem_append.mp hmem with hmem | hmem
    · exact h.fits call hmem
    · rw [List.mem_singleton] at hmem
      subst hmem
      cases call with
      | queueing rest => exact hbegins.elim
      | taking prepared => exact hbegins.elim
      | _ => trivial

/-- What happens outside the calls writes nothing of the comparison's own. -/
theorem inOrder_world {calls : List ConfirmCall} {e : ConfirmMove}
    (hw : (confirming M account).world s e t) (h : InOrder M c handed s calls) :
    InOrder M c handed t calls := by
  cases e with
  | writes requests =>
    obtain ⟨hwrite, hshared⟩ := hw
    have hspares := hwrite.spares (y := (M.acknowledgement c).requestId) fun i hi heq =>
      hi c (heq ▸ M.acknowledgement_mem_ids c)
    rw [hshared]
    exact h.moved hspares rfl h.cached (fun hkeep => Or.inr hkeep) (h.fits_moved hspares rfl)
  | offers cache =>
    obtain ⟨hcache, hshared⟩ := hw
    rw [hshared]
    refine h.moved (Spares.refl _ _) rfl (fun r hr hid => ?_) (fun hkeep => Or.inr hkeep)
      (h.fits_moved (Spares.refl _ _) rfl)
    rcases hcache r hr with hr | hforeign
    · exact h.cached r hr hid
    · exact absurd (hid ▸ M.acknowledgement_mem_ids c) (hforeign c)
  | flows flow =>
    obtain ⟨hreq, hshared⟩ := hw
    have hspares : Spares (M.acknowledgement c).requestId s.flow.requests
      flow.requests := hreq ▸ Spares.refl _ _
    rw [hshared]
    exact h.moved hspares rfl h.cached (fun hkeep => Or.inr hkeep) (h.fits_moved hspares rfl)

/-- **A section that overtakes nothing keeps the books.** -/
theorem inOrder_section {before after : List ConfirmCall} {l : ConfirmCall}
    {res : ConfirmCall ⊕ ConfirmResult} (hown : M.Own c)
    (hfree : l.Read M c → ∀ other ∈ before ++ l :: after, ¬ other.Keeps M c)
    (h : InOrder M c handed s (before ++ l :: after)) (hnext : ConfirmNext M account s l t res) :
    InOrder M c (handed ++ handedIn [(.section l res : ConfirmEvent)]) t
      (before ++ (remaining res ++ after)) := by
  have hsame := h.cached
  cases hnext with
  | @finds _ l' f hl =>
    rw [handedIn_inl, List.append_nil]
    exact h.passed (.inl (.finding l')) hl.requests rfl hsame (fun hl => hl.elim)
      (by simp [ConfirmCall.Fits])
  | @findsNone _ f e hl =>
    rw [handedIn_inr, ConfirmResult.ids_confirmed, List.append_nil]
    exact h.passed (.inr (.confirmed (.error e))) hl.requests rfl hsame (fun hl => hl.elim)
      (by simp)
  | @found _ f handles hl =>
    rw [handedIn_inl, List.append_nil]
    exact h.passed (.inl (.checking handles)) hl.requests rfl hsame (fun hl => hl.elim)
      (by simp [ConfirmCall.Fits])
  | @refuses _ e _ =>
    rw [handedIn_inr, ConfirmResult.ids_confirmed, List.append_nil]
    exact h.passed (.inr (.confirmed (.error e))) rfl rfl hsame (fun hl => hl.elim) (by simp)
  | @checks _ c' _ =>
    rw [handedIn_inl, List.append_nil]
    exact h.passed (.inl (.confirming c')) rfl rfl hsame (fun hl => hl.elim)
      (by simp [ConfirmCall.Fits])
  | confirms _ _ hupload =>
    rw [handedIn_inl, List.append_nil]
    exact h.confirms hown hupload
  | confirmsNothing _ =>
    rw [handedIn_inl, List.append_nil]
    exact h.passed (.inl (.queueing [])) rfl rfl hsame (fun hl => hl.elim)
      (forall_mem_remaining_inl.mpr (Or.inr (precedes_of_not_mem (by simp))))
  | @confirmFails _ e _ =>
    rw [handedIn_inr, ConfirmResult.ids_confirmed, List.append_nil]
    exact h.passed (.inr (.confirmed (.error e))) rfl rfl hsame (fun hl => hl.elim) (by simp)
  | queues =>
    rw [handedIn_inl, List.append_nil]
    exact h.queues
  | returns =>
    rw [handedIn_inr, ConfirmResult.ids_confirmed, List.append_nil]
    refine h.passed (.inr (.confirmed (.ok ()))) rfl rfl hsame ?_ (by simp)
    rintro ⟨r, hr, -⟩
    cases hr
  | receives hreceived =>
    obtain ⟨hreq, hconfirmed, hcache⟩ := received_kept hown hreceived hsame
    rw [handedIn_inr, ConfirmResult.ids_synced, List.append_nil]
    exact h.passed (.inr .synced) hreq hconfirmed hcache (fun hl => hl.elim) (by simp)
  | @takeTrip o prepared ho hp =>
    rw [handedIn_inl, List.append_nil]
    exact h.passed (.inl (.taking prepared)) rfl rfl hsame (fun hl => hl.elim)
      (forall_mem_remaining_inl.mpr (fits_taking ho hp hsame))
  | @takeTripFails o e ho hp =>
    rw [handedIn_inr, ConfirmResult.ids_error, List.append_nil]
    exact h.passed (.inr (.took (.error e))) rfl rfl hsame (fun hl => hl.elim) (by simp)
  | takeSection =>
    rw [handedIn_inr]
    exact h.takes hfree

/-- **A step that overtakes nothing keeps the books.** -/
theorem inOrder_step {p q : ConfirmPool} {e : ConfirmEvent} (hown : M.Own c)
    (hG : Unovertaken M c p e) (hstep : (confirming M account).step p e q)
    (h : InOrder M c handed p.shared p.calls) :
    InOrder M c (handed ++ handedIn [e]) q.shared q.calls := by
  cases e with
  | start l =>
    obtain ⟨hbegins, rfl⟩ := hstep
    rw [handedIn_start, List.append_nil]
    exact inOrder_start hbegins h
  | world e =>
    obtain ⟨hw, hcalls⟩ := hstep
    rw [handedIn_world, List.append_nil, hcalls]
    exact inOrder_world hw h
  | «section» l res =>
    obtain ⟨before, after, hsplit, hnext, hcalls⟩ := hstep
    have hfree := hG l res rfl
    rw [hsplit] at h hfree
    rw [hcalls]
    exact inOrder_section hown hfree h hnext

/-- **The books are kept through every run** that overtakes nothing. -/
theorem inOrder_run {p q : ConfirmPool} {es : List ConfirmEvent} (hown : M.Own c)
    (hrun : ((confirmations M account).restrict (Unovertaken M c)).Run p es q)
    (h : InOrder M c [] p.shared p.calls) : InOrder M c (handedIn es) q.shared q.calls := by
  refine hrun.invariant_history
    (I := fun es (q : ConfirmPool) => InOrder M c (handedIn es) q.shared q.calls) ?_ h
  rintro es p e q hp ⟨hG, hstep⟩
  rw [handedIn_append]
  exact inOrder_step hown hG hstep hp

/-- Nothing was handed out or confirmed yet in a process that has just started. -/
theorem Messages.Initial.inOrder {M : Messages} {s : ConfirmState} (h : M.Initial s) (c : Sas) :
    InOrder M c [] s [] := by
  have hnone : ∀ i, ¬ s.flow.requests.Carries i := by
    intro i hc
    rw [h.requests] at hc
    cases hc with
    | toDevice h => cases h
    | claim h => cases h
    | stamped h =>
      cases h with
      | action h => cases h
      | signingKeys h => cases h
      | accountQuery h => cases h
    | peerQuery h => cases h
  have hpending : ∀ i, s.flow.requests.pending.get? i = none := fun i => by rw [h.requests]; rfl
  refine ⟨fun n i hq => absurd (.stamped hq) (hnone i), precedes_of_not_mem (by simp),
    fun hc => absurd hc (hnone _), fun hp => absurd (hpending _) hp,
    fun hp => absurd (hpending _) hp, fun r hr hid => ?_, fun hc => ?_, by simp⟩
  · exact absurd (hid ▸ M.acknowledgement_mem_ids c) (h.cache r hr c)
  · rw [h.confirmed] at hc
    cases hc

/-- **The confirmation of a comparison is returned before its acknowledgement**, in
an earlier batch or earlier in the same one, in every run in which no take that
read the acknowledgement overtakes a call that still keeps the confirmation. -/
theorem confirmation_precedes {p q : ConfirmPool} {es : List ConfirmEvent} (hown : M.Own c)
    (hinit : (confirmations M account).init p)
    (hrun : ((confirmations M account).restrict (Unovertaken M c)).Run p es q) :
    Precedes (M.confirmation c).requestId (M.acknowledgement c).requestId (handedIn es) := by
  obtain ⟨hshared, hcalls⟩ := hinit
  have hstart : InOrder M c [] p.shared p.calls := hcalls ▸ hshared.inOrder c
  exact (inOrder_run hown hrun hstart).precedes

end books

/-! ### A comparison this side confirms first

The strings are on screen, this side confirms, and the peer's confirmation arrives
with the next sync.  In the second run that sync and a take come before the call
that confirmed has queued anything. -/

/-- The comparison. -/
def shownComparison : Sas := ⟨0, "f1", "@bob:example.org", "BOB"⟩

/-- A message of the comparison, or of any other. -/
def closingMessage (eventType own other : String) (c : Sas) : UpstreamOutgoingRequest :=
  let id := if c = shownComparison then own else other
  ⟨id, .toDeviceRequest ⟨eventType, id, some (.obj [])⟩⟩

/-- The messages, under fixed ids. -/
def closingMessages : Messages where
  confirmation := closingMessage "m.key.verification.mac" "mac1" "mac2"
  acknowledgement := closingMessage "m.key.verification.done" "done1" "done2"

theorem closingMessages_own : closingMessages.Own shownComparison := by
  refine ⟨by decide, fun c hc i hi => ?_⟩
  have hids : closingMessages.ids c = ["mac2", "done2"] := by
    simp [Messages.ids, closingMessages, closingMessage, hc]
  rw [hids] at hi
  have hother : ∀ i ∈ ["mac2", "done2"], i ∉ closingMessages.ids shownComparison := by decide
  exact hother i hi

/-- The flow of the comparison, with the strings on screen. -/
def shownFlow : FlowState where
  flows := OrdMap.empty.insert "f1" (.fromComparison shownComparison)
  upstream := {
    userId := "@alice:example.org"
    deviceId := "ALICE"
    trackedUsers := ["@bob:example.org"]
    requestState := fun _ => .created
    sasState := fun _ => .keysExchanged none (1, 2, 3)
    codeState := fun _ => .started
    getVerificationRequest := fun _ _ => none
    negotiated := fun _ => ([], [])
    hasCodeKeys := fun _ => true
    scanError := fun _ _ => none
    verifications := fun _ => ∅
    getVerificationRequests := fun _ => [] }
  requests := .initial
  observed := false

/-- Nothing is confirmed. -/
def shownState : ConfirmState := ⟨shownFlow, [], [], []⟩

/-- The handles of the flow, once its call has looked. -/
def shownHandles : Handles := ⟨none, some shownComparison, none, none, Or.inr rfl⟩

/-- The call has looked. -/
def lookedState : ConfirmState :=
  { shownState with flow := { shownFlow with
    flows := (shownFlow.flows.cached shownFlow.upstream "f1").2 } }

/-- Upstream has confirmed. -/
def confirmedState : ConfirmState := lookedState.confirm shownComparison .confirmed

/-- A request is queued. -/
def ConfirmState.queue (s : ConfirmState) (r : UpstreamOutgoingRequest) : ConfirmState :=
  { s with flow := { s.flow with requests := s.flow.requests.queueActionRequest r } }

/-- The acknowledgement, as a take prepares it. -/
def preparedDone : List Fresh :=
  [⟨none, "done1", .toDevice, .obj [("event_type", .str "m.key.verification.done"),
    ("txn_id", .str "done1"), ("messages", .obj [])]⟩]

/-- The runs that overtake nothing. -/
abbrev orderly : TransitionSystem ConfirmPool ConfirmEvent :=
  (confirmations closingMessages "@alice:example.org").restrict
    (Unovertaken closingMessages shownComparison)

theorem shownState_initial : closingMessages.Initial shownState := ⟨rfl, rfl, by simp [shownState]⟩

/-- A section of the call begun last. -/
theorem closing_section {s t : ConfirmState} {l : ConfirmCall} {res : ConfirmCall ⊕ ConfirmResult}
    (before : List ConfirmCall)
    (h : ConfirmNext closingMessages "@alice:example.org" s l t res) :
    (confirmations closingMessages "@alice:example.org").step ⟨s, before ++ [l]⟩
      (.section l res) ⟨t, before ++ (remaining res ++ [])⟩ :=
  Calls.step_section (confirming closingMessages "@alice:example.org") before [] h

theorem closing_start {s : ConfirmState} (calls : List ConfirmCall) {l : ConfirmCall}
    (h : l.Begins) : (confirmations closingMessages "@alice:example.org").step ⟨s, calls⟩
      (.start l) ⟨s, calls ++ [l]⟩ :=
  Calls.step_start (confirming closingMessages "@alice:example.org") h

theorem orderly_start {s : ConfirmState} (calls : List ConfirmCall) {l : ConfirmCall}
    (h : l.Begins) : orderly.step ⟨s, calls⟩ (.start l) ⟨s, calls ++ [l]⟩ :=
  ⟨by rintro call res ⟨⟩, closing_start calls h⟩

/-- A section, with no call in flight before its own. -/
theorem orderly_section {s t : ConfirmState} {l : ConfirmCall} {res : ConfirmCall ⊕ ConfirmResult}
    (h : ConfirmNext closingMessages "@alice:example.org" s l t res)
    (hl : ¬ l.Keeps closingMessages shownComparison ∨
      ¬ l.Read closingMessages shownComparison) :
    orderly.step ⟨s, [l]⟩ (.section l res) ⟨t, remaining res ++ []⟩ := by
  refine ⟨?_, closing_section [] h⟩
  rintro call res' ⟨⟩ hread other hmem hkeeps
  rw [List.mem_singleton] at hmem
  subst hmem
  exact hl.elim (fun hnot => hnot hkeeps) fun hnot => hnot hread

/-- The call has looked up its flow, and upstream confirms the comparison. -/
theorem run_confirmedState : ∃ es, orderly.Run ⟨shownState, []⟩ es
    ⟨confirmedState, [.queueing [closingMessages.confirmation shownComparison]]⟩ ∧
      handedIn es = [] := by
  have hstart : orderly.step ⟨shownState, []⟩ (.start (.finding (.begins "f1"))) _ :=
    orderly_start [] trivial
  have hhit : LookupNext shownFlow (.begins "f1") _ (.inr (.ok shownHandles)) :=
    @LookupNext.hit shownFlow "f1" (.fromComparison shownComparison) rfl
  have hfound : ConfirmNext closingMessages "@alice:example.org" shownState
      (.finding (.begins "f1")) lookedState (.inl (.checking shownHandles)) := .found hhit
  have hchecks : ConfirmNext closingMessages "@alice:example.org" lookedState
      (.checking shownHandles) lookedState (.inl (.confirming shownComparison)) := .checks rfl
  have hconfirms : ConfirmNext closingMessages "@alice:example.org" lookedState
      (.confirming shownComparison) confirmedState
      (.inl (.queueing [closingMessages.confirmation shownComparison])) :=
    @ConfirmNext.confirms _ _ lookedState shownComparison .confirmed none rfl (Or.inl rfl) (by simp)
  exact ⟨_, .cons hstart (.cons (orderly_section hfound (Or.inl fun h => h.elim))
    (.cons (orderly_section hchecks (Or.inl fun h => h.elim))
      (.single (orderly_section hconfirms (Or.inl fun h => h.elim))))), rfl⟩

/-- The sync that brings the peer's confirmation. -/
theorem receives_confirmation {s : ConfirmState} (h : shownComparison ∉ s.peerConfirmed) :
    ConfirmNext closingMessages "@alice:example.org" s .receiving
      (closingMessages.peerConfirms s shownComparison) (.inr .synced) :=
  .receives (.single (.confirmation h))

/-- A take reads the acknowledgement off the cache. -/
theorem reads_done {s : ConfirmState}
    (h : s.cache = [closingMessages.acknowledgement shownComparison]) :
    ConfirmNext closingMessages "@alice:example.org" s .take s (.inl (.taking preparedDone)) := by
  have ho : closingMessages.Answers s
      ⟨.ok [closingMessages.acknowledgement shownComparison], none⟩ := by
    refine ⟨?_, fun b hb => by cases hb⟩
    rintro rs ⟨⟩
    exact h.symm
  exact .takeTrip ho rfl

/-- The confirmation is queued before the sync: it comes out first. -/
theorem confirmation_precedes_shownState : ∃ es q,
    orderly.Run ⟨shownState, []⟩ es q ∧ handedIn es = ["mac1", "done1"] ∧
      Precedes (closingMessages.confirmation shownComparison).requestId
        (closingMessages.acknowledgement shownComparison).requestId (handedIn es) := by
  obtain ⟨es, hprefix, hnone⟩ := run_confirmedState
  have hqueues : ConfirmNext closingMessages "@alice:example.org" confirmedState
      (.queueing [closingMessages.confirmation shownComparison])
      (confirmedState.queue (closingMessages.confirmation shownComparison))
      (.inl (.queueing [])) := .queues
  have hrun := TransitionSystem.Run.cons
    (orderly_section hqueues (Or.inr fun h => h.elim))
    (.cons (orderly_section .returns (Or.inr fun h => h.elim))
      (.cons (orderly_start [] (l := .receiving) trivial)
        (.cons (orderly_section (receives_confirmation (by simp [ConfirmState.queue,
            confirmedState, ConfirmState.confirm, lookedState, shownState]))
            (Or.inl fun h => h.elim))
          (.cons (orderly_start [] (l := .take) trivial)
            (.cons (orderly_section (reads_done rfl) (Or.inl fun h => h.elim))
              (.single (orderly_section .takeSection (Or.inl fun h => h.elim))))))))
  have hall := hprefix.append hrun
  refine ⟨_, _, hall, ?_,
    confirmation_precedes closingMessages_own ⟨shownState_initial, rfl⟩ hall⟩
  rw [handedIn_append, hnone]
  rfl

/-- **An acknowledgement overtakes its confirmation**: the sync and a take run
between upstream's `confirm` and the call's queueing. -/
theorem confirmation_overtaken : ∃ es q, closingMessages.Own shownComparison ∧
    (confirmations closingMessages "@alice:example.org").init ⟨shownState, []⟩ ∧
      (confirmations closingMessages "@alice:example.org").Run ⟨shownState, []⟩ es q ∧
        q.calls = [] ∧ handedIn es = ["done1", "done1", "mac1"] ∧
          ¬ Precedes (closingMessages.confirmation shownComparison).requestId
            (closingMessages.acknowledgement shownComparison).requestId (handedIn es) := by
  obtain ⟨es, hprefix, hnone⟩ := run_confirmedState
  have hqueues : ∀ s : ConfirmState, ConfirmNext closingMessages "@alice:example.org" s
      (.queueing [closingMessages.confirmation shownComparison])
      (s.queue (closingMessages.confirmation shownComparison)) (.inl (.queueing [])) :=
    fun _ => .queues
  have hsync := receives_confirmation (s := confirmedState) (by simp [confirmedState,
    ConfirmState.confirm, lookedState, shownState])
  obtain ⟨es', q, hrun, hidle, hids⟩ : ∃ es' q,
      (confirmations closingMessages "@alice:example.org").Run ⟨confirmedState,
        [.queueing [closingMessages.confirmation shownComparison]]⟩ es' q ∧
      q.calls = [] ∧ handedIn es' = ["done1", "done1", "mac1"] :=
    ⟨_, _, .cons (closing_start [.queueing _] (l := .receiving) trivial)
      (.cons (closing_section [.queueing _] hsync)
        (.cons (closing_start [.queueing _] (l := .take) trivial)
          (.cons (closing_section [.queueing _] (reads_done rfl))
            (.cons (closing_section [.queueing _] .takeSection)
              -- only now does the call queue what upstream handed back to it
              (.cons (closing_section [] (hqueues _))
                (.cons (closing_section [] .returns)
                  (.cons (closing_start [] (l := .take) trivial)
                    (.cons (closing_section [] (reads_done rfl))
                      (.single (closing_section [] .takeSection)))))))))), rfl, rfl⟩
  have hall : handedIn (es ++ es') = ["done1", "done1", "mac1"] := by
    rw [handedIn_append, hnone, hids, List.nil_append]
  refine ⟨_, _, closingMessages_own, ⟨shownState_initial, rfl⟩, hprefix.of_restrict.append hrun,
    hidle, hall, fun h => ?_⟩
  rw [hall] at h
  exact not_precedes_cons _ _ _ h

end MatrixCrypto
