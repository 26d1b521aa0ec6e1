import MatrixCrypto.Lib.Sections
import MatrixCrypto.Session.Mark

/-!
# The pump under interleaving

`take_outgoing_requests`, `share_scope_key` and `mark_request_sent` as calls in
flight: each trip to upstream and each section under the registry lock is one
atomic step, and any number of calls run at once.  Upstream offers a request
until it is told the request was sent, and never again after.

## Main definitions

* `PumpUpstream` — what upstream offers, and the ids it was told are sent.
* `PumpCall`, `PumpNext`, `pump` — the sections of the three calls.
* `Gone id` — the id waits nowhere and is pending nowhere.
* `ReadBefore` — a call in flight read the id from upstream earlier.

## Main results

* `gone_stable` — **an id that is gone stays gone**, in every interleaving.
* `resolved_stays_resolved` — a resolved id never comes back, in every run whose
  marks resolve an id while nothing in flight has read it and no queue holds it.
* `resolved_id_returned_again` — a run in which one does come back.
-/

namespace MatrixCrypto

open Lib Relation

/-! ### Upstream -/

/-- What upstream offers, and the ids it was told are sent. -/
structure PumpUpstream where
  /-- `outgoing_requests`. -/
  outgoing : List UpstreamOutgoingRequest
  /-- The pending backup batch. -/
  backup : Option (String × KeysBackupRequest)
  /-- `get_missing_sessions`. -/
  claim : Option (String × KeysClaimRequest)
  /-- `share_room_key`, over all scopes. -/
  shares : List ToDeviceRequest
  /-- The ids given to `mark_request_as_sent`. -/
  spent : List String
  outgoing_live : ∀ r ∈ outgoing, r.requestId ∉ spent
  backup_live : ∀ b, backup = some b → b.1 ∉ spent
  claim_live : ∀ c, claim = some c → c.1 ∉ spent
  shares_live : ∀ r ∈ shares, r.txnId ∉ spent

namespace PumpUpstream

/-- The answers one `take` trip may get: each question is answered with what is
offered, or fails. -/
structure Answers (u : PumpUpstream) (o : Offered) : Prop where
  upstream : ∀ rs, o.upstream = .ok rs → rs = u.outgoing
  backup : ∀ b, o.backup = some (.ok b) → b = u.backup

/-- What upstream offers may grow; nothing offered is withdrawn. -/
structure Grows (u v : PumpUpstream) : Prop where
  outgoing : ∀ r ∈ u.outgoing, r ∈ v.outgoing
  backup : ∀ b, u.backup = some b → v.backup = some b
  shares : ∀ r ∈ u.shares, r ∈ v.shares
  spent : v.spent = u.spent

/-- `mark_request_as_sent`: the request is offered no more. -/
def markAsSent (u : PumpUpstream) (id : String) : PumpUpstream where
  outgoing := u.outgoing.filter fun r => r.requestId ≠ id
  backup := u.backup.filter fun b => b.1 ≠ id
  claim := u.claim.filter fun c => c.1 ≠ id
  shares := u.shares.filter fun r => r.txnId ≠ id
  spent := id :: u.spent
  outgoing_live := by
    intro r hr
    obtain ⟨hr, hne⟩ := List.mem_filter.mp hr
    simpa using ⟨by simpa using hne, u.outgoing_live r hr⟩
  backup_live := by
    intro b hb
    obtain ⟨hb, hne⟩ := Option.filter_eq_some_iff.mp hb
    simpa using ⟨by simpa using hne, u.backup_live b hb⟩
  claim_live := by
    intro c hc
    obtain ⟨hc, hne⟩ := Option.filter_eq_some_iff.mp hc
    simpa using ⟨by simpa using hne, u.claim_live c hc⟩
  shares_live := by
    intro r hr
    obtain ⟨hr, hne⟩ := List.mem_filter.mp hr
    simpa using ⟨by simpa using hne, u.shares_live r hr⟩

end PumpUpstream

/-! ### The calls -/

/-- What every call reads and writes. -/
structure PumpState where
  requests : RequestState
  store : Store
  upstream : PumpUpstream

/-- A call in flight: what it is about to do, with what it holds. -/
inductive PumpCall
  | take
  /-- The trip is over; the batch prepared from it is at hand. -/
  | taking (prepared : List Fresh)
  | share
  /-- The trip is over; its three results are at hand. -/
  | sharing (missing : Except Unit (Option (String × KeysClaimRequest)))
      (shared : Except Unit (List ToDeviceRequest)) (tracked : Except Unit Unit)
  | mark (id body : String)
  /-- The id was looked up and the body not refused. -/
  | marking (id body : String) (kind : PendingKind)
  /-- Upstream has taken the response. -/
  | settling (id : String) (answer : AnswerAboutAccount)

/-- What a call returns. -/
inductive PumpResult
  | took (out : Except SessionError (List OutgoingRequest))
  | shared (out : Except SessionError Unit)
  | marked (id : String) (out : Except SessionError Unit)

/-- One section of a call. -/
inductive PumpNext (P : Parsers) (account : String) (s : PumpState) :
    PumpCall → PumpState → PumpCall ⊕ PumpResult → Prop
  | takeTrip {o : Offered} {prepared : List Fresh} (ho : s.upstream.Answers o)
      (h : prepare account o = .ok prepared) :
      PumpNext P account s .take s (.inl (.taking prepared))
  | takeTripFails {o : Offered} {e : SessionError} (ho : s.upstream.Answers o)
      (h : prepare account o = .error e) :
      PumpNext P account s .take s (.inr (.took (.error e)))
  | takeSection {prepared : List Fresh} :
      PumpNext P account s (.taking prepared)
        { s with requests := (s.requests.takeSection account prepared).2 }
        (.inr (.took (s.requests.takeSection account prepared).1))
  | shareTrip {u : PumpUpstream} {missing : Except Unit (Option (String × KeysClaimRequest))}
      {shared : Except Unit (List ToDeviceRequest)} {tracked : Except Unit Unit}
      (hu : s.upstream.Grows u) (hmissing : ∀ c, missing = .ok c → c = u.claim)
      (hshared : ∀ rs, shared = .ok rs → ∀ r ∈ rs, r ∈ u.shares) :
      PumpNext P account s .share { s with upstream := u } (.inl (.sharing missing shared tracked))
  | shareSection {missing : Except Unit (Option (String × KeysClaimRequest))}
      {shared : Except Unit (List ToDeviceRequest)} {tracked : Except Unit Unit} :
      PumpNext P account s (.sharing missing shared tracked)
        { s with requests := (s.requests.shareQueues missing shared tracked).2 }
        (.inr (.shared (s.requests.shareQueues missing shared tracked).1))
  | markLookup {id body : String} {entry : Pending}
      (hp : s.requests.pending.get? id = some entry)
      (hr : refuseANonResponse P entry.kind body = .ok ()) :
      PumpNext P account s (.mark id body) s (.inl (.marking id body entry.kind))
  | markUnknown {id body : String} (hp : s.requests.pending.get? id = none) :
      PumpNext P account s (.mark id body) s (.inr (.marked id (.error .unknownRequest)))
  | markRefused {id body : String} {entry : Pending} {e : SessionError}
      (hp : s.requests.pending.get? id = some entry)
      (hr : refuseANonResponse P entry.kind body = .error e) :
      PumpNext P account s (.mark id body) s (.inr (.marked id (.error e)))
  | markTrip {id body : String} {kind : PendingKind} {up : Consumed}
      {answer : AnswerAboutAccount} {store : Store}
      (h : markSent P account kind body s.store up = (.ok answer, store)) :
      PumpNext P account s (.marking id body kind)
        { s with store := store, upstream := s.upstream.markAsSent id }
        (.inl (.settling id answer))
  | markTripFails {id body : String} {kind : PendingKind} {up : Consumed} {e : SessionError}
      {store : Store} (h : markSent P account kind body s.store up = (.error e, store)) :
      PumpNext P account s (.marking id body kind) { s with store := store }
        (.inr (.marked id (.error e)))
  | markSection {id : String} {answer : AnswerAboutAccount} :
      PumpNext P account s (.settling id answer)
        { s with requests := s.requests.settle id answer } (.inr (.marked id (.ok ())))

/-- A call begins before its first section. -/
inductive PumpStart : PumpCall → Prop
  | take : PumpStart .take
  | share : PumpStart .share
  | mark (id body : String) : PumpStart (.mark id body)

/-- What else may happen between two sections. -/
inductive PumpMove
  /-- Upstream comes to offer more. -/
  | offers (u : PumpUpstream)
  /-- Another call queues what upstream handed back to it. -/
  | queues (t : RequestState)

/-- The three calls over one registry and one machine.  Another call queues only
ids upstream was not told are sent, and resolves none. -/
def pump (P : Parsers) (account : String) : Calls PumpState PumpCall PumpResult PumpMove where
  start := fun _ c => PumpStart c
  next := PumpNext P account
  world := fun s e t => match e with
    | .offers u => s.upstream.Grows u ∧ t = { s with upstream := u }
    | .queues r => r.pending = s.requests.pending ∧
        (∀ i, r.Carries i → s.requests.Carries i ∨ i ∉ s.upstream.spent) ∧
        t = { s with requests := r }

/-- An empty registry over any machine. -/
def PumpState.Initial (s : PumpState) : Prop := s.requests = .initial

/-! ### An id that is gone -/

/-- The id waits in no queue and is not pending, and upstream offers it no more. -/
structure PumpState.Gone (id : String) (s : PumpState) : Prop where
  queues : ¬ s.requests.Carries id
  pending : s.requests.pending.get? id = none
  spent : id ∈ s.upstream.spent

/-- The call read the id from upstream, and has not yet run its section. -/
def PumpCall.ReadBefore (id : String) : PumpCall → Prop
  | taking prepared => ∃ f ∈ prepared, f.id = id
  | sharing missing shared _ =>
    (∃ r, missing = .ok (some (id, r))) ∨ ∃ rs, shared = .ok rs ∧ ∃ r ∈ rs, r.txnId = id
  | _ => False

/-- The call does not return the id. -/
def PumpResult.Lacks (id : String) : PumpResult → Prop
  | took (.ok out) => ∀ r ∈ out, r.id ≠ id
  | _ => True

/-- Upstream answers no trip with an id it was told is sent. -/
theorem PumpUpstream.Answers.not_spent {account : String} {u : PumpUpstream} {o : Offered}
    {prepared : List Fresh} (ho : u.Answers o) (h : prepare account o = .ok prepared) {f : Fresh}
    (hf : f ∈ prepared) : f.id ∉ u.spent := by
  rcases (mem_prepare h hf).2 with ⟨rs, hrs, r, hr, hfr⟩ | ⟨r, hb, -⟩
  · obtain ⟨_, _, _, rfl⟩ := freshOf_ok hfr
    exact u.outgoing_live r (ho.upstream rs hrs ▸ hr)
  · unfold Offered.backupBatch at hb
    split at hb
    · next batch hbatch => exact u.backup_live (f.id, r) (ho.backup batch hbatch ▸ hb)
    · cases hb

/-- Handing a batch out brings no gone id back. -/
theorem gone_takeSection (account : String) {id : String} {s : PumpState} {prepared : List Fresh}
    (hs : s.Gone id) (hprep : ¬ (PumpCall.taking prepared).ReadBefore id) :
    PumpState.Gone id { s with requests := (s.requests.takeSection account prepared).2 } ∧
      (PumpResult.took (s.requests.takeSection account prepared).1).Lacks id := by
  cases hres : (s.requests.takeSection account prepared).1 with
  | error e =>
    rw [RequestState.takeSection_error hres]
    exact ⟨⟨hs.queues, hs.pending, hs.spent⟩, trivial⟩
  | ok out =>
    obtain ⟨fresh, hc, rfl, hleft⟩ := RequestState.takeSection_ok hres
    rw [hleft]
    refine ⟨⟨RequestState.not_carries_handedOut, ?_, hs.spent⟩, ?_⟩
    · by_contra hne
      rcases RequestState.get?_handedOut hc hne with h | h | h
      · exact hprep h
      · exact hs.queues h
      · exact h hs.pending
    · intro r hr
      obtain ⟨e, he, rfl⟩ := List.mem_map.mp hr
      rintro rfl
      rcases RequestState.carries_of_mem_handOut hc he with h | h
      · exact hprep h
      · exact hs.queues h

/-- One section of any call brings no gone id back, and leaves its own call
holding none. -/
theorem gone_next {P : Parsers} {account id : String} {s t : PumpState} {c : PumpCall}
    {r : PumpCall ⊕ PumpResult} (hs : s.Gone id) (hc : ¬ c.ReadBefore id)
    (h : PumpNext P account s c t r) :
    t.Gone id ∧ (∀ c', r = .inl c' → ¬ c'.ReadBefore id) ∧
      ∀ out, r = .inr out → out.Lacks id := by
  cases h with
  | takeTrip ho hp =>
    refine ⟨hs, ?_, by simp⟩
    rintro c' ⟨⟩ ⟨f, hf, rfl⟩
    exact ho.not_spent hp hf hs.spent
  | takeTripFails ho hp => exact ⟨hs, by simp, by rintro out ⟨⟩; trivial⟩
  | takeSection =>
    obtain ⟨hgone, hlacks⟩ := gone_takeSection account hs hc
    exact ⟨hgone, by simp, by rintro out ⟨⟩; exact hlacks⟩
  | @shareTrip u missing shared tracked hu hmissing hshared =>
    have hspent : id ∈ u.spent := hu.spent ▸ hs.spent
    refine ⟨⟨hs.queues, hs.pending, hspent⟩, ?_, by simp⟩
    rintro c' ⟨⟩ (⟨r, hr⟩ | ⟨rs, hrs, r, hr, rfl⟩)
    · exact u.claim_live _ (hmissing _ hr).symm hspent
    · exact u.shares_live r (hshared rs hrs r hr) hspent
  | @shareSection missing shared tracked =>
    refine ⟨⟨?_, ?_, hs.spent⟩, by simp, by rintro out ⟨⟩; trivial⟩
    · intro h
      rcases RequestState.carries_shareQueues h with h | h | h
      · exact hs.queues h
      · exact hc (Or.inl h)
      · exact hc (Or.inr h)
    · rw [RequestState.shareQueues_eq]
      exact hs.pending
  | markLookup hp hr => exact ⟨hs, by rintro c' ⟨⟩ ⟨⟩, by simp⟩
  | markUnknown hp => exact ⟨hs, by simp, by rintro out ⟨⟩; trivial⟩
  | markRefused hp hr => exact ⟨hs, by simp, by rintro out ⟨⟩; trivial⟩
  | markTrip h =>
    exact ⟨⟨hs.queues, hs.pending, List.mem_cons_of_mem _ hs.spent⟩, by rintro c' ⟨⟩ ⟨⟩, by simp⟩
  | markTripFails h => exact ⟨⟨hs.queues, hs.pending, hs.spent⟩, by simp, by rintro out ⟨⟩; trivial⟩
  | @markSection id' answer =>
    rw [RequestState.settle_eq]
    refine ⟨⟨?_, ?_, hs.spent⟩, by simp, by rintro out ⟨⟩; trivial⟩
    · intro h
      exact hs.queues (RequestState.carries_of_queues h (fun _ h => Or.inl h) (fun _ h => .claim h)
        rfl rfl rfl rfl)
    · show (s.requests.pending.erase id').get? id = none
      rw [OrdMap.get?_erase, hs.pending, ite_self]

/-- **An id that is gone stays gone**: no interleaving brings it back while no
call in flight has read it. -/
theorem gone_stable (P : Parsers) (account id : String) :
    (pump P account).Stable (fun _ _ => True) (PumpState.Gone id)
      (fun _ c => ¬ c.ReadBefore id) where
  start := by
    rintro p c - - hc
    cases hc <;> exact fun h => h
  own := by
    intro p c t r _ _ hs hc h
    obtain ⟨hgone, hread, -⟩ := gone_next hs hc h
    exact ⟨hgone, hread⟩
  other := fun _ _ _ _ _ _ _ _ _ hm _ => hm
  world := by
    rintro p e t - hs hw
    refine ⟨?_, fun _ hm => hm⟩
    cases e with
    | offers u =>
      obtain ⟨hu, rfl⟩ := hw
      exact ⟨hs.queues, hs.pending, hu.spent ▸ hs.spent⟩
    | queues r =>
      obtain ⟨hpend, hcarries, rfl⟩ := hw
      refine ⟨fun h => ?_, hpend ▸ hs.pending, hs.spent⟩
      rcases hcarries id h with h | h
      · exact hs.queues h
      · exact h hs.spent

/-! ### A resolved id -/

/-- A call about to settle an id has told upstream that it is sent. -/
def PumpCall.Told (s : PumpState) : PumpCall → Prop
  | settling id _ => id ∈ s.upstream.spent
  | _ => True

/-- Upstream forgets no id it was told is sent. -/
theorem spent_next {P : Parsers} {account : String} {s t : PumpState} {c : PumpCall}
    {r : PumpCall ⊕ PumpResult} (h : PumpNext P account s c t r) {id : String}
    (hid : id ∈ s.upstream.spent) : id ∈ t.upstream.spent := by
  cases h with
  | shareTrip hu _ _ => exact hu.spent ▸ hid
  | markTrip _ => exact List.mem_cons_of_mem _ hid
  | _ => exact hid

theorem told_mono {s t : PumpState} (h : ∀ id ∈ s.upstream.spent, id ∈ t.upstream.spent)
    {c : PumpCall} (hc : c.Told s) : c.Told t := by
  cases c with
  | settling id answer => exact h id hc
  | _ => trivial

theorem told_stable (P : Parsers) (account : String)
    (G : Pool PumpState PumpCall → Event PumpCall PumpResult PumpMove → Prop) :
    (pump P account).Stable G (fun _ => True) PumpCall.Told where
  start := by
    rintro p c - - hc
    cases hc <;> trivial
  own := by
    rintro p c t r - - - hc h
    refine ⟨trivial, ?_⟩
    cases h with
    | markTrip _ => rintro c' ⟨⟩; exact List.mem_cons_self
    | takeTrip _ _ => rintro c' ⟨⟩; trivial
    | shareTrip _ _ _ => rintro c' ⟨⟩; trivial
    | markLookup _ _ => rintro c' ⟨⟩; trivial
    | _ => simp
  other := fun _ _ _ _ _ _ _ _ _ hm h => told_mono (fun _ hid => spent_next h hid) hm
  world := by
    rintro p e t - - hw
    refine ⟨trivial, fun m hm => told_mono (fun id hid => ?_) hm⟩
    cases e with
    | offers u =>
      obtain ⟨hu, rfl⟩ := hw
      exact hu.spent ▸ hid
    | queues r =>
      obtain ⟨_, _, rfl⟩ := hw
      exact hid

/-- Every id is settled while it waits in no queue and no call in flight has read
it from upstream. -/
def SettledAlone (p : Pool PumpState PumpCall) (e : Event PumpCall PumpResult PumpMove) : Prop :=
  ∀ id answer r, e = .section (.settling id answer) r →
    ¬ p.shared.requests.Carries id ∧ ∀ c ∈ p.calls, ¬ c.ReadBefore id

/-- Only the last section of a mark returns its success, and then the id is gone. -/
theorem gone_of_resolved {P : Parsers} {account id : String} {p q : Pool PumpState PumpCall}
    {c : PumpCall} (hp : Calls.Asserted (fun _ => True) PumpCall.Told p)
    (halone : SettledAlone p (.section c (.inr (.marked id (.ok ())))))
    (hstep : (pump P account).step p (.section c (.inr (.marked id (.ok ())))) q) :
    Calls.Asserted (PumpState.Gone id) (fun _ c => ¬ c.ReadBefore id) q := by
  have hstayed : ∀ m ∈ q.calls, m ∈ p.calls := fun m hm =>
    (Calls.mem_of_section hstep hm).resolve_right (by simp)
  obtain ⟨before, after, hsplit, hnext, -⟩ := hstep
  have hmem : c ∈ p.calls := Calls.mem_of_split hsplit
  generalize hr : (.inr (.marked id (.ok ())) : PumpCall ⊕ PumpResult) = r at hnext
  generalize ht : q.shared = t at hnext
  cases hnext with
  | @markSection id' answer =>
    have hid : id = id' := by simpa using hr
    subst hid
    obtain ⟨hqueues, hread⟩ := halone id answer _ rfl
    have htold : id ∈ p.shared.upstream.spent := hp.2 _ hmem
    refine ⟨⟨?_, ?_, ?_⟩, fun m hm => hread m (hstayed m hm)⟩
    · rw [ht, RequestState.settle_eq]
      exact fun h => hqueues (RequestState.carries_of_queues h (fun _ h => Or.inl h)
        (fun _ h => .claim h) rfl rfl rfl rfl)
    · rw [ht]
      show (p.shared.requests.settle id answer).pending.get? id = none
      rw [RequestState.settle_pending, OrdMap.get?_erase, if_pos rfl]
    · rw [ht]; exact htold
  | _ => simp at hr

/-- **A resolved id never comes back**, in every run whose marks settle an id
while nothing else holds it: once a mark has returned, the id is not pending, and
no take that completes later returns it. -/
theorem resolved_stays_resolved {P : Parsers} {account id : String}
    {p q : Pool PumpState PumpCall} {c : PumpCall}
    {es₁ es₂ : List (Event PumpCall PumpResult PumpMove)}
    (hinit : ((pump P account).system PumpState.Initial).init p)
    (hrun : (((pump P account).system PumpState.Initial).restrict SettledAlone).Run p
      (es₁ ++ .section c (.inr (.marked id (.ok ()))) :: es₂) q) :
    q.shared.requests.pending.get? id = none ∧
      ∀ c' out, .section c' (.inr (.took (.ok out))) ∈ es₂ → ∀ r ∈ out, r.id ≠ id := by
  obtain ⟨p₁, hrun₁, hrest⟩ := hrun.split
  obtain ⟨p₂, ⟨halone, hstep⟩, hrun₂⟩ := hrest.uncons
  have hp : Calls.Asserted (fun _ => True) PumpCall.Told p := by
    obtain ⟨-, hcalls⟩ := hinit
    exact ⟨trivial, fun c hc => by rw [hcalls] at hc; cases hc⟩
  have hp₁ := (told_stable P account SettledAlone).run hrun₁ hp
  have hp₂ := gone_of_resolved hp₁ halone hstep
  -- from here on the id is gone, whatever the rest of the run does
  have hfree : (((pump P account).system PumpState.Initial).restrict fun _ _ => True).Run
      p₂ es₂ q := hrun₂.restrict_mono fun _ _ _ => trivial
  refine ⟨((gone_stable P account id).run hfree hp₂).1.pending, fun c' out hmem => ?_⟩
  have hlacks := (gone_stable P account id).results
    (fun _ _ _ _ _ hs hc h => (gone_next hs hc h).2.2 _ rfl) hfree hp₂ c' _ hmem
  exact hlacks

/-! ### One message, sent once and twice

Upstream offers one to-device message.  It is taken and marked; in the second run
another take has read it before the mark and completes after. -/

/-- Parsers that read the empty object, which is all a to-device send answers. -/
def emptyObjectParsers : Parsers where
  fromStr := fun text => if text = "\x7b\x7d" then some (.obj []) else none
  readsResponse := fun kind text => kind = .toDevice && text = "\x7b\x7d"
  keysQuery := fun text => if text = "\x7b\x7d" then some ⟨.empty, .empty, .empty, .empty⟩ else none

/-- The message. -/
def message : UpstreamOutgoingRequest :=
  ⟨"t1", .toDeviceRequest ⟨"m.dummy", "t1", some (.obj [])⟩⟩

/-- What a take prepares when it reads the message. -/
def preparedMessage : List Fresh :=
  [⟨none, "t1", .toDevice,
    .obj [("event_type", .str "m.dummy"), ("txn_id", .str "t1"), ("messages", .obj [])]⟩]

/-- A process whose upstream offers the message. -/
def offeringState : PumpState where
  requests := .initial
  store := ⟨none, none, false⟩
  upstream := {
    outgoing := [message]
    backup := none
    claim := none
    shares := []
    spent := []
    outgoing_live := by simp
    backup_live := by simp
    claim_live := by simp
    shares_live := by simp }

/-- The message is handed out. -/
def handedOutState : PumpState :=
  { offeringState with
    requests := (offeringState.requests.takeSection "@alice:example.org" preparedMessage).2 }

/-- Upstream is told that it was sent. -/
def toldState : PumpState :=
  { handedOutState with upstream := handedOutState.upstream.markAsSent "t1" }

/-- The mark returns. -/
def settledState : PumpState :=
  { toldState with requests := toldState.requests.settle "t1" .notAsked }

/-- The registry once another take has run its section after all. -/
def resurrectedState : PumpState :=
  { settledState with
    requests := (settledState.requests.takeSection "@alice:example.org" preparedMessage).2 }

/-- The pump of these runs, with every id settled alone. -/
abbrev messagePump : TransitionSystem (Pool PumpState PumpCall)
    (Event PumpCall PumpResult PumpMove) :=
  ((pump emptyObjectParsers "@alice:example.org").system PumpState.Initial).restrict SettledAlone

theorem settledAlone_of_ne {p : Pool PumpState PumpCall}
    {e : Event PumpCall PumpResult PumpMove}
    (h : ∀ id answer r, e ≠ .section (.settling id answer) r) : SettledAlone p e :=
  fun id answer r he => absurd he (h id answer r)

theorem message_start {s : PumpState} (calls : List PumpCall) {c : PumpCall} (h : PumpStart c) :
    messagePump.step ⟨s, calls⟩ (.start c) ⟨s, calls ++ [c]⟩ :=
  ⟨settledAlone_of_ne (by simp), Calls.step_start _ h⟩

/-- The call begun last runs a section that settles nothing. -/
theorem message_section {s t : PumpState} (calls : List PumpCall) {c : PumpCall}
    {r : PumpCall ⊕ PumpResult}
    (h : PumpNext emptyObjectParsers "@alice:example.org" s c t r)
    (hc : ∀ id answer, c ≠ .settling id answer := by simp) :
    messagePump.step ⟨s, calls ++ [c]⟩ (.section c r) ⟨t, calls ++ (remaining r ++ [])⟩ := by
  refine ⟨settledAlone_of_ne ?_, Calls.step_section _ calls [] h⟩
  rintro id answer r' ⟨⟩
  exact hc id answer rfl

theorem takeTrip_message (s : PumpState) (h : s.upstream = offeringState.upstream) :
    PumpNext emptyObjectParsers "@alice:example.org" s .take s
      (.inl (.taking preparedMessage)) := by
  have ho : s.upstream.Answers ⟨.ok [message], none⟩ := by
    refine ⟨?_, by simp⟩
    rintro rs ⟨⟩
    rw [h]
    rfl
  exact .takeTrip ho rfl

/-- The message is taken. -/
theorem run_handedOutState :
    ∃ es, messagePump.Run ⟨offeringState, []⟩ es ⟨handedOutState, []⟩ :=
  ⟨_, .cons (message_start [] .take)
    (.cons (message_section [] (takeTrip_message offeringState rfl))
      (.single (message_section [] .takeSection)))⟩

/-- The message is marked, up to the last section; `calls` are in flight
throughout. -/
theorem run_toldState (calls : List PumpCall) : ∃ es, messagePump.Run ⟨handedOutState, calls⟩ es
    ⟨toldState, calls ++ [.settling "t1" .notAsked]⟩ := by
  have hp : handedOutState.requests.pending.get? "t1" = some ⟨.toDevice, 0⟩ := rfl
  have hr : refuseANonResponse emptyObjectParsers .toDevice "\x7b\x7d" = .ok () := rfl
  have hm : markSent emptyObjectParsers "@alice:example.org" .toDevice "\x7b\x7d"
      handedOutState.store ⟨true, handedOutState.store, {}⟩ =
        (.ok .notAsked, handedOutState.store) := rfl
  exact ⟨_, .cons (message_start calls (.mark "t1" "\x7b\x7d"))
    (.cons (message_section calls (.markLookup hp hr))
      (.single (message_section calls (.markTrip hm))))⟩

/-- The run in which nothing else holds the message: it never comes back. -/
theorem message_stays_resolved : ∃ q es c' out, messagePump.Run ⟨settledState, []⟩ es q ∧
    .section c' (.inr (.took (.ok out))) ∈ es ∧
      q.shared.requests.pending.get? "t1" = none ∧ ∀ r ∈ out, r.id ≠ "t1" := by
  obtain ⟨es₁, hrun₁⟩ := run_handedOutState
  obtain ⟨es₂, hrun₂⟩ := run_toldState []
  -- the mark's last section, with nothing else in flight
  have halone : SettledAlone ⟨toldState, [.settling "t1" .notAsked]⟩
      (.section (.settling "t1" .notAsked) (.inr (.marked "t1" (.ok ())))) := by
    rintro id answer r ⟨⟩
    refine ⟨?_, by simp [PumpCall.ReadBefore]⟩
    exact RequestState.not_carries_handedOut
  have hmark : messagePump.step ⟨toldState, [.settling "t1" .notAsked]⟩ _ ⟨settledState, []⟩ :=
    ⟨halone, Calls.step_section _ [] [] .markSection⟩
  -- a take that completes afterwards
  have ho : settledState.upstream.Answers ⟨.ok [], none⟩ := ⟨by rintro rs ⟨⟩; rfl, by simp⟩
  have hprep : prepare "@alice:example.org" ⟨.ok [], none⟩ = .ok [] := rfl
  have htake : ∃ es q, messagePump.Run ⟨settledState, []⟩ es q ∧
      .section (.taking []) (.inr (.took (.ok []))) ∈ es :=
    ⟨_, _, .cons (message_start [] .take) (.cons (message_section [] (.takeTrip ho hprep))
      (.single (message_section [] .takeSection))),
      List.mem_cons_of_mem _ (List.mem_cons_of_mem _ List.mem_cons_self)⟩
  obtain ⟨es₃, q, hrun₃, hmem⟩ := htake
  have hrun := (hrun₁.append hrun₂).append (.cons hmark hrun₃)
  have hinit : messagePump.init ⟨offeringState, []⟩ := ⟨rfl, rfl⟩
  have hresolved := resolved_stays_resolved hinit hrun
  exact ⟨q, es₃, _, _, hrun₃, hmem, hresolved.1, hresolved.2 _ _ hmem⟩

/-- **A resolved id comes back**: the take that read it before the mark returns
it after. -/
theorem resolved_id_returned_again : ∃ p q c es₁ es₂,
    ((pump emptyObjectParsers "@alice:example.org").system PumpState.Initial).init p ∧
      ((pump emptyObjectParsers "@alice:example.org").system PumpState.Initial).Run p
        (es₁ ++ .section c (.inr (.marked "t1" (.ok ()))) :: es₂) q ∧
      q.shared.requests.pending.get? "t1" ≠ none ∧
      ∃ c' out, .section c' (.inr (.took (.ok out))) ∈ es₂ ∧ ∃ r ∈ out, r.id = "t1" := by
  obtain ⟨es₁, hrun₁⟩ := run_handedOutState
  -- a second take reads the message, which upstream still offers
  obtain ⟨es₂, hrun₂⟩ : ∃ es, messagePump.Run ⟨handedOutState, []⟩ es
      ⟨handedOutState, [.taking preparedMessage]⟩ :=
    ⟨_, .cons (message_start [] .take)
      (.single (message_section [] (takeTrip_message handedOutState rfl)))⟩
  obtain ⟨es₃, hrun₃⟩ := run_toldState [.taking preparedMessage]
  have hrun := ((hrun₁.append hrun₂).append hrun₃).of_restrict
  -- the mark returns, and then the second take runs its section
  have hmark : ((pump emptyObjectParsers "@alice:example.org").system PumpState.Initial).step
      ⟨toldState, [.taking preparedMessage, .settling "t1" .notAsked]⟩
      (.section (.settling "t1" .notAsked) (.inr (.marked "t1" (.ok ()))))
      ⟨settledState, [.taking preparedMessage]⟩ :=
    ⟨[.taking preparedMessage], [], rfl, .markSection, rfl⟩
  have htake : ((pump emptyObjectParsers "@alice:example.org").system PumpState.Initial).step
      ⟨settledState, [.taking preparedMessage]⟩
      (.section (.taking preparedMessage)
        (.inr (.took (.ok (preparedMessage.map fun f => ⟨f.id, f.kind.tag, f.body⟩)))))
      ⟨resurrectedState, []⟩ :=
    ⟨[], [], rfl, .takeSection, rfl⟩
  exact ⟨⟨offeringState, []⟩, _, _, _, _, ⟨rfl, rfl⟩, hrun.append (.cons hmark (.single htake)),
    by decide, _, _, List.mem_singleton.mpr rfl, _, List.mem_singleton.mpr rfl, rfl⟩

end MatrixCrypto
