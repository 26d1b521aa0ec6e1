import MatrixCrypto.App.Pump
import MatrixCrypto.Signing.Gate

/-!
# The identity gate behind a product

The gate that guards the creation of an identity opens on an answer the machine was told of.  A
product that reports through its pump alone tells it what a homeserver answered, so the gate opens
on an answer the homeserver gave, with a success, to a key query the library asked.

## Main definitions

* `Act`, `Surroundings.run` — what the product does, in any order.
* `AppState.NamesKinds` — an id names requests of one kind.
* `Surroundings.AnsweredByServer` — the answer behind the gate.

## Main results

* `gate_behind_exchange` — **the gate, and so a served create, stands behind an answer of the
  homeserver.**
-/

namespace MatrixCrypto
namespace App

open Lib Relation

/-! ### What the product does -/

/-- What the product does. -/
inductive Act
  | pump
  | sync (since : String)
  | callOff
  | call (c : Call)

/-- The call reports no success. -/
def NotMark (c : Call) : Prop := ∀ id body trip, c ≠ .markSent id body trip

/-- The product reports successes through its pump alone. -/
def Act.Silent : Act → Prop
  | call c => NotMark c
  | _ => True

namespace Surroundings

variable (E : Surroundings)

/-- Others report no success. -/
def Silent : Prop := ∀ s, ∀ c ∈ E.meanwhile s, NotMark c

/-- The product after what it did. -/
def perform (s : AppState) : Act → AppState
  | .pump => (E.pump s).2
  | .sync since => (E.syncOnce s since).2
  | .callOff => (E.deliverCallOff s).2
  | .call c => E.serve s c

/-- The product after all it did, in order. -/
def run (s : AppState) (acts : List Act) : AppState := acts.foldl E.perform s

end Surroundings

/-- Before anything happened, over any store. -/
structure AppState.Initial (s : AppState) : Prop where
  requests : s.process.requests = .initial
  handed : s.handed = []
  exchanges : s.exchanges = []

/-- An id names requests of one kind. -/
def AppState.NamesKinds (s : AppState) : Prop :=
  ∀ r ∈ s.handed, ∀ r' ∈ s.handed, r.id = r'.id → r.kind = r'.kind

namespace Surroundings

variable (E : Surroundings)

/-- The homeserver answered a key query of the library with a success, and the answer carried the
identity the store held or said that the account has none. -/
def AnsweredByServer (s : AppState) : Prop :=
  ∃ x ∈ s.exchanges, x.request ∈ s.handed ∧ x.request.kind = "keys_query" ∧
    x.call = ⟨"POST", E.plan.homeserver ++ "/_matrix/client/v3/keys/query", E.plan.accessToken,
      some x.request.body⟩ ∧
    x.response.isSuccess = true ∧
    ∃ t up response, E.consumed t = some up ∧
      E.parsers.keysQuery x.response.text = some response ∧
      (CarriesStoredIdentity E.account response up.store ∨
        SaysNoIdentity E.account response up.store)

/-- What every state keeps. -/
structure Known (s : AppState) : Prop where
  /-- What is pending was handed out, as what it is pending as. -/
  pending : ∀ i entry, s.process.requests.pending.get? i = some entry →
    ∃ r ∈ s.handed, r.id = i ∧ r.kind = entry.kind.tag
  exchanges : ∀ x ∈ s.exchanges, x.request ∈ s.handed ∧ callFor E.plan x.request = some x.call
  gate : s.NamesKinds → s.process.requests.accountKeysAnswered = true → E.AnsweredByServer s

end Surroundings

/-! ### What becomes of what is pending -/

theorem pending_of_queueing {s t : RequestState} (h : Queueing s t) : t.pending = s.pending := by
  cases h with
  | action r => exact RequestState.queueActionRequest_pending s r
  | toDevice rs => rw [RequestState.queueToDeviceRequests_eq]
  | claim c => cases c <;> rfl
  | accountQuery id r => rfl
  | peerQuery id r => rfl

theorem pending_of_queues {s t : RequestState} (h : ReflTransGen Queueing s t) :
    t.pending = s.pending := by
  induction h with
  | refl => rfl
  | tail _ hstep ih => rw [pending_of_queueing hstep, ih]

theorem pending_queuePublication (s : RequestState) (up : Publishing)
    (requests : BootstrapRequests) : (s.queuePublication up requests).pending = s.pending := by
  rw [RequestState.queuePublication, RequestState.queueActionRequest_pending]
  show (s.queueDeviceKeys requests.uploadKeysReq).pending = s.pending
  exact pending_of_queues (queueing_queueDeviceKeys s _)

/-- A call that takes nothing makes nothing pending. -/
theorem pending_of_after {P : Parsers} {account : String} {p : Process} {c : Call}
    (hc : ∀ trip, c ≠ .take trip) {i : String} {entry : Pending}
    (h : (c.after P account p).requests.pending.get? i = some entry) :
    p.requests.pending.get? i = some entry := by
  have heffect := after_requests P account p c
  generalize (c.after P account p).requests = t at heffect h
  cases heffect with
  | queues hq => rwa [pending_of_queues hq] at h
  | publishes up requests =>
    have hsame : ((p.requests.queuePublication up requests).queueAccountKeyQuery up.queryId
        up.query).pending = p.requests.pending := pending_queuePublication _ up requests
    rwa [hsame] at h
  | drains fresh _ => exact absurd rfl (hc _)
  | settles answer =>
    rw [RequestState.settle_pending, OrdMap.get?_erase] at h
    split at h
    · cases h
    · exact h

/-- What is pending after a call was handed out by it, or was pending. -/
theorem pending_of_call {P : Parsers} {account : String} {p : Process} {c : Call} {i : String}
    {entry : Pending} (h : (c.after P account p).requests.pending.get? i = some entry) :
    (∃ r ∈ handedBy account p c, r.id = i ∧ r.kind = entry.kind.tag) ∨
      p.requests.pending.get? i = some entry := by
  by_cases htake : ∃ trip, c = .take trip
  · obtain ⟨trip, rfl⟩ := htake
    change (p.requests.takeOutgoingRequests account trip).2.pending.get? i = some entry at h
    cases hres : (p.requests.takeOutgoingRequests account trip).1 with
    | error e =>
      rw [RequestState.takeOutgoingRequests_error hres] at h
      exact Or.inr h
    | ok out =>
      obtain ⟨_, prepared, -, -, hsection, heq⟩ := RequestState.takeOutgoingRequests_ok hres
      obtain ⟨fresh, -, rfl, hleft⟩ := RequestState.takeSection_ok hsection
      rw [heq, hleft] at h
      rcases get?_record _ h with ⟨e, he, hid, rfl⟩ | ⟨hp, -⟩
      · refine Or.inl ⟨e.outgoing, ?_, hid, rfl⟩
        simp only [handedBy, hres]
        exact List.mem_map_of_mem he
      · exact Or.inr (get?_evict hp)
  · exact Or.inr (pending_of_after (fun trip heq => htake ⟨trip, heq⟩) h)

/-! ### What every step keeps -/

namespace Surroundings

variable {E : Surroundings} {s t : AppState}

/-- What was known is known, of everything that was handed out. -/
structure Keeps (E : Surroundings) (s t : AppState) : Prop where
  known : E.Known t
  handed : ∀ r ∈ s.handed, r ∈ t.handed
  exchanges : ∀ x ∈ s.exchanges, x ∈ t.exchanges

theorem Keeps.trans {u : AppState} (h : E.Keeps s t) (h' : E.Keeps t u) : E.Keeps s u where
  known := h'.known
  handed := fun r hr => h'.handed r (h.handed r hr)
  exchanges := fun x hx => h'.exchanges x (h.exchanges x hx)

theorem Keeps.refl (hs : E.Known s) : E.Keeps s s := ⟨hs, fun _ hr => hr, fun _ hx => hx⟩

theorem AnsweredByServer.mono (h : E.AnsweredByServer s) (hhanded : ∀ r ∈ s.handed, r ∈ t.handed)
    (hexchanges : ∀ x ∈ s.exchanges, x ∈ t.exchanges) : E.AnsweredByServer t := by
  obtain ⟨x, hx, hr, hrest⟩ := h
  exact ⟨x, hexchanges x hx, hhanded _ hr, hrest⟩

theorem NamesKinds.of_subset (h : t.NamesKinds) (hhanded : ∀ r ∈ s.handed, r ∈ t.handed) :
    s.NamesKinds := fun r hr r' hr' => h r (hhanded r hr) r' (hhanded r' hr')

/-- What a call keeps, where it may turn the gate. -/
theorem keeps_serve_of_gate (hs : E.Known s) (c : Call)
    (hgate : s.NamesKinds → (E.serve s c).process.requests.accountKeysAnswered = true →
      s.process.requests.accountKeysAnswered = false → E.AnsweredByServer s) :
    E.Keeps s (E.serve s c) := by
  have hhanded : ∀ r ∈ s.handed, r ∈ (E.serve s c).handed := fun r hr =>
    List.mem_append_left _ hr
  refine ⟨⟨fun i entry hi => ?_, fun x hx => ?_, fun hnames hopen => ?_⟩, hhanded, fun _ hx => hx⟩
  · rcases pending_of_call hi with ⟨r, hr, hid, hkind⟩ | hp
    · exact ⟨r, List.mem_append_right _ hr, hid, hkind⟩
    · obtain ⟨r, hr, hid, hkind⟩ := hs.pending i entry hp
      exact ⟨r, hhanded r hr, hid, hkind⟩
  · exact ⟨hhanded _ (hs.exchanges x hx).1, (hs.exchanges x hx).2⟩
  · have hnames' := NamesKinds.of_subset hnames hhanded
    have hanswered : E.AnsweredByServer s := by
      cases hbefore : s.process.requests.accountKeysAnswered with
      | true => exact hs.gate hnames' hbefore
      | false => exact hgate hnames' hopen hbefore
    exact hanswered.mono hhanded fun _ hx => hx

/-- A call that reports no success opens no gate. -/
theorem keeps_serve (hs : E.Known s) {c : Call} (hc : NotMark c) : E.Keeps s (E.serve s c) := by
  refine keeps_serve_of_gate hs c fun _ hopen hbefore => ?_
  have hsame : (E.serve s c).process.requests.accountKeysAnswered =
      s.process.requests.accountKeysAnswered := answered_unchanged hc
  rw [hsame, hbefore] at hopen
  cases hopen

theorem keeps_foldl (cs : List Call) : ∀ s : AppState, E.Known s → (∀ c ∈ cs, NotMark c) →
    E.Keeps s (cs.foldl E.serve s) := by
  induction cs with
  | nil => exact fun s hs _ => .refl hs
  | cons c cs ih =>
    intro s hs hcs
    have hstep := keeps_serve hs (hcs c List.mem_cons_self)
    exact hstep.trans (ih _ hstep.known fun c' hc' => hcs c' (List.mem_cons_of_mem _ hc'))

theorem keeps_await (hE : E.Silent) (hs : E.Known s) : E.Keeps s (E.await s) := by
  have hs' : E.Known { s with awaited := s.awaited + 1 } := ⟨hs.pending, hs.exchanges, hs.gate⟩
  have hrest := keeps_foldl (E.meanwhile s) _ hs' (hE s)
  exact ⟨hrest.known, hrest.handed, hrest.exchanges⟩

/-- **A report opens the gate only on what the homeserver answered.** -/
theorem keeps_report (hs : E.Known s) {x : Exchange} (hx : x ∈ s.exchanges) :
    E.Keeps s (E.report s x.request x.response).2 := by
  unfold report
  cases hsuccess : x.response.isSuccess with
  | false => exact keeps_serve hs fun id body trip h => by cases h
  | true =>
    refine keeps_serve_of_gate hs (.markSent x.request.id x.response.text (E.consumed s))
      fun hnames hopen hbefore => ?_
    obtain ⟨-, entry, up, response, hpending, hkind, hup, hread, hsays⟩ :=
      accountKeysAnswered_markRequestSent hbefore hopen
    -- the request that is settled was handed out as a key query, and so is the one that was posted
    obtain ⟨r, hr, hid, htag⟩ := hs.pending _ _ hpending
    have hquery : x.request.kind = "keys_query" := by
      rw [hnames _ (hs.exchanges x hx).1 r hr hid.symm, htag]
      rcases hkind with h | h <;> rw [h] <;> rfl
    have hcall : callFor E.plan x.request = some x.call := (hs.exchanges x hx).2
    have hposted : callFor E.plan x.request = some ⟨"POST",
        E.plan.homeserver ++ "/_matrix/client/v3/keys/query", E.plan.accessToken,
        some x.request.body⟩ := by
      unfold callFor methodAndPath
      rw [hquery]
      rfl
    exact ⟨x, hx, (hs.exchanges x hx).1, hquery, Option.some.inj (hcall.symm.trans hposted),
      hsuccess, s, up, response, hup, hread, hsays⟩

/-- An answer is remembered beside its request. -/
theorem keeps_exchange (hs : E.Known s) {x : Exchange} (hr : x.request ∈ s.handed)
    (hcall : callFor E.plan x.request = some x.call) :
    E.Keeps s { s with exchanges := s.exchanges ++ [x] } := by
  refine ⟨⟨hs.pending, fun y hy => ?_, fun hnames hopen => ?_⟩, fun _ h => h,
    fun _ hy => List.mem_append_left _ hy⟩
  · rcases List.mem_append.mp hy with hy | hy
    · exact hs.exchanges y hy
    · rw [List.mem_singleton.mp hy]
      exact ⟨hr, hcall⟩
  · exact (hs.gate hnames hopen).mono (fun _ h => h) fun y hy => List.mem_append_left _ hy

theorem keeps_post (hE : E.Silent) (hs : E.Known s) {request : OutgoingRequest}
    (hr : request ∈ s.handed) : E.Keeps s (E.post s request).2 := by
  unfold post
  cases hcall : callFor E.plan request with
  | none => exact .refl hs
  | some call =>
    have hawait := keeps_await hE hs
    cases hhttp : E.http (E.await s) call with
    | none =>
      simp only [hhttp]
      exact hawait
    | some response =>
      simp only [hhttp]
      let x : Exchange := ⟨request, call, response⟩
      have hexchange := keeps_exchange (x := x) hawait.known (hawait.handed request hr) hcall
      have hwait := keeps_await hE hexchange.known
      have hx : x ∈
          (E.await { E.await s with exchanges := (E.await s).exchanges ++ [x] }).exchanges :=
        hwait.exchanges x (List.mem_append_right _ (List.mem_singleton_self x))
      exact ((hawait.trans hexchange).trans hwait).trans (keeps_report hwait.known hx)

theorem keeps_postAll (hE : E.Silent) (requests : List OutgoingRequest) : ∀ s : AppState,
    E.Known s → (∀ r ∈ requests, r ∈ s.handed) → E.Keeps s (E.postAll requests s).2 := by
  induction requests with
  | nil => exact fun s hs _ => .refl hs
  | cons request requests ih =>
    intro s hs hrequests
    have hstep := keeps_post hE hs (hrequests request List.mem_cons_self)
    unfold postAll
    rcases hresult : E.post s request with ⟨_ | _, t⟩ <;> rw [hresult] at hstep
    · exact hstep
    · exact hstep.trans (ih t hstep.known fun r hr =>
        hstep.handed r (hrequests r (List.mem_cons_of_mem _ hr)))

theorem keeps_pump (hE : E.Silent) (hs : E.Known s) : E.Keeps s (E.pump s).2 := by
  have hawait := keeps_await hE hs
  cases hres : ((E.await s).process.requests.takeOutgoingRequests E.account
      (E.offered (E.await s))).1 with
  | error e =>
    unfold pump
    simp only [hres]
    exact hawait
  | ok out =>
    rw [pump_of_take hres]
    have htake : E.Keeps (E.await s) (E.serve (E.await s) (.take (E.offered (E.await s)))) :=
      keeps_serve hawait.known fun id body trip h => by cases h
    refine (hawait.trans htake).trans (keeps_postAll hE out _ htake.known fun r hr => ?_)
    refine List.mem_append_right _ ?_
    simp only [handedBy, hres]
    exact hr

theorem keeps_syncOnce (hE : E.Silent) (hs : E.Known s) (since : String) :
    E.Keeps s (E.syncOnce s since).2 := by
  have hawait := keeps_await hE hs
  unfold syncOnce
  cases hhttp : E.http (E.await s) (E.syncCall since) with
  | none =>
    simp only [hhttp]
    exact hawait
  | some response =>
    simp only [hhttp]
    split
    · exact hawait
    · split
      · exact hawait
      · next body _ =>
        have hwait := keeps_await hE hawait.known
        split
        · exact hawait.trans hwait
        · next store _ =>
          have hstore : E.Keeps _ (E.serve (E.await (E.await s)) (.upstream store)) :=
            keeps_serve hwait.known fun id body trip h => by cases h
          have hpump := keeps_pump hE hstore.known
          split
          · next heq =>
            rw [heq] at hpump
            exact ((hawait.trans hwait).trans hstore).trans hpump
          · next heq =>
            rw [heq] at hpump
            exact ((hawait.trans hwait).trans hstore).trans hpump

theorem keeps_deliver (hE : E.Silent) (n : ℕ) : ∀ s : AppState, E.Known s →
    E.Keeps s (E.deliver n s).2 := by
  induction n with
  | zero => exact fun s hs => .refl hs
  | succ n ih =>
    intro s hs
    have hpump := keeps_pump hE hs
    unfold deliver
    split
    · next heq =>
      rw [heq] at hpump
      exact hpump
    · next heq =>
      rw [heq] at hpump
      split
      · exact hpump
      · have hawait := keeps_await hE hpump.known
        exact (hpump.trans hawait).trans (ih _ hawait.known)

theorem keeps_perform (hE : E.Silent) (hs : E.Known s) {act : Act} (hact : act.Silent) :
    E.Keeps s (E.perform s act) := by
  cases act with
  | pump => exact keeps_pump hE hs
  | sync since => exact keeps_syncOnce hE hs since
  | callOff => exact keeps_deliver hE _ s hs
  | call c => exact keeps_serve hs hact

theorem known_run (hE : E.Silent) (acts : List Act) : ∀ s : AppState, E.Known s →
    (∀ act ∈ acts, act.Silent) → E.Known (E.run s acts) := by
  induction acts with
  | nil => exact fun s hs _ => hs
  | cons act acts ih =>
    intro s hs hacts
    have hstep := keeps_perform hE hs (hacts act List.mem_cons_self)
    exact ih _ hstep.known fun act' hact' => hacts act' (List.mem_cons_of_mem _ hact')

theorem known_initial (hs : s.Initial) : E.Known s where
  pending := by
    intro i entry hi
    rw [hs.requests] at hi
    cases hi
  exchanges := by
    intro x hx
    rw [hs.exchanges] at hx
    cases hx
  gate := by
    intro _ hopen
    rw [hs.requests] at hopen
    cases hopen

/-- **The gate stands behind an answer of the homeserver**: a product that reports successes through
its pump alone, in any order of pumps, syncs, call-offs and other calls, opens it only on a success
the homeserver answered a key query with; a served create stands behind one too. -/
theorem gate_behind_exchange (hE : E.Silent) (hs : s.Initial) {acts : List Act}
    (hacts : ∀ act ∈ acts, act.Silent) (hnames : (E.run s acts).NamesKinds) :
    ((E.run s acts).process.requests.accountKeysAnswered = true →
      E.AnsweredByServer (E.run s acts)) ∧
    ∀ trip, (createIdentity (E.run s acts).process trip).1 = .ok () →
      E.AnsweredByServer (E.run s acts) := by
  have hknown := known_run hE acts s (known_initial hs) hacts
  refine ⟨hknown.gate hnames, fun trip hserved => ?_⟩
  obtain ⟨_, _, _, _, hanswered, -, -⟩ := createIdentity_served hserved
  exact hknown.gate hnames hanswered

/-! ### A homeserver that holds no identity -/

/-- The library asks about the account, and the homeserver answers. -/
def answering : Surroundings where
  parsers := noIdentityParsers
  account := "@alice:example.org"
  plan := ⟨"https://example.org", "@alice:example.org", "PHONE", "token"⟩
  offered := fun _ => some ⟨.ok [⟨"q1", .keysQuery aliceQuery⟩], none⟩
  consumed := fun _ => some ⟨true, noIdentityStore, {}⟩
  http := fun _ _ => some ⟨200, noIdentityBody⟩
  parse := fun _ => none
  received := fun _ _ => none
  meanwhile := fun _ => []

/-- A product that has just started. -/
def started : AppState := ⟨freshProcess, [], [], 0⟩

/-- One pump opens the gate. -/
theorem gate_behind_exchange_answered :
    (answering.run started [.pump]).process.requests.accountKeysAnswered = true ∧
      answering.AnsweredByServer (answering.run started [.pump]) := by
  have hsilent : answering.Silent := fun _ _ h => absurd h (by simp [answering])
  have hnames : (answering.run started [.pump]).NamesKinds := by
    intro r hr r' hr' _
    have hone : (answering.run started [.pump]).handed =
        [⟨"q1", "keys_query",
          .obj [("device_keys", .obj [("@alice:example.org", .arr [])])]⟩] := rfl
    rw [hone, List.mem_singleton] at hr hr'
    rw [hr, hr']
  have hopen : (answering.run started [.pump]).process.requests.accountKeysAnswered = true := rfl
  have hacts : ∀ act ∈ [Act.pump], act.Silent := by simp [Act.Silent]
  exact ⟨hopen, (gate_behind_exchange hsilent ⟨rfl, rfl, rfl⟩ hacts hnames).1 hopen⟩

end Surroundings

end App
end MatrixCrypto
