import MatrixCrypto.Process

/-!
# The identity gate over whole runs

`account_keys_answered` is the fact the gate is built on.  It starts false, and
over any run of the process only an accepted answer that settles turns it on.

## Main definitions

* `SettlingMark` — a mark whose accepted answer says what the account has.

## Main results

* `answered_unchanged` — no other call touches the flag.
* `gate_only_behind_settling_mark` — **the flag, and so a served create, stands
  behind such a mark in every run.**
-/

namespace MatrixCrypto

open Lib Relation

/-- A mark that succeeded for a query about the account, whose answer upstream
consumed and which then carried the stored identity or said there is none. -/
def SettlingMark (P : Parsers) (account : String) (p : Process) (c : Call) (_ : Process) : Prop :=
  ∃ id body up entry response, c = .markSent id body (some up) ∧
    (markRequestSent P account p id body (some up)).1 = .ok () ∧
    p.requests.pending.get? id = some entry ∧
    (entry.kind = .accountKeysQuery ∨ entry.kind = .accountKeysQueryOutOfBand) ∧
    P.keysQuery body = some response ∧
    (CarriesStoredIdentity account response up.store ∨ SaysNoIdentity account response up.store)

/-! ### Who touches the flag -/

theorem answered_of_queueing {s t : RequestState} (h : Queueing s t) :
    t.accountKeysAnswered = s.accountKeysAnswered := by
  cases h with
  | action r => exact RequestState.queueActionRequest_accountKeysAnswered s r
  | toDevice rs => rw [RequestState.queueToDeviceRequests_eq]
  | claim c => cases c <;> rfl
  | accountQuery id r => rfl
  | peerQuery id r => rfl

theorem answered_of_queues {s t : RequestState} (h : ReflTransGen Queueing s t) :
    t.accountKeysAnswered = s.accountKeysAnswered := by
  induction h with
  | refl => rfl
  | tail _ hstep ih => rw [answered_of_queueing hstep, ih]

theorem answered_queuePublication (s : RequestState) (up : Publishing)
    (requests : BootstrapRequests) :
    (s.queuePublication up requests).accountKeysAnswered = s.accountKeysAnswered := by
  rw [RequestState.queuePublication, RequestState.queueActionRequest_accountKeysAnswered]
  show (s.queueDeviceKeys requests.uploadKeysReq).accountKeysAnswered = _
  exact answered_of_queues (queueing_queueDeviceKeys s _)

/-- Only a mark touches the flag. -/
theorem answered_unchanged {P : Parsers} {account : String} {p : Process} {c : Call}
    (hc : ∀ id body trip, c ≠ .markSent id body trip) :
    (c.after P account p).requests.accountKeysAnswered = p.requests.accountKeysAnswered := by
  have heffect := after_requests P account p c
  generalize (c.after P account p).requests = t at heffect
  cases heffect with
  | queues h => exact answered_of_queues h
  | publishes up requests => exact answered_queuePublication _ up requests
  | drains fresh _ => rfl
  | settles answer => exact absurd rfl (hc _ _ _)

/-- A call that turns the flag on is a settling mark. -/
theorem settlingMark_of_turned {P : Parsers} {account : String} {p : Process} {c : Call}
    (hp : p.requests.accountKeysAnswered = false)
    (hq : (c.after P account p).requests.accountKeysAnswered = true) :
    SettlingMark P account p c (c.after P account p) := by
  cases c with
  | markSent id body trip =>
    obtain ⟨hok, entry, up, response, hpend, hkind, rfl, hresp, hsays⟩ :=
      accountKeysAnswered_markRequestSent hp hq
    exact ⟨id, body, up, entry, response, rfl, hok, hpend, hkind, hresp, hsays⟩
  | _ =>
    rw [answered_unchanged (by simp), hp] at hq
    cases hq

/-- The flag stands behind a settling mark. -/
theorem earlier_settlingMark {P : Parsers} {account : String} {p₀ p : Process} {cs : List Call}
    (hinit : (process P account).init p₀) (hrun : (process P account).Run p₀ cs p)
    (hp : p.requests.accountKeysAnswered = true) :
    (process P account).Earlier (SettlingMark P account) p₀ cs p := by
  have hinit : p₀.requests = .initial := hinit
  refine hrun.earlier_of_turned (F := fun p => p.requests.accountKeysAnswered = true) ?_ ?_ hp
  · rintro p c q rfl hp hq
    exact settlingMark_of_turned (by simpa using hp) hq
  · rw [hinit]
    decide

/-- **The gate over whole runs.**  The flag is up only behind a settling mark, and
a create is served only behind one, over a store with no identity or one recorded
as unpublished. -/
theorem gate_only_behind_settling_mark {P : Parsers} {account : String} {p₀ p : Process}
    {cs : List Call} (hinit : (process P account).init p₀)
    (hrun : (process P account).Run p₀ cs p) :
    (p.requests.accountKeysAnswered = true →
      (process P account).Earlier (SettlingMark P account) p₀ cs p) ∧
    ∀ trip, (createIdentity p trip).1 = .ok () →
      (process P account).Earlier (SettlingMark P account) p₀ cs p ∧
        p.store.NoneOrUnpublished := by
  refine ⟨earlier_settlingMark hinit hrun, fun trip hserved => ?_⟩
  obtain ⟨_, _, _, _, hanswered, hstore, _⟩ := createIdentity_served hserved
  exact ⟨earlier_settlingMark hinit hrun hanswered, hstore⟩

/-! ### A run that creates an identity

An account that has none: it is asked about, the answer says so, and a create is
served. -/

/-- The answer of a homeserver that holds no identity for the account. -/
def noIdentityBody : String := "\x7b\"device_keys\":\x7b\"@alice:example.org\":\x7b\x7d\x7d\x7d"

/-- Parsers that read that answer, and no other text. -/
def noIdentityParsers : Parsers where
  fromStr := fun text => if text = noIdentityBody then
    some (.obj [("device_keys", .obj [("@alice:example.org", .obj [])])]) else none
  readsResponse := fun _ _ => false
  keysQuery := fun text => if text = noIdentityBody then
    some ⟨OrdMap.empty.insert "@alice:example.org" (.obj []), .empty, .empty, .empty⟩ else none

/-- A key query that names the account. -/
def aliceQuery : KeysQueryRequest where
  deviceKeys := ⟨OrdMap.empty.insert "@alice:example.org" [],
    some (.obj [("@alice:example.org", .arr [])])⟩
  timeout := none

/-- A store with no identity. -/
def noIdentityStore : Store := ⟨none, none, false⟩

/-- The key query about the account is handed out. -/
def handOutQuery : Call := .take (some ⟨.ok [⟨"q1", .keysQuery aliceQuery⟩], none⟩)

/-- Its answer is reported. -/
def reportAnswer : Call := .markSent "q1" noIdentityBody (some ⟨true, noIdentityStore, {}⟩)

/-- What upstream returns to a create on a device whose keys are uploaded. -/
def firstIdentity : Publishing where
  reads := {}
  requests := .ok ⟨none, ⟨none, none, none⟩, some (.obj [])⟩
  store := ⟨some (.own ⟨"@alice:example.org", ["master"],
    OrdMap.empty.insert "ed25519:KEY" (.ed25519 "KEY")⟩), none, true⟩
  recordReads := {}
  signingKeysId := "k1"
  signaturesId := "s1"
  queryId := "q2"
  query := aliceQuery

/-- A process that has just started over such a store. -/
def freshProcess : Process := ⟨.initial, noIdentityStore⟩

/-- The process once the query is handed out and answered. -/
def answeredProcess : Process :=
  reportAnswer.after noIdentityParsers "@alice:example.org"
    (handOutQuery.after noIdentityParsers "@alice:example.org" freshProcess)

theorem run_answeredProcess :
    (process noIdentityParsers "@alice:example.org").Run freshProcess
      [handOutQuery, reportAnswer] answeredProcess :=
  ((TransitionSystem.Run.nil freshProcess).snoc rfl).snoc rfl

/-- The gate of that run stands behind its own mark. -/
theorem gate_of_answeredProcess :
    (process noIdentityParsers "@alice:example.org").Earlier
        (SettlingMark noIdentityParsers "@alice:example.org") freshProcess
        [handOutQuery, reportAnswer] answeredProcess ∧
      answeredProcess.store.NoneOrUnpublished := by
  have hinit : (process noIdentityParsers "@alice:example.org").init freshProcess := rfl
  exact (gate_only_behind_settling_mark hinit run_answeredProcess).2 (some firstIdentity)
    (by decide)

end MatrixCrypto
