import MatrixCrypto.Session.Take
import MatrixCrypto.Signing.Identity

/-!
# Resolving requests

`mark_request_sent` and `mark_request_failed`: which bodies are refused, what an
accepted answer about the account settles, and what the registry remembers of
it.  Reading a body is the business of `serde_json` and `ruma`; their parsers
are the parameter `Parsers`.

## Main definitions

* `Parsers`, `KeysQueryResponse` — the parsers, and what a key query answers.
* `refuseANonResponse` — the checks made before upstream sees a body.
* `AnswerAboutAccount`, `answerAboutThisAccount` — what upstream made of it.
* `markSent` — one trip: parse, mark, and read what was made of the answer.
* `settle` — the section that forgets the request and records the outcome.
* `markRequestSent`, `markRequestFailed` — the whole calls.

## Main results

* `answerAboutThisAccount_settled` — **what a settling answer says**: it carried
  the identity stored, or it said the account has none and nothing stored
  contradicts it.
* `accountKeysAnswered_markRequestSent` — the flag turns only on such an answer.
-/

namespace MatrixCrypto

open Lib

/-- What a `/keys/query` answers, as far as anything here reads it.  A master
key is deserialised only when it is asked for, and may fail to be. -/
structure KeysQueryResponse where
  deviceKeys : OrdMap String Json
  masterKeys : OrdMap String (Option MasterPubkey)
  selfSigningKeys : OrdMap String Json
  userSigningKeys : OrdMap String Json

/-- The parsers of `serde_json` and `ruma`. -/
structure Parsers where
  /-- `serde_json::from_str`. -/
  fromStr : String → Option Json
  /-- Whether a kind's own response type reads the body. -/
  readsResponse : PendingKind → String → Bool
  /-- The response of a key query. -/
  keysQuery : String → Option KeysQueryResponse

/-- `refuse_a_non_response`. -/
def refuseANonResponse (P : Parsers) (kind : PendingKind) (body : String) :
    Except SessionError Unit :=
  if body.isEmpty then .ok ()
  else match P.fromStr body with
    | none => .error .malformedPayload
    | some parsed =>
      match parsed.asObject? with
      | none => .error .malformedPayload
      | some object =>
        if Json.containsKey object "errcode" || Json.containsKey object "error" ||
            Json.containsKey object "flows" then .error .malformedPayload
        else if !object.isEmpty &&
            !object.any (fun f => kind.declaredResponseFields.contains f.1) then
          .error .malformedPayload
        else .ok ()

/-- What upstream made of an accepted answer. -/
inductive AnswerAboutAccount
  | notAsked
  | settled
  | unsettled
  deriving DecidableEq, Repr

/-- Whether an answer asserts any cross-signing key of the account. -/
def claimsAnIdentity (response : KeysQueryResponse) (account : String) : Bool :=
  response.masterKeys.contains account || response.selfSigningKeys.contains account ||
    response.userSigningKeys.contains account

/-- What an answer that asserts no identity settles: it must cover the account,
and nothing stored may contradict it. -/
def answerOfNoIdentity (reads : Reads) (account : String) (response : KeysQueryResponse)
    (store : Store) (stored : Option UserIdentity) : AnswerAboutAccount :=
  let contradicted := stored.isSome && !identityIsUnpublished reads store
  if response.deviceKeys.contains account && !contradicted then .settled else .unsettled

/-- `answer_about_this_account`: the outcome, and the store after it. -/
def answerAboutThisAccount (reads : Reads) (account : String) (response : KeysQueryResponse)
    (store : Store) : AnswerAboutAccount × Store :=
  match getIdentity reads.identity store with
  | .error _ => (.unsettled, store)
  | .ok stored =>
    if !claimsAnIdentity response account then
      (answerOfNoIdentity reads account response store stored, store)
    else match stored.bind UserIdentity.own? with
      | none => (.unsettled, store)
      | some masterKey =>
        match (response.masterKeys.get? account).bind id with
        | none => (.unsettled, store)
        | some asserted =>
          if masterKey = asserted then
            let complete := response.selfSigningKeys.contains account &&
              response.userSigningKeys.contains account
            (.settled, if complete then noteIdentityPublished reads store else store)
          else (.unsettled, store)

/-- What one trip to upstream comes to when a body is handed over: whether
`mark_request_as_sent` took it, and the store right after. -/
structure Consumed where
  accepted : Bool
  store : Store
  reads : Reads

/-- `mark_sent`: the outcome, and the store after the trip. -/
def markSent (P : Parsers) (account : String) (kind : PendingKind) (body : String)
    (store : Store) (up : Consumed) : Except SessionError AnswerAboutAccount × Store :=
  if kind.tag = "keys_query" then
    match P.keysQuery body with
    | none => (.error .malformedPayload, store)
    | some response =>
      if !up.accepted then (.error .failed, up.store)
      else if kind.asksAboutAccount then
        let answer := answerAboutThisAccount up.reads account response up.store
        (.ok answer.1, answer.2)
      else (.ok .notAsked, up.store)
  else if !P.readsResponse kind body then (.error .malformedPayload, store)
  else if !up.accepted then (.error .failed, up.store)
  else (.ok .notAsked, up.store)

namespace RequestState

/-- The section that forgets a request and records what its answer settled. -/
def settle (s : RequestState) (id : String) : AnswerAboutAccount → RequestState
  | .notAsked => { s with pending := s.pending.erase id }
  | .settled => { s with
      pending := s.pending.erase id
      accountKeysAnswered := true
      accountKeysAnswerUnsettled := false }
  | .unsettled => { s with
      pending := s.pending.erase id
      accountKeysAnswerUnsettled :=
        if s.accountKeysAnswered then s.accountKeysAnswerUnsettled else true }

end RequestState

/-- Everything a call on the machine reads and writes. -/
structure Process where
  requests : RequestState
  store : Store

/-- `mark_request_sent`; the trip is `none` when there is no machine. -/
def markRequestSent (P : Parsers) (account : String) (p : Process) (id body : String)
    (trip : Option Consumed) : Except SessionError Unit × Process :=
  match p.requests.pending.get? id with
  | none => (.error .unknownRequest, p)
  | some entry =>
    match refuseANonResponse P entry.kind body with
    | .error e => (.error e, p)
    | .ok _ =>
      match trip with
      | none => (.error .notInitialised, p)
      | some up =>
        match markSent P account entry.kind body p.store up with
        | (.error e, store) => (.error e, { p with store := store })
        | (.ok answer, store) => (.ok (), ⟨p.requests.settle id answer, store⟩)

/-- Whether a status is one a refused request can carry. -/
def isAFailureStatus (status : ℕ) : Bool :=
  status == 0 || (300 ≤ status && status ≤ 599)

/-- `mark_request_failed`: nothing changes, whatever is reported. -/
def markRequestFailed (p : Process) (id : String) (status : ℕ) :
    Except SessionError Unit × Process :=
  match p.requests.pending.get? id with
  | none => (.error .unknownRequest, p)
  | some _ => if isAFailureStatus status then (.ok (), p) else (.error .notAFailureStatus, p)

/-! ### What a settling answer says -/

/-- The answer carried exactly the identity the store holds. -/
def CarriesStoredIdentity (account : String) (response : KeysQueryResponse) (store : Store) :
    Prop :=
  claimsAnIdentity response account = true ∧ ∃ masterKey,
    store.identity = some (.own masterKey) ∧
      response.masterKeys.get? account = some (some masterKey)

/-- The answer covered the account and asserted no cross-signing key for it, and
the store holds no identity or one recorded as unpublished. -/
def SaysNoIdentity (account : String) (response : KeysQueryResponse) (store : Store) : Prop :=
  response.masterKeys.contains account = false ∧
    response.selfSigningKeys.contains account = false ∧
    response.userSigningKeys.contains account = false ∧
    response.deviceKeys.contains account = true ∧ store.NoneOrUnpublished

theorem answerOfNoIdentity_settled {reads : Reads} {account : String}
    {response : KeysQueryResponse} {store : Store}
    (h : answerOfNoIdentity reads account response store store.identity = .settled) :
    response.deviceKeys.contains account = true ∧ store.NoneOrUnpublished := by
  simp only [answerOfNoIdentity] at h
  split at h
  · next hc =>
    rw [Bool.and_eq_true, Bool.not_eq_true', Bool.and_eq_false_iff] at hc
    refine ⟨hc.1, ?_⟩
    rcases hc.2 with hnone | hunp
    · exact Or.inl (by simpa using hnone)
    · exact Or.inr (identityIsUnpublished_sound (by simpa using hunp))
  · cases h

/-- **What a settling answer says.** -/
theorem answerAboutThisAccount_settled {reads : Reads} {account : String}
    {response : KeysQueryResponse} {store : Store}
    (h : (answerAboutThisAccount reads account response store).1 = .settled) :
    CarriesStoredIdentity account response store ∨ SaysNoIdentity account response store := by
  unfold answerAboutThisAccount getIdentity at h
  cases hr : reads.identity with
  | true => simp [hr] at h
  | false =>
    simp only [hr, Bool.false_eq_true, if_false] at h
    cases hclaims : claimsAnIdentity response account with
    | false =>
      -- no key asserted: the answer says the account has no identity
      simp only [hclaims, Bool.not_false, if_true] at h
      obtain ⟨hdev, hstore⟩ := answerOfNoIdentity_settled h
      simp only [claimsAnIdentity, Bool.or_eq_false_iff] at hclaims
      exact Or.inr ⟨hclaims.1.1, hclaims.1.2, hclaims.2, hdev, hstore⟩
    | true =>
      simp only [hclaims, Bool.not_true, Bool.false_eq_true, if_false] at h
      cases hown : store.identity.bind UserIdentity.own? with
      | none => rw [hown] at h; cases h
      | some masterKey =>
        cases hkey : (response.masterKeys.get? account).bind id with
        | none => rw [hown, hkey] at h; cases h
        | some asserted =>
          simp only [hown, hkey] at h
          split at h
          · next heq =>
            obtain ⟨identity, hid, hmk⟩ := Option.bind_eq_some_iff.mp hown
            obtain ⟨parsed, hget, hparsed⟩ := Option.bind_eq_some_iff.mp hkey
            refine Or.inl ⟨hclaims, masterKey, ?_, ?_⟩
            · cases identity with
              | own m => rw [hid, ← Option.some.inj hmk]
              | other => cases hmk
            · rw [hget, show parsed = some asserted from hparsed, heq]
          · cases h

/-! ### What the registry keeps of it -/

namespace RequestState

@[simp] theorem settle_pending (s : RequestState) (id : String) (answer : AnswerAboutAccount) :
    (s.settle id answer).pending = s.pending.erase id := by
  cases answer <;> rfl

theorem accountKeysAnswered_settle {s : RequestState} {id : String} {answer : AnswerAboutAccount}
    (h : (s.settle id answer).accountKeysAnswered = true) :
    s.accountKeysAnswered = true ∨ answer = .settled := by
  cases answer with
  | settled => exact Or.inr rfl
  | notAsked => exact Or.inl h
  | unsettled => exact Or.inl h

/-- Settling touches no queue, no stamp and no counter. -/
theorem settle_eq (s : RequestState) (id : String) (answer : AnswerAboutAccount) :
    s.settle id answer = { s with
      pending := s.pending.erase id
      accountKeysAnswered := (s.settle id answer).accountKeysAnswered
      accountKeysAnswerUnsettled := (s.settle id answer).accountKeysAnswerUnsettled } := by
  cases answer <;> rfl

/-- The two flags are never up together, and settling keeps that. -/
theorem settle_flags {s : RequestState} (id : String) (answer : AnswerAboutAccount)
    (h : ¬ (s.accountKeysAnswered = true ∧ s.accountKeysAnswerUnsettled = true)) :
    ¬ ((s.settle id answer).accountKeysAnswered = true ∧
      (s.settle id answer).accountKeysAnswerUnsettled = true) := by
  cases answer with
  | notAsked => exact h
  | settled => rintro ⟨_, h'⟩; cases h'
  | unsettled =>
    rintro ⟨ha, hu⟩
    have ha' : s.accountKeysAnswered = true := ha
    simp only [settle, ha', if_true] at hu
    exact h ⟨ha', hu⟩

end RequestState

/-- The kinds that ask about the account are key queries. -/
theorem tag_of_asksAboutAccount {kind : PendingKind} (h : kind.asksAboutAccount = true) :
    kind.tag = "keys_query" ∧
      (kind = .accountKeysQuery ∨ kind = .accountKeysQueryOutOfBand) := by
  cases kind <;> first | (cases h; done) | exact ⟨rfl, by simp⟩

/-- A mark settles only for a kind that asks, with an answer that settles. -/
theorem markSent_settled {P : Parsers} {account : String} {kind : PendingKind} {body : String}
    {store : Store} {up : Consumed} (h : (markSent P account kind body store up).1 = .ok .settled) :
    kind.asksAboutAccount = true ∧ ∃ response, P.keysQuery body = some response ∧
      up.accepted = true ∧
      (answerAboutThisAccount up.reads account response up.store).1 = .settled := by
  unfold markSent at h
  split at h
  · cases hresp : P.keysQuery body with
    | none => rw [hresp] at h; cases h
    | some response =>
      simp only [hresp] at h
      cases hacc : up.accepted with
      | false => simp [hacc] at h
      | true =>
        simp only [hacc, Bool.not_true, Bool.false_eq_true, if_false] at h
        split at h
        · next hasks => exact ⟨hasks, response, rfl, rfl, Except.ok.inj h⟩
        · cases h
  · split at h
    · cases h
    · split at h <;> cases h

/-- What a mark that succeeds found and did. -/
theorem markRequestSent_ok {P : Parsers} {account : String} {p : Process} {id body : String}
    {trip : Option Consumed} (h : (markRequestSent P account p id body trip).1 = .ok ()) :
    ∃ entry up answer, p.requests.pending.get? id = some entry ∧
      refuseANonResponse P entry.kind body = .ok () ∧ trip = some up ∧
      (markSent P account entry.kind body p.store up).1 = .ok answer ∧
      (markRequestSent P account p id body trip).2 =
        ⟨p.requests.settle id answer, (markSent P account entry.kind body p.store up).2⟩ := by
  cases hp : p.requests.pending.get? id with
  | none => simp only [markRequestSent, hp] at h; cases h
  | some entry =>
    cases hr : refuseANonResponse P entry.kind body with
    | error e => simp only [markRequestSent, hp, hr] at h; cases h
    | ok _ =>
      cases trip with
      | none => simp only [markRequestSent, hp, hr] at h; cases h
      | some up =>
        rcases hm : markSent P account entry.kind body p.store up with ⟨outcome, store⟩
        cases outcome with
        | error e => simp only [markRequestSent, hp, hr, hm] at h; cases h
        | ok answer =>
          refine ⟨entry, up, answer, rfl, hr, rfl, by rw [hm], ?_⟩
          simp only [markRequestSent, hp, hr, hm]

/-- A mark that fails leaves the registry as it was. -/
theorem markRequestSent_error {P : Parsers} {account : String} {p : Process} {id body : String}
    {trip : Option Consumed} {e : SessionError}
    (h : (markRequestSent P account p id body trip).1 = .error e) :
    (markRequestSent P account p id body trip).2.requests = p.requests := by
  unfold markRequestSent at h ⊢
  split at h
  · rfl
  · split at h
    · rfl
    · split at h
      · rfl
      · split at h
        · rfl
        · cases h

/-- **The flag turns only on an answer that settles.** -/
theorem accountKeysAnswered_markRequestSent {P : Parsers} {account : String} {p : Process}
    {id body : String} {trip : Option Consumed}
    (hs : p.requests.accountKeysAnswered = false)
    (ht : (markRequestSent P account p id body trip).2.requests.accountKeysAnswered = true) :
    (markRequestSent P account p id body trip).1 = .ok () ∧
      ∃ entry up response, p.requests.pending.get? id = some entry ∧
        (entry.kind = .accountKeysQuery ∨ entry.kind = .accountKeysQueryOutOfBand) ∧
        trip = some up ∧ P.keysQuery body = some response ∧
        (CarriesStoredIdentity account response up.store ∨
          SaysNoIdentity account response up.store) := by
  cases hres : (markRequestSent P account p id body trip).1 with
  | error e =>
    rw [markRequestSent_error hres, hs] at ht
    cases ht
  | ok _ =>
    obtain ⟨entry, up, answer, hp, -, htrip, hm, heq⟩ := markRequestSent_ok hres
    rw [heq] at ht
    rcases RequestState.accountKeysAnswered_settle ht with h | rfl
    · rw [hs] at h; cases h
    · obtain ⟨hasks, response, hresp, -, hset⟩ := markSent_settled hm
      exact ⟨rfl, entry, up, response, hp, (tag_of_asksAboutAccount hasks).2, htrip, hresp,
        answerAboutThisAccount_settled hset⟩

@[simp] theorem markRequestFailed_process (p : Process) (id : String) (status : ℕ) :
    (markRequestFailed p id status).2 = p := by
  unfold markRequestFailed
  split
  · rfl
  · split <;> rfl

end MatrixCrypto
