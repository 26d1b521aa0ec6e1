import MatrixCrypto.Lib.Except
import MatrixCrypto.Lib.KeySort
import MatrixCrypto.Session.Registry

/-!
# Handing requests out

`take_outgoing_requests`: one trip to upstream, then one section under the
registry lock that builds the batch, puts it in production order, drains the
six queues and remembers every id it returns.

## Main definitions

* `Offered`, `prepare` — what the trip returned, and what is built of it before
  the lock is taken.
* `collect` — the whole batch, unordered; it reads the queues and drains none.
* `stamp`, `handOut` — the position of every entry, and the batch in order.
* `evict`, `record` — what becomes of the pending map.
* `takeSection`, `takeOutgoingRequests` — the section, and the whole call.

## Main results

* `mem_collect` — a batch is what upstream offered and what waited, exactly.
* `mem_stamp`, `exists_mem_stamp` — where each sequence comes from.
* `takeSection_ok` — what a section that succeeds returns and leaves.
* `not_carries_handedOut`, `get?_record` — nothing waits afterwards, and every
  returned id is pending.
-/

namespace MatrixCrypto

open Lib

/-- What one trip to upstream returned. -/
structure Offered where
  upstream : Except Unit (List UpstreamOutgoingRequest)
  /-- `none` when no backup is enabled. -/
  backup : Option (Except Unit (Option (String × KeysBackupRequest)))

/-- An entry of the batch before it has a position. -/
structure Fresh where
  queuedAt : Option ℕ
  id : String
  kind : PendingKind
  body : Json

/-- An entry of the batch with its position. -/
structure Entry where
  sequence : ℕ
  id : String
  kind : PendingKind
  body : Json

/-- What the caller is handed for an entry. -/
def Entry.outgoing (e : Entry) : OutgoingRequest := ⟨e.id, e.kind.tag, e.body⟩

/-- An upstream request as an entry, scoped to the account. -/
def freshOf (account : String) (queuedAt : Option ℕ) (r : UpstreamOutgoingRequest) :
    Except SessionError Fresh := do
  let (kind, body) ← describeOutgoing r.request
  return ⟨queuedAt, r.requestId, accountScoped kind r.request account, body⟩

/-- A backup batch that could not be assembled is no batch. -/
def Offered.backupBatch (o : Offered) : Option (String × KeysBackupRequest) :=
  match o.backup with
  | some (.ok batch) => batch
  | _ => none

/-- The entries built before the lock is taken. -/
def prepare (account : String) (o : Offered) : Except SessionError (List Fresh) :=
  match o.upstream with
  | .error _ => .error .failed
  | .ok requests => do
    let upstream ← requests.mapM (freshOf account none)
    let backup ← o.backupBatch.toList.mapM fun b =>
      (describeBackup b.2).map fun body => (⟨none, b.1, .roomKeyBackup, body⟩ : Fresh)
    return upstream ++ backup

namespace RequestState

/-- The whole batch: what was prepared, then every queue in its turn. -/
def collect (s : RequestState) (account : String) (prepared : List Fresh) :
    Except SessionError (List Fresh) := do
  let toDevice ← s.queuedToDevice.entries.mapM fun e =>
    (describeToDevice e.2).map fun body => (⟨none, e.1, .toDevice, body⟩ : Fresh)
  let claim ← s.pendingClaim.toList.mapM fun e =>
    (describeKeysClaim e.2).map fun body => (⟨none, e.1, .keysClaim, body⟩ : Fresh)
  let accountQuery ← s.queuedAccountQuery.toList.mapM fun e =>
    (describeKeysQuery e.2.2).map fun body =>
      (⟨some e.1, e.2.1, .accountKeysQueryOutOfBand, body⟩ : Fresh)
  let signingKeys ← s.queuedSigningKeys.toList.mapM fun e =>
    (describeSigningKeys e.2.2).map fun body =>
      (⟨some e.1, e.2.1, .signingKeysUpload, body⟩ : Fresh)
  let peerQueries ← s.queuedPeerQueries.mapM fun e =>
    (describeKeysQuery e.2).map fun body => (⟨none, e.1, .peerKeysQueryOutOfBand, body⟩ : Fresh)
  let action ← s.queuedAction.mapM fun e => freshOf account (some e.1) e.2
  return prepared ++ toDevice ++ claim ++ accountQuery ++ signingKeys ++ peerQueries ++ action

end RequestState

/-- The position an entry already has: its stamp, or the one it was handed out
with before. -/
def Fresh.position (pending : OrdMap String Pending) (f : Fresh) : Option ℕ :=
  f.queuedAt.or ((pending.get? f.id).map Pending.sequence)

/-- Gives every entry its position; those without one take the counter's next
values, in the order they were built.  The second part is the counter after. -/
def stamp (pending : OrdMap String Pending) : ℕ → List Fresh → List Entry × ℕ
  | n, [] => ([], n)
  | n, f :: fs =>
    match f.position pending with
    | some k => (⟨k, f.id, f.kind, f.body⟩ :: (stamp pending n fs).1, (stamp pending n fs).2)
    | none =>
      (⟨n, f.id, f.kind, f.body⟩ :: (stamp pending (n + 1) fs).1, (stamp pending (n + 1) fs).2)

/-- The groups a batch refreshes. -/
def refreshed (batch : List Entry) : List String := batch.filterMap (·.kind.evictionGroup)

/-- Drops every pending entry of a group the batch refreshes. -/
def evict (batch : List Entry) (pending : OrdMap String Pending) : OrdMap String Pending :=
  if (refreshed batch).isEmpty then pending
  else pending.filter fun _ p => p.kind.evictionGroup.all fun g => !(refreshed batch).contains g

/-- Remembers every entry of the batch, in order. -/
def record (batch : List Entry) (pending : OrdMap String Pending) : OrdMap String Pending :=
  batch.foldl (fun m e => m.insert e.id ⟨e.kind, e.sequence⟩) pending

namespace RequestState

/-- The batch in production order. -/
def handOut (s : RequestState) (fresh : List Fresh) : List Entry :=
  sortByKey Entry.sequence (stamp s.pending s.nextSequence fresh).1

/-- The registry once the batch is handed out. -/
def handedOut (s : RequestState) (fresh : List Fresh) : RequestState where
  queuedToDevice := .empty
  pendingClaim := none
  queuedAction := []
  queuedSigningKeys := none
  queuedAccountQuery := none
  queuedPeerQueries := []
  pending := record (s.handOut fresh) (evict (s.handOut fresh) s.pending)
  accountKeysAnswered := s.accountKeysAnswered
  accountKeysAnswerUnsettled := s.accountKeysAnswerUnsettled
  nextSequence := (stamp s.pending s.nextSequence fresh).2

/-- What happens under the registry lock. -/
def takeSection (s : RequestState) (account : String) (prepared : List Fresh) :
    Except SessionError (List OutgoingRequest) × RequestState :=
  match s.collect account prepared with
  | .error e => (.error e, s)
  | .ok fresh => (.ok ((s.handOut fresh).map Entry.outgoing), s.handedOut fresh)

/-- `take_outgoing_requests`; `none` when there is no machine to ask. -/
def takeOutgoingRequests (s : RequestState) (account : String) (trip : Option Offered) :
    Except SessionError (List OutgoingRequest) × RequestState :=
  match trip with
  | none => (.error .notInitialised, s)
  | some o =>
    match prepare account o with
    | .error e => (.error e, s)
    | .ok prepared => s.takeSection account prepared

/-- The batch a take hands out, in order, before it is rendered for the caller. -/
def takeBatch (s : RequestState) (account : String) (trip : Option Offered) :
    Except SessionError (List Entry) :=
  match trip with
  | none => .error .notInitialised
  | some o =>
    match prepare account o with
    | .error e => .error e
    | .ok prepared => (s.collect account prepared).map s.handOut

/-- What a queue contributes to a batch. -/
inductive Contributes (s : RequestState) (account : String) : Fresh → Prop
  | toDevice {i : String} {r : ToDeviceRequest} {body : Json}
      (h : s.queuedToDevice.get? i = some r) (hbody : describeToDevice r = .ok body) :
      Contributes s account ⟨none, i, .toDevice, body⟩
  | claim {i : String} {r : KeysClaimRequest} {body : Json}
      (h : s.pendingClaim = some (i, r)) (hbody : describeKeysClaim r = .ok body) :
      Contributes s account ⟨none, i, .keysClaim, body⟩
  | accountQuery {n : ℕ} {i : String} {r : KeysQueryRequest} {body : Json}
      (h : s.queuedAccountQuery = some (n, i, r)) (hbody : describeKeysQuery r = .ok body) :
      Contributes s account ⟨some n, i, .accountKeysQueryOutOfBand, body⟩
  | signingKeys {n : ℕ} {i : String} {r : UploadSigningKeysRequest} {body : Json}
      (h : s.queuedSigningKeys = some (n, i, r)) (hbody : describeSigningKeys r = .ok body) :
      Contributes s account ⟨some n, i, .signingKeysUpload, body⟩
  | peerQuery {i : String} {r : KeysQueryRequest} {body : Json}
      (h : (i, r) ∈ s.queuedPeerQueries) (hbody : describeKeysQuery r = .ok body) :
      Contributes s account ⟨none, i, .peerKeysQueryOutOfBand, body⟩
  | action {n : ℕ} {r : UpstreamOutgoingRequest} {f : Fresh}
      (h : (n, r) ∈ s.queuedAction) (hf : freshOf account (some n) r = .ok f) :
      Contributes s account f

end RequestState

/-! ### What an entry is made of -/

theorem freshOf_ok {account : String} {at' : Option ℕ} {r : UpstreamOutgoingRequest} {f : Fresh}
    (h : freshOf account at' r = .ok f) :
    ∃ kind body, describeOutgoing r.request = .ok (kind, body) ∧
      f = ⟨at', r.requestId, accountScoped kind r.request account, body⟩ := by
  obtain ⟨⟨kind, body⟩, hd, hf⟩ := bind_eq_ok.mp h
  exact ⟨kind, body, hd, (pure_eq_ok.mp hf).symm⟩

/-- The kind of an upstream request, whatever its body comes to. -/
theorem describeOutgoing_ok {r : AnyOutgoingRequest} {kind : PendingKind} {body : Json}
    (h : describeOutgoing r = .ok (kind, body)) : kind = r.kind := by
  cases r with
  | keysUpload d o f =>
    obtain ⟨_, _, h⟩ := bind_eq_ok.mp h
    obtain ⟨_, _, h⟩ := bind_eq_ok.mp h
    obtain ⟨_, _, h⟩ := bind_eq_ok.mp h
    exact (congrArg Prod.fst (pure_eq_ok.mp h)).symm
  | keysQuery r =>
    obtain ⟨_, _, h⟩ := bind_eq_ok.mp h
    exact (congrArg Prod.fst (pure_eq_ok.mp h)).symm
  | keysClaim r =>
    obtain ⟨_, _, h⟩ := bind_eq_ok.mp h
    exact (congrArg Prod.fst (pure_eq_ok.mp h)).symm
  | toDeviceRequest r =>
    obtain ⟨_, _, h⟩ := bind_eq_ok.mp h
    exact (congrArg Prod.fst (pure_eq_ok.mp h)).symm
  | signatureUpload v =>
    obtain ⟨_, _, h⟩ := bind_eq_ok.mp h
    exact (congrArg Prod.fst (pure_eq_ok.mp h)).symm
  | roomMessage a b c d =>
    obtain ⟨_, _, h⟩ := bind_eq_ok.mp h
    exact (congrArg Prod.fst (pure_eq_ok.mp h)).symm

/-- An entry made of an upstream request carries its id and its kind. -/
theorem freshOf_eq {account : String} {at' : Option ℕ} {r : UpstreamOutgoingRequest} {f : Fresh}
    (h : freshOf account at' r = .ok f) :
    f.queuedAt = at' ∧ f.id = r.requestId ∧ f.kind = r.kindFor account := by
  obtain ⟨kind, body, hd, rfl⟩ := freshOf_ok h
  rw [describeOutgoing_ok hd]
  exact ⟨rfl, rfl, rfl⟩

/-- Upstream's requests are never of a kind this module queues out of band, nor a
backup. -/
theorem kindFor_ne (account : String) (r : UpstreamOutgoingRequest) :
    r.kindFor account ≠ .signingKeysUpload ∧ r.kindFor account ≠ .accountKeysQueryOutOfBand ∧
      r.kindFor account ≠ .peerKeysQueryOutOfBand ∧ r.kindFor account ≠ .roomKeyBackup := by
  have hk : r.request.kind ≠ .signingKeysUpload ∧ r.request.kind ≠ .accountKeysQueryOutOfBand ∧
      r.request.kind ≠ .peerKeysQueryOutOfBand ∧ r.request.kind ≠ .roomKeyBackup := by
    cases r.request <;> simp [AnyOutgoingRequest.kind]
  unfold UpstreamOutgoingRequest.kindFor
  rcases accountScoped_eq_or r.request.kind r.request account with heq | ⟨-, heq⟩ <;> rw [heq]
  · exact hk
  · decide

theorem freshOf_kind {account : String} {at' : Option ℕ} {r : UpstreamOutgoingRequest} {f : Fresh}
    (h : freshOf account at' r = .ok f) :
    f.kind ≠ .signingKeysUpload ∧ f.kind ≠ .accountKeysQueryOutOfBand := by
  rw [(freshOf_eq h).2.2]
  exact ⟨(kindFor_ne account r).1, (kindFor_ne account r).2.1⟩

/-! ### The batch is what was offered and what waited -/

namespace RequestState

theorem contributes_of_mapM {α : Type} {l : List α} {f : α → Except SessionError Fresh}
    {ys : List Fresh} (h : l.mapM f = .ok ys) (x : Fresh) :
    x ∈ ys ↔ ∃ a ∈ l, f a = .ok x := by
  constructor
  · exact mem_of_mapM h
  · rintro ⟨a, ha, hx⟩
    obtain ⟨y, hy, hfy⟩ := exists_mem_of_mapM h ha
    rw [hx] at hfy
    exact Except.ok.inj hfy ▸ hy

/-- A batch that could be built is what was prepared and, in its turn, each queue
with every entry rendered. -/
theorem collect_eq_ok {s : RequestState} {account : String} {prepared fresh : List Fresh}
    (h : s.collect account prepared = .ok fresh) :
    ∃ toDevice claim accountQuery signingKeys peerQueries action : List Fresh,
      (s.queuedToDevice.entries.mapM fun e =>
        (describeToDevice e.2).map fun body => (⟨none, e.1, .toDevice, body⟩ : Fresh)) =
          .ok toDevice ∧
      (s.pendingClaim.toList.mapM fun e =>
        (describeKeysClaim e.2).map fun body => (⟨none, e.1, .keysClaim, body⟩ : Fresh)) =
          .ok claim ∧
      (s.queuedAccountQuery.toList.mapM fun e =>
        (describeKeysQuery e.2.2).map fun body =>
          (⟨some e.1, e.2.1, .accountKeysQueryOutOfBand, body⟩ : Fresh)) = .ok accountQuery ∧
      (s.queuedSigningKeys.toList.mapM fun e =>
        (describeSigningKeys e.2.2).map fun body =>
          (⟨some e.1, e.2.1, .signingKeysUpload, body⟩ : Fresh)) = .ok signingKeys ∧
      (s.queuedPeerQueries.mapM fun e =>
        (describeKeysQuery e.2).map fun body =>
          (⟨none, e.1, .peerKeysQueryOutOfBand, body⟩ : Fresh)) = .ok peerQueries ∧
      (s.queuedAction.mapM fun e => freshOf account (some e.1) e.2) = .ok action ∧
      fresh =
        prepared ++ toDevice ++ claim ++ accountQuery ++ signingKeys ++ peerQueries ++ action := by
  obtain ⟨toDevice, htoDevice, h⟩ := bind_eq_ok.mp h
  obtain ⟨claim, hclaim, h⟩ := bind_eq_ok.mp h
  obtain ⟨accountQuery, haccount, h⟩ := bind_eq_ok.mp h
  obtain ⟨signingKeys, hsigning, h⟩ := bind_eq_ok.mp h
  obtain ⟨peerQueries, hpeer, h⟩ := bind_eq_ok.mp h
  obtain ⟨action, haction, h⟩ := bind_eq_ok.mp h
  exact ⟨toDevice, claim, accountQuery, signingKeys, peerQueries, action, htoDevice, hclaim,
    haccount, hsigning, hpeer, haction, (pure_eq_ok.mp h).symm⟩

/-- **A batch is what upstream offered and what waited, exactly.** -/
theorem mem_collect {s : RequestState} {account : String} {prepared fresh : List Fresh}
    (h : s.collect account prepared = .ok fresh) (f : Fresh) :
    f ∈ fresh ↔ f ∈ prepared ∨ s.Contributes account f := by
  obtain ⟨toDevice, claim, accountQuery, signingKeys, peerQueries, action, h₁, h₂, h₃, h₄, h₅, h₆,
    rfl⟩ := collect_eq_ok h
  simp only [List.mem_append, contributes_of_mapM h₁, contributes_of_mapM h₂,
    contributes_of_mapM h₃, contributes_of_mapM h₄, contributes_of_mapM h₅,
    contributes_of_mapM h₆, map_eq_ok, Option.mem_toList]
  constructor
  · rintro ((((((hp | ⟨⟨i, r⟩, hr, _, hb, rfl⟩) | ⟨⟨i, r⟩, hr, _, hb, rfl⟩) |
      ⟨⟨n, i, r⟩, hr, _, hb, rfl⟩) | ⟨⟨n, i, r⟩, hr, _, hb, rfl⟩) |
      ⟨⟨i, r⟩, hr, _, hb, rfl⟩) | ⟨⟨n, r⟩, hr, hf⟩)
    · exact Or.inl hp
    · exact Or.inr (.toDevice (OrdMap.get?_eq_some.mpr hr) hb)
    · exact Or.inr (.claim hr hb)
    · exact Or.inr (.accountQuery hr hb)
    · exact Or.inr (.signingKeys hr hb)
    · exact Or.inr (.peerQuery hr hb)
    · exact Or.inr (.action hr hf)
  · rintro (hp | hq)
    · simp [hp]
    · cases hq with
      | toDevice hr hb =>
        exact Or.inl (Or.inl (Or.inl (Or.inl (Or.inl (Or.inr
          ⟨_, OrdMap.get?_eq_some.mp hr, _, hb, rfl⟩)))))
      | claim hr hb => exact Or.inl (Or.inl (Or.inl (Or.inl (Or.inr ⟨_, hr, _, hb, rfl⟩))))
      | accountQuery hr hb => exact Or.inl (Or.inl (Or.inl (Or.inr ⟨_, hr, _, hb, rfl⟩)))
      | signingKeys hr hb => exact Or.inl (Or.inl (Or.inr ⟨_, hr, _, hb, rfl⟩))
      | peerQuery hr hb => exact Or.inl (Or.inr ⟨_, hr, _, hb, rfl⟩)
      | action hr hf => exact Or.inr ⟨_, hr, hf⟩

/-- A batch that could be built holds every entry of the slots and the action
queue, each under its stamp. -/
theorem signingKeys_mem_collect {s : RequestState} {account : String}
    {prepared fresh : List Fresh} (h : s.collect account prepared = .ok fresh) {n : ℕ} {i : String}
    {r : UploadSigningKeysRequest} (hs : s.queuedSigningKeys = some (n, i, r)) :
    ∃ body, (⟨some n, i, .signingKeysUpload, body⟩ : Fresh) ∈ fresh := by
  have hmem := mem_collect h
  obtain ⟨_, _, _, _, _, _, -, -, -, h₄, -⟩ := collect_eq_ok h
  obtain ⟨_, _, hf⟩ := exists_mem_of_mapM h₄ (x := (n, i, r)) (by rw [hs]; simp)
  obtain ⟨body, hbody, _⟩ := map_eq_ok.mp hf
  exact ⟨body, (hmem _).mpr (Or.inr (.signingKeys hs hbody))⟩

theorem accountQuery_mem_collect {s : RequestState} {account : String}
    {prepared fresh : List Fresh} (h : s.collect account prepared = .ok fresh) {n : ℕ} {i : String}
    {r : KeysQueryRequest} (hs : s.queuedAccountQuery = some (n, i, r)) :
    ∃ body, (⟨some n, i, .accountKeysQueryOutOfBand, body⟩ : Fresh) ∈ fresh := by
  have hmem := mem_collect h
  obtain ⟨_, _, _, _, _, _, -, -, h₃, -⟩ := collect_eq_ok h
  obtain ⟨_, _, hf⟩ := exists_mem_of_mapM h₃ (x := (n, i, r)) (by rw [hs]; simp)
  obtain ⟨body, hbody, _⟩ := map_eq_ok.mp hf
  exact ⟨body, (hmem _).mpr (Or.inr (.accountQuery hs hbody))⟩

theorem action_mem_collect {s : RequestState} {account : String}
    {prepared fresh : List Fresh} (h : s.collect account prepared = .ok fresh) {n : ℕ}
    {r : UpstreamOutgoingRequest} (hs : (n, r) ∈ s.queuedAction) :
    ∃ f ∈ fresh, freshOf account (some n) r = .ok f := by
  have hmem := mem_collect h
  obtain ⟨_, _, _, _, _, _, -, -, -, -, -, h₆, -⟩ := collect_eq_ok h
  obtain ⟨f, _, hf⟩ := exists_mem_of_mapM h₆ hs
  exact ⟨f, (hmem _).mpr (Or.inr (.action hs hf)), hf⟩

/-- What a queue contributes was waiting in it. -/
theorem Contributes.carries {s : RequestState} {account : String} {f : Fresh}
    (h : s.Contributes account f) : s.Carries f.id := by
  cases h with
  | toDevice h _ => exact .toDevice h
  | claim h _ => exact .claim h
  | accountQuery h _ => exact .stamped (.accountQuery h)
  | signingKeys h _ => exact .stamped (.signingKeys h)
  | peerQuery h _ => exact .peerQuery h
  | action h hf =>
    obtain ⟨_, _, _, rfl⟩ := freshOf_ok hf
    exact .stamped (.action h)

/-- What has a stamp when the batch is built had it in its queue. -/
theorem Contributes.queuedAt {s : RequestState} {account : String} {f : Fresh} {n : ℕ}
    (h : s.Contributes account f) (hn : f.queuedAt = some n) : s.QueuedAt n f.id := by
  cases h with
  | accountQuery h _ => exact Option.some.inj hn ▸ .accountQuery h
  | signingKeys h _ => exact Option.some.inj hn ▸ .signingKeys h
  | action h hf =>
    obtain ⟨_, _, _, rfl⟩ := freshOf_ok hf
    exact Option.some.inj hn ▸ .action h
  | _ => cases hn

/-- Each of the two single slots is the only source of its kind. -/
theorem Contributes.of_signingKeysUpload {s : RequestState} {account : String} {f : Fresh}
    (h : s.Contributes account f) (hk : f.kind = .signingKeysUpload) :
    ∃ n r, s.queuedSigningKeys = some (n, f.id, r) ∧ f.queuedAt = some n := by
  cases h with
  | signingKeys h _ => exact ⟨_, _, h, rfl⟩
  | action _ hf => exact absurd hk (freshOf_kind hf).1
  | _ => simp at hk

theorem Contributes.of_accountKeysQueryOutOfBand {s : RequestState} {account : String} {f : Fresh}
    (h : s.Contributes account f) (hk : f.kind = .accountKeysQueryOutOfBand) :
    ∃ n r, s.queuedAccountQuery = some (n, f.id, r) ∧ f.queuedAt = some n := by
  cases h with
  | accountQuery h _ => exact ⟨_, _, h, rfl⟩
  | action _ hf => exact absurd hk (freshOf_kind hf).2
  | _ => simp at hk

end RequestState

/-- What is prepared is every upstream request, rendered, and the backup batch. -/
theorem prepare_eq_ok {account : String} {o : Offered} {prepared : List Fresh}
    (h : prepare account o = .ok prepared) :
    ∃ (rs : List UpstreamOutgoingRequest) (upstream backup : List Fresh),
      o.upstream = .ok rs ∧ rs.mapM (freshOf account none) = .ok upstream ∧
      (o.backupBatch.toList.mapM fun b =>
        (describeBackup b.2).map fun body => (⟨none, b.1, .roomKeyBackup, body⟩ : Fresh)) =
          .ok backup ∧
      prepared = upstream ++ backup := by
  unfold prepare at h
  split at h
  · cases h
  · next rs hrs =>
    obtain ⟨upstream, hupstream, h⟩ := bind_eq_ok.mp h
    obtain ⟨backup, hbackup, h⟩ := bind_eq_ok.mp h
    exact ⟨rs, upstream, backup, hrs, hupstream, hbackup, (pure_eq_ok.mp h).symm⟩

theorem mem_prepare {account : String} {o : Offered} {prepared : List Fresh}
    (h : prepare account o = .ok prepared) {f : Fresh} (hf : f ∈ prepared) :
    f.queuedAt = none ∧
      ((∃ rs, o.upstream = .ok rs ∧ ∃ r ∈ rs, freshOf account none r = .ok f) ∨
        ∃ r, o.backupBatch = some (f.id, r) ∧ f.kind = .roomKeyBackup ∧
          describeBackup r = .ok f.body) := by
  obtain ⟨rs, upstream, backup, hrs, h₁, h₂, rfl⟩ := prepare_eq_ok h
  rcases List.mem_append.mp hf with hf | hf
  · obtain ⟨r, hr, hfr⟩ := mem_of_mapM h₁ hf
    obtain ⟨_, _, _, rfl⟩ := freshOf_ok hfr
    exact ⟨rfl, Or.inl ⟨rs, hrs, r, hr, hfr⟩⟩
  · obtain ⟨⟨i, r⟩, hr, hb⟩ := mem_of_mapM h₂ hf
    obtain ⟨body, hbody, rfl⟩ := map_eq_ok.mp hb
    exact ⟨rfl, Or.inr ⟨r, Option.mem_toList.mp hr, rfl, hbody⟩⟩

/-- Everything upstream offers is prepared. -/
theorem exists_mem_prepare {account : String} {o : Offered} {prepared : List Fresh}
    (h : prepare account o = .ok prepared) {r : UpstreamOutgoingRequest}
    (hr : ∀ rs, o.upstream = .ok rs → r ∈ rs) : ∃ f ∈ prepared, f.id = r.requestId := by
  obtain ⟨rs, upstream, backup, hrs, h₁, -, rfl⟩ := prepare_eq_ok h
  obtain ⟨f, hf, hfr⟩ := exists_mem_of_mapM h₁ (hr rs hrs)
  exact ⟨f, List.mem_append_left _ hf, (freshOf_eq hfr).2.1⟩

theorem prepare_kind {account : String} {o : Offered} {prepared : List Fresh}
    (h : prepare account o = .ok prepared) {f : Fresh} (hf : f ∈ prepared) :
    f.kind ≠ .signingKeysUpload ∧ f.kind ≠ .accountKeysQueryOutOfBand := by
  rcases (mem_prepare h hf).2 with ⟨_, _, r, _, hr⟩ | ⟨_, _, hk, _⟩
  · exact freshOf_kind hr
  · rw [hk]; decide

/-! ### Positions -/

section stamp

variable {pending : OrdMap String Pending}

theorem le_stamp (fs : List Fresh) : ∀ n, n ≤ (stamp pending n fs).2 := by
  induction fs with
  | nil => intro n; exact Nat.le_refl n
  | cons f fs ih =>
    intro n
    simp only [stamp]
    split
    · exact ih n
    · exact Nat.le_of_succ_le (ih (n + 1))

/-- **Where a position comes from**: the entry had it, or the counter gave it. -/
theorem mem_stamp {fs : List Fresh} {e : Entry} : ∀ {n : ℕ}, e ∈ (stamp pending n fs).1 →
    ∃ f ∈ fs, f.id = e.id ∧ f.kind = e.kind ∧ f.body = e.body ∧
      (f.position pending = some e.sequence ∨
        (f.position pending = none ∧ n ≤ e.sequence ∧
          e.sequence < (stamp pending n fs).2)) := by
  induction fs with
  | nil => intro n h; simp [stamp] at h
  | cons f fs ih =>
    intro n h
    simp only [stamp] at h ⊢
    split at h
    · next k hk =>
      rcases List.mem_cons.mp h with rfl | h
      · exact ⟨f, List.mem_cons_self, rfl, rfl, rfl, Or.inl hk⟩
      · obtain ⟨g, hg, hrest⟩ := ih h
        exact ⟨g, List.mem_cons_of_mem _ hg, hrest⟩
    · next hk =>
      rcases List.mem_cons.mp h with rfl | h
      · exact ⟨f, List.mem_cons_self, rfl, rfl, rfl,
          Or.inr ⟨hk, Nat.le_refl _, le_stamp fs (n + 1)⟩⟩
      · obtain ⟨g, hg, h₁, h₂, h₃, h₄⟩ := ih h
        refine ⟨g, List.mem_cons_of_mem _ hg, h₁, h₂, h₃, ?_⟩
        rcases h₄ with h₄ | ⟨hnone, hle, hlt⟩
        · exact Or.inl h₄
        · exact Or.inr ⟨hnone, Nat.le_of_succ_le hle, hlt⟩

/-- Every entry gets a position. -/
theorem exists_mem_stamp {fs : List Fresh} {f : Fresh} : ∀ {n : ℕ}, f ∈ fs →
    ∃ k, (⟨k, f.id, f.kind, f.body⟩ : Entry) ∈ (stamp pending n fs).1 ∧
      (f.position pending = some k ∨
        (f.position pending = none ∧ n ≤ k ∧ k < (stamp pending n fs).2)) := by
  induction fs with
  | nil => intro n h; simp at h
  | cons g fs ih =>
    intro n h
    simp only [stamp]
    rcases List.mem_cons.mp h with rfl | h
    · split
      · next k hk => exact ⟨k, List.mem_cons_self, Or.inl hk⟩
      · next hk =>
        exact ⟨n, List.mem_cons_self, Or.inr ⟨hk, Nat.le_refl n, le_stamp fs (n + 1)⟩⟩
    · split
      · obtain ⟨k, hk, hpos⟩ := ih (n := n) h
        exact ⟨k, List.mem_cons_of_mem _ hk, hpos⟩
      · obtain ⟨k, hk, hpos⟩ := ih (n := n + 1) h
        refine ⟨k, List.mem_cons_of_mem _ hk, ?_⟩
        rcases hpos with hpos | ⟨hnone, hle, hlt⟩
        · exact Or.inl hpos
        · exact Or.inr ⟨hnone, Nat.le_of_succ_le hle, hlt⟩

theorem position_of_queuedAt {f : Fresh} {k : ℕ} (h : f.queuedAt = some k) :
    f.position pending = some k := by
  rw [Fresh.position, h, Option.some_or]

theorem position_of_not_queued {f : Fresh} (h : f.queuedAt = none) :
    f.position pending = (pending.get? f.id).map Pending.sequence := by
  rw [Fresh.position, h, Option.none_or]

end stamp

/-! ### The pending map -/

theorem get?_evict {batch : List Entry} {pending : OrdMap String Pending} {i : String}
    {p : Pending} (h : (evict batch pending).get? i = some p) : pending.get? i = some p := by
  unfold evict at h
  split at h
  · exact h
  · rw [OrdMap.get?_filter, Option.filter_eq_some_iff] at h
    exact h.1

/-- What is pending after a batch is recorded is in the batch, or was pending. -/
theorem get?_record {batch : List Entry} {i : String} {p : Pending} :
    ∀ pending : OrdMap String Pending, (record batch pending).get? i = some p →
      (∃ e ∈ batch, e.id = i ∧ p = ⟨e.kind, e.sequence⟩) ∨
        (pending.get? i = some p ∧ ∀ e ∈ batch, e.id ≠ i) := by
  induction batch with
  | nil => intro pending h; exact Or.inr ⟨h, by simp⟩
  | cons e batch ih =>
    intro pending h
    rcases ih (pending.insert e.id ⟨e.kind, e.sequence⟩) h with
      ⟨e', he', hid⟩ | ⟨hp, hne⟩
    · exact Or.inl ⟨e', List.mem_cons_of_mem _ he', hid⟩
    · rw [OrdMap.get?_insert] at hp
      split at hp
      · next hi => exact Or.inl ⟨e, List.mem_cons_self, hi.symm, (Option.some.inj hp).symm⟩
      · next hi =>
        refine Or.inr ⟨hp, fun e' he' => ?_⟩
        rcases List.mem_cons.mp he' with rfl | he'
        · exact Ne.symm hi
        · exact hne e' he'

/-- An id recorded stays recorded while the rest of the batch is. -/
theorem record_isSome {batch : List Entry} {i : String} :
    ∀ pending : OrdMap String Pending, (pending.get? i ≠ none ∨ ∃ e ∈ batch, e.id = i) →
      (record batch pending).get? i ≠ none := by
  induction batch with
  | nil =>
    intro pending h
    rcases h with h | ⟨e, he, _⟩
    · exact h
    · simp at he
  | cons e batch ih =>
    intro pending h
    refine ih (pending.insert e.id ⟨e.kind, e.sequence⟩) ?_
    rw [OrdMap.get?_insert]
    split
    · exact Or.inl (by simp)
    · next hi =>
      rcases h with h | ⟨e', he', hid⟩
      · exact Or.inl h
      · rcases List.mem_cons.mp he' with rfl | he'
        · exact absurd hid.symm hi
        · exact Or.inr ⟨e', he', hid⟩

namespace RequestState

/-! ### The section as a whole -/

theorem mem_handOut {s : RequestState} {fresh : List Fresh} {e : Entry} :
    e ∈ s.handOut fresh ↔ e ∈ (stamp s.pending s.nextSequence fresh).1 :=
  mem_sortByKey

/-- A stamped entry comes out under its stamp. -/
theorem exists_mem_handOut {s : RequestState} {fresh : List Fresh} {f : Fresh} {n : ℕ}
    (hf : f ∈ fresh) (hn : f.queuedAt = some n) :
    ∃ e ∈ s.handOut fresh, e.sequence = n ∧ e.id = f.id ∧ e.kind = f.kind := by
  obtain ⟨k, hk, hpos⟩ := @exists_mem_stamp s.pending fresh f s.nextSequence hf
  rw [position_of_queuedAt hn] at hpos
  rcases hpos with hpos | ⟨hpos, _⟩
  · exact ⟨_, mem_handOut.mpr hk, (Option.some.inj hpos).symm, rfl, rfl⟩
  · cases hpos

/-- **What a section that succeeds returns and leaves.** -/
theorem takeSection_ok {s : RequestState} {account : String} {prepared : List Fresh}
    {out : List OutgoingRequest} (h : (s.takeSection account prepared).1 = .ok out) :
    ∃ fresh, s.collect account prepared = .ok fresh ∧
      out = (s.handOut fresh).map Entry.outgoing ∧
      (s.takeSection account prepared).2 = s.handedOut fresh := by
  unfold takeSection at h ⊢
  split at h
  · cases h
  · next fresh hfresh =>
    cases h
    exact ⟨fresh, hfresh, rfl, rfl⟩

theorem takeSection_error {s : RequestState} {account : String} {prepared : List Fresh}
    {e : SessionError} (h : (s.takeSection account prepared).1 = .error e) :
    (s.takeSection account prepared).2 = s := by
  unfold takeSection at h ⊢
  split at h
  · rfl
  · cases h

theorem takeOutgoingRequests_ok {s : RequestState} {account : String} {trip : Option Offered}
    {out : List OutgoingRequest} (h : (s.takeOutgoingRequests account trip).1 = .ok out) :
    ∃ o prepared, trip = some o ∧ prepare account o = .ok prepared ∧
      (s.takeSection account prepared).1 = .ok out ∧
      (s.takeOutgoingRequests account trip).2 = (s.takeSection account prepared).2 := by
  cases trip with
  | none => cases h
  | some o =>
    cases hp : prepare account o with
    | error e => rw [takeOutgoingRequests, hp] at h; cases h
    | ok prepared =>
      simp only [takeOutgoingRequests, hp] at h ⊢
      exact ⟨o, prepared, rfl, hp, h, rfl⟩

/-- A take that fails changes nothing. -/
theorem takeOutgoingRequests_error {s : RequestState} {account : String} {trip : Option Offered}
    {e : SessionError} (h : (s.takeOutgoingRequests account trip).1 = .error e) :
    (s.takeOutgoingRequests account trip).2 = s := by
  cases trip with
  | none => rfl
  | some o =>
    cases hp : prepare account o with
    | error e => rw [takeOutgoingRequests, hp]
    | ok prepared =>
      simp only [takeOutgoingRequests, hp] at h ⊢
      exact takeSection_error h

/-- What a take returns is its batch, rendered. -/
theorem takeOutgoingRequests_fst (s : RequestState) (account : String) (trip : Option Offered) :
    (s.takeOutgoingRequests account trip).1 =
      (s.takeBatch account trip).map fun batch => batch.map Entry.outgoing := by
  cases trip with
  | none => rfl
  | some o =>
    cases hp : prepare account o with
    | error e => simp only [takeOutgoingRequests, takeBatch, hp]; rfl
    | ok prepared =>
      simp only [takeOutgoingRequests, takeBatch, takeSection, hp]
      cases s.collect account prepared <;> rfl

theorem takeBatch_ok {s : RequestState} {account : String} {trip : Option Offered}
    {batch : List Entry} (h : s.takeBatch account trip = .ok batch) :
    ∃ o prepared fresh, trip = some o ∧ prepare account o = .ok prepared ∧
      s.collect account prepared = .ok fresh ∧ batch = s.handOut fresh := by
  cases trip with
  | none => cases h
  | some o =>
    cases hp : prepare account o with
    | error e => simp only [takeBatch, hp] at h; cases h
    | ok prepared =>
      simp only [takeBatch, hp] at h
      obtain ⟨fresh, hfresh, rfl⟩ := map_eq_ok.mp h
      exact ⟨o, prepared, fresh, rfl, hp, hfresh, rfl⟩

/-- Nothing waits once a batch is handed out. -/
theorem not_carries_handedOut {s : RequestState} {fresh : List Fresh} {i : String} :
    ¬ (s.handedOut fresh).Carries i := by
  intro h
  cases h with
  | toDevice h => simp [handedOut] at h
  | claim h => simp [handedOut] at h
  | stamped h =>
    cases h with
    | action h => simp [handedOut] at h
    | signingKeys h => simp [handedOut] at h
    | accountQuery h => simp [handedOut] at h
  | peerQuery h => simp [handedOut] at h

/-- Every id of a batch was offered or waited. -/
theorem carries_of_mem_handOut {s : RequestState} {account : String} {prepared fresh : List Fresh}
    (hc : s.collect account prepared = .ok fresh) {e : Entry} (he : e ∈ s.handOut fresh) :
    (∃ f ∈ prepared, f.id = e.id) ∨ s.Carries e.id := by
  obtain ⟨f, hf, hid, -⟩ := mem_stamp (mem_handOut.mp he)
  rcases (mem_collect hc f).mp hf with hp | hq
  · exact Or.inl ⟨f, hp, hid⟩
  · exact Or.inr (hid ▸ hq.carries)

/-- What is pending after a take was offered, waited, or was pending. -/
theorem get?_handedOut {s : RequestState} {account : String} {prepared fresh : List Fresh}
    (hc : s.collect account prepared = .ok fresh) {i : String}
    (h : (s.handedOut fresh).pending.get? i ≠ none) :
    (∃ f ∈ prepared, f.id = i) ∨ s.Carries i ∨ s.pending.get? i ≠ none := by
  obtain ⟨p, hp⟩ := Option.ne_none_iff_exists'.mp h
  rcases get?_record _ hp with ⟨e, he, rfl, -⟩ | ⟨hp, -⟩
  · rcases carries_of_mem_handOut hc he with h | h
    · exact Or.inl h
    · exact Or.inr (Or.inl h)
  · exact Or.inr (Or.inr (by rw [get?_evict hp]; simp))

/-- Every id returned is pending. -/
theorem pending_of_mem_handOut {s : RequestState} {fresh : List Fresh} {e : Entry}
    (he : e ∈ s.handOut fresh) : (s.handedOut fresh).pending.get? e.id ≠ none :=
  record_isSome _ (Or.inr ⟨e, he, rfl⟩)

end RequestState

end MatrixCrypto
