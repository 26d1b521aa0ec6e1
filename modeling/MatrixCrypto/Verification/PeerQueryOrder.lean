import MatrixCrypto.Handout.Order
import MatrixCrypto.Verification.PeerQuery

/-!
# The upload before the query

What the takes return, over any interleaving of syncs, takes and marks.  The
registry numbers a query about another person when it is handed out, after
everything the same take read from upstream; so the order rests on the take having
made its trip after the upload was in the cache.

## Main definitions

* `Caught` — a query is handed out by a take whose trip came after its code was
  finished, or after its upload was handed out.
* `OnlyPeer` — an id waits in no queue but that of the queries about other people.
* `Behind` — the books of every query that was queued.

## Main results

* `precedes_of_prepared` — in one batch, what upstream offered comes before such a
  query.
* `behind_stable` — the books are kept by every step of every call.
* `upload_precedes_query` — **the upload is returned first**, in every run in
  which every query is caught.
* `upload_overtaken` — a run in which one is not.
-/

namespace MatrixCrypto

open Lib Relation

/-- Where the step is the section of a take, every query that waits is of a code
that was finished when the take made its trip, or its upload was handed out. -/
def Caught (S : Scanning) (p : PeerQueryPool) (e : PeerQueryEvent) : Prop :=
  ∀ seen prepared res, e = .section (.taking seen prepared) res → ∀ a ∈ p.shared.asked,
    (∃ r, (a.1, r) ∈ p.shared.flow.requests.queuedPeerQueries) →
      seen.codeState a.2 = .done ∨ ∀ r ∈ S.upload a.2, r.requestId ∈ p.shared.returned

/-! ### One batch -/

/-- The id waits in no queue but that of the queries about other people. -/
structure OnlyPeer (y : String) (s : RequestState) : Prop where
  stamped : ∀ n, ¬ s.QueuedAt n y
  toDevice : s.queuedToDevice.get? y = none
  claim : ∀ r, s.pendingClaim ≠ some (y, r)

section batch

variable {x y account : String} {s t : RequestState} {prepared fresh : List Fresh}

theorem OnlyPeer.of_spares (h : OnlyPeer y s) (hst : Spares y s t) : OnlyPeer y t where
  stamped := fun n hn => h.stamped n (hst.queuedAt hn)
  toDevice := by
    rw [Option.eq_none_iff_forall_ne_some]
    intro r hr
    cases h.toDevice.symm.trans (hst.toDevice r hr)
  claim := fun r hr => h.claim r (hst.claim r hr)

/-- Such an id is of nothing a batch holds but a query about another person. -/
theorem OnlyPeer.kind_of_contributes (h : OnlyPeer y s) {f : Fresh} (hf : s.Contributes account f)
    (hid : f.id = y) : f.kind = .peerKeysQueryOutOfBand := by
  subst hid
  cases hf with
  | toDevice hr _ => cases h.toDevice.symm.trans hr
  | claim hr _ => exact absurd hr (h.claim _)
  | accountQuery hr _ => exact absurd (.accountQuery hr) (h.stamped _)
  | signingKeys hr _ => exact absurd (.signingKeys hr) (h.stamped _)
  | peerQuery _ _ => rfl
  | @action n r f hr hf =>
    have hq : s.QueuedAt n r.requestId := .action hr
    rw [(freshOf_eq hf).2.1] at h
    exact absurd hq (h.stamped n)

/-- **What upstream offered comes before the query**, where neither was handed out
before. -/
theorem precedes_of_prepared
    (hprep : ∀ f ∈ prepared, f.queuedAt = none ∧ f.kind ≠ .peerKeysQueryOutOfBand ∧ f.id ≠ y)
    (hc : s.collect account prepared = .ok fresh) (hx : ∃ f ∈ prepared, f.id = x)
    (hxp : s.pending.get? x = none) (hy : OnlyPeer y s) (hyp : s.pending.get? y = none) :
    Precedes x y ((s.handOut fresh).map Entry.id) := by
  have hmem := RequestState.mem_collect hc
  obtain ⟨front, peers, action, rfl, hfront, hkind, -⟩ :=
    RequestState.collect_split hc fun f hf => (hprep f hf).2.1
  obtain ⟨f, hf, rfl⟩ := hx
  -- the offer has no number yet, so the counter gives it one before the queries
  obtain ⟨k, hk, hpos⟩ := @exists_mem_stamp s.pending front f s.nextSequence (hfront f hf)
  rw [position_of_not_queued (hprep f hf).1, hxp] at hpos
  have hlt : k < (stamp s.pending s.nextSequence front).2 := by
    rcases hpos with hpos | ⟨-, -, hlt⟩
    · cases hpos
    · exact hlt
  have hin : (⟨k, f.id, f.kind, f.body⟩ : Entry) ∈ s.handOut (front ++ (peers ++ action)) := by
    rw [RequestState.mem_handOut, stamp_append]
    exact List.mem_append_left _ hk
  refine precedes_map_of_key_lt (pairwise_sortByKey Entry.sequence _) hin fun b hb hby => ?_
  rw [mem_sortByKey, stamp_append, List.mem_append] at hb
  rcases hb with hb | hb
  · -- nothing before the queries has the query's id
    obtain ⟨g, hg, hgid, -⟩ := mem_stamp hb
    rcases (hmem g).mp (List.mem_append_left _ hg) with hgp | hgc
    · exact absurd (hgid.trans hby) (hprep g hgp).2.2
    · exact absurd (hy.kind_of_contributes hgc (hgid.trans hby)) (hkind g hg)
  · obtain ⟨g, hg, hgid, -, -, hnum⟩ := mem_stamp hb
    have hnone : g.position s.pending = none := by
      rcases (hmem g).mp (List.mem_append_right _ hg) with hgp | hgc
      · exact absurd (hgid.trans hby) (hprep g hgp).2.2
      · have hq : g.queuedAt = none := by
          cases hq : g.queuedAt with
          | none => rfl
          | some m => exact absurd (hgid.trans hby ▸ hgc.queuedAt hq) (hy.stamped m)
        rw [position_of_not_queued hq, hgid, hby, hyp]
        rfl
    rcases hnum with hnum | ⟨-, hle, -⟩
    · rw [hnone] at hnum
      cases hnum
    · show k < b.sequence
      omega

end batch

/-! ### The books -/

/-- Nothing finished is undone, and nothing returned is taken back. -/
structure PeerQueryState.Later (s t : PeerQueryState) : Prop where
  done : ∀ q, s.flow.upstream.codeState q = .done → t.flow.upstream.codeState q = .done
  returned : ∀ i ∈ s.returned, i ∈ t.returned

/-- The upload of every finished code is offered or was returned, and a query about
another person waits in its own queue only, behind the upload of its code. -/
structure Behind (S : Scanning) (s : PeerQueryState) : Prop where
  cache : ∀ r ∈ s.cache, ¬ S.Query r.requestId
  uploads : ∀ q, s.flow.upstream.codeState q = .done → ∀ r ∈ S.upload q,
    r ∈ s.cache ∨ r.requestId ∈ s.returned
  asked : ∀ a ∈ s.asked, S.Query a.1 ∧ s.flow.upstream.codeState a.2 = .done
  pending : ∀ i, s.flow.requests.pending.get? i ≠ none → i ∈ s.returned
  onlyPeer : ∀ i, S.Query i → OnlyPeer i s.flow.requests
  waiting : ∀ i r, S.Query i → (i, r) ∈ s.flow.requests.queuedPeerQueries →
    i ∈ s.asked.map Prod.fst ∧ i ∉ s.returned
  returned : ∀ i ∈ s.returned, S.Query i → i ∈ s.asked.map Prod.fst
  precedes : ∀ a ∈ s.asked, ∀ r ∈ S.upload a.2, Precedes r.requestId a.1 s.returned

/-- What a call has in hand: codes that are finished, a batch with the upload of
every code that was finished during the trip, an id that was returned. -/
def PeerQueryCall.Fits (S : Scanning) (s : PeerQueryState) : PeerQueryCall → Prop
  | asking owed => ∀ q ∈ owed, s.flow.upstream.codeState q = .done
  | taking seen prepared =>
    (∀ f ∈ prepared, f.queuedAt = none ∧ f.kind ≠ .peerKeysQueryOutOfBand ∧ ¬ S.Query f.id) ∧
      ∀ q, seen.codeState q = .done → ∀ r ∈ S.upload q,
        (∃ f ∈ prepared, f.id = r.requestId) ∨ r.requestId ∈ s.returned
  | marking id => id ∈ s.returned
  | _ => True

section books

variable {S : Scanning} {account : String} {s t : PeerQueryState}

theorem PeerQueryState.Later.refl (s : PeerQueryState) : s.Later s := ⟨fun _ h => h, fun _ h => h⟩

theorem PeerQueryCall.Fits.later {call : PeerQueryCall} (h : call.Fits S s) (hst : s.Later t) :
    call.Fits S t := by
  cases call with
  | asking owed => exact fun q hq => hst.done q (h q hq)
  | taking seen prepared =>
    refine ⟨h.1, fun q hq r hr => ?_⟩
    rcases h.2 q hq r hr with hf | hret
    · exact Or.inl hf
    · exact Or.inr (hst.returned _ hret)
  | marking id => exact hst.returned _ h
  | _ => trivial

/-- Finishing a code undoes none. -/
theorem Scanning.finish_later {q : QrVerification} : s.Later (S.finish s q) := by
  refine ⟨fun q' hq' => ?_, fun _ h => h⟩
  by_cases heq : q' = q
  · rw [heq]
    exact Upstream.setCode_codeState _ _ _
  · exact (Upstream.setCode_codeState_of_ne _ _ heq _).trans hq'

theorem Scanning.Received.later (h : S.Received s t) : s.Later t := by
  cases h with
  | moves hu => exact ⟨fun q hq => (hu q).mpr hq, fun _ h => h⟩
  | finishes _ => exact S.finish_later
  | reaction _ => exact ⟨fun _ h => h, fun _ h => h⟩

/-- A step that drains nothing and queues no query keeps the books, if no upload
leaves the cache that was not returned. -/
theorem Behind.moved (h : Behind S s) (hlater : s.Later t)
    (hreq : ∀ y, S.Query y → Spares y s.flow.requests t.flow.requests)
    (hpending : ∀ i, t.flow.requests.pending.get? i ≠ none → s.flow.requests.pending.get? i ≠ none)
    (hasked : t.asked = s.asked) (hreturned : t.returned = s.returned)
    (hcache : ∀ r ∈ t.cache, ¬ S.Query r.requestId)
    (huploads : ∀ q, t.flow.upstream.codeState q = .done → ∀ r ∈ S.upload q,
      r ∈ t.cache ∨ r.requestId ∈ t.returned) : Behind S t where
  cache := hcache
  uploads := huploads
  asked := by
    rw [hasked]
    exact fun a ha => ⟨(h.asked a ha).1, hlater.done _ (h.asked a ha).2⟩
  pending := by
    rw [hreturned]
    exact fun i hi => h.pending i (hpending i hi)
  onlyPeer := fun i hi => (h.onlyPeer i hi).of_spares (hreq i hi)
  waiting := by
    rw [hasked, hreturned]
    exact fun i r hi hr => h.waiting i r hi ((hreq i hi).peerQueries r hr)
  returned := by
    rw [hasked, hreturned]
    exact h.returned
  precedes := by
    rw [hasked, hreturned]
    exact h.precedes

/-- A step that leaves the request registry alone. -/
theorem Behind.passed (h : Behind S s) (hlater : s.Later t)
    (hreq : t.flow.requests = s.flow.requests) (hasked : t.asked = s.asked)
    (hreturned : t.returned = s.returned) (hcache : ∀ r ∈ t.cache, ¬ S.Query r.requestId)
    (huploads : ∀ q, t.flow.upstream.codeState q = .done → ∀ r ∈ S.upload q,
      r ∈ t.cache ∨ r.requestId ∈ t.returned) : Behind S t :=
  h.moved hlater (fun y _ => hreq ▸ Spares.refl y _) (fun _ hi => hreq ▸ hi) hasked hreturned hcache
    huploads

/-- **One thing a sync brings keeps the books.** -/
theorem Behind.received (hown : S.Own) (h : Behind S s) (hst : S.Received s t) : Behind S t := by
  have hlater := hst.later
  cases hst with
  | moves hu =>
    exact h.passed hlater rfl rfl rfl h.cache fun q hq => h.uploads q ((hu q).mp hq)
  | @finishes q _ =>
    refine h.passed hlater rfl rfl rfl (fun r hr => ?_) fun q' hq' r hr => ?_
    · rcases List.mem_append.mp hr with hr | hr
      · exact h.cache r hr
      · exact hown q r (Option.mem_toList.mp hr)
    · by_cases heq : q' = q
      · -- the code that was finished: its upload is in the cache now
        subst heq
        exact Or.inl (List.mem_append_right _ (Option.mem_toList.mpr hr))
      · have hdone : s.flow.upstream.codeState q' = .done :=
          (Upstream.setCode_codeState_of_ne _ _ heq _).symm.trans hq'
        rcases h.uploads q' hdone r hr with hc | hret
        · exact Or.inl (List.mem_append_left _ hc)
        · exact Or.inr hret
  | reaction hforeign =>
    refine h.passed hlater rfl rfl rfl (fun r hr => ?_) fun q hq r hr => ?_
    · rcases List.mem_append.mp hr with hr | hr
      · exact h.cache r hr
      · rw [List.mem_singleton] at hr
        rw [hr]
        exact hforeign
    · rcases h.uploads q hq r hr with hc | hret
      · exact Or.inl (List.mem_append_left _ hc)
      · exact Or.inr hret

/-- What a sync brings, one thing after another. -/
theorem Behind.receives (hown : S.Own) (h : Behind S s) (hst : ReflTransGen S.Received s t) :
    Behind S t ∧ s.Later t := by
  induction hst with
  | refl => exact ⟨h, .refl s⟩
  | tail _ hstep ih =>
    obtain ⟨hb, hl⟩ := ih
    have hl' := hstep.later
    exact ⟨hb.received hown hstep, fun q hq => hl'.done q (hl.done q hq),
      fun i hi => hl'.returned i (hl.returned i hi)⟩

/-- A query is queued for a finished code: it waits, and was never returned. -/
theorem Behind.asks (h : Behind S s) {q : QrVerification} {id : String} (r : KeysQueryRequest)
    (hdone : s.flow.upstream.codeState q = .done) (hid : S.Query id)
    (hnew : id ∉ s.asked.map Prod.fst) :
    Behind S { s with
      flow := { s.flow with requests := s.flow.requests.queuePeerKeyQuery id r }
      asked := s.asked ++ [(id, q)] } := by
  have hfresh : id ∉ s.returned := fun hret => hnew (h.returned id hret hid)
  refine { h with
    asked := fun a ha => ?_
    onlyPeer := fun i hi => ?_
    waiting := fun i r' hi hr' => ?_
    returned := fun i hi hq => ?_
    precedes := fun a ha r' hr' => ?_ }
  · rcases List.mem_append.mp ha with ha | ha
    · exact h.asked a ha
    · rw [List.mem_singleton] at ha
      subst ha
      exact ⟨hid, hdone⟩
  · have honly := h.onlyPeer i hi
    exact ⟨fun n hn => honly.stamped n (hn.of_queues rfl rfl rfl), honly.toDevice, honly.claim⟩
  · rw [List.map_append, List.mem_append]
    rcases List.mem_append.mp hr' with hr' | hr'
    · obtain ⟨hasked, hret⟩ := h.waiting i r' hi hr'
      exact ⟨Or.inl hasked, hret⟩
    · rw [List.mem_singleton, Prod.mk.injEq] at hr'
      obtain ⟨rfl, -⟩ := hr'
      exact ⟨Or.inr (List.mem_singleton_self _), hfresh⟩
  · rw [List.map_append]
    exact List.mem_append_left _ (h.returned i hi hq)
  · rcases List.mem_append.mp ha with ha | ha
    · exact h.precedes a ha r' hr'
    · rw [List.mem_singleton] at ha
      subst ha
      exact precedes_of_not_mem hfresh

/-- Upstream is told that a returned request was sent: no other upload leaves the
cache. -/
theorem Behind.told (h : Behind S s) {id : String} (hid : id ∈ s.returned) :
    Behind S { s with cache := s.cache.filter fun r => r.requestId ≠ id } := by
  refine h.passed ⟨fun _ h => h, fun _ h => h⟩ rfl rfl rfl (fun r hr => ?_) fun q hq r hr => ?_
  · exact h.cache r (List.mem_filter.mp hr).1
  · rcases h.uploads q hq r hr with hc | hret
    · by_cases heq : r.requestId = id
      · exact Or.inr (heq ▸ hid)
      · exact Or.inl (List.mem_filter.mpr ⟨hc, by simpa using heq⟩)
    · exact Or.inr hret

/-- A query in a batch was waiting in its queue. -/
theorem Behind.waits_of_mem_batch (h : Behind S s) {prepared fresh : List Fresh} {y : String}
    (hprep : ∀ f ∈ prepared, ¬ S.Query f.id)
    (hc : s.flow.requests.collect account prepared = .ok fresh) (hy : S.Query y)
    (hmem : y ∈ (s.flow.requests.handOut fresh).map Entry.id) :
    ∃ r, (y, r) ∈ s.flow.requests.queuedPeerQueries := by
  have honly := h.onlyPeer y hy
  obtain ⟨e, he, rfl⟩ := List.mem_map.mp hmem
  rcases RequestState.carries_of_mem_handOut hc he with ⟨f, hf, hid⟩ | hcarries
  · exact absurd (hid ▸ hy) (hprep f hf)
  · cases hcarries with
    | toDevice hr => cases honly.toDevice.symm.trans hr
    | claim hr => exact absurd hr (honly.claim _)
    | stamped hr => exact absurd hr (honly.stamped _)
    | peerQuery hr => exact ⟨_, hr⟩

/-- A take builds its batch.  Every query in it was caught, so its upload was read
in the same take's trip or was returned before. -/
theorem Behind.takes (h : Behind S s) {seen : Upstream} {prepared : List Fresh}
    (hfits : (PeerQueryCall.taking seen prepared).Fits S s)
    (hcaught : ∀ a ∈ s.asked, (∃ r, (a.1, r) ∈ s.flow.requests.queuedPeerQueries) →
      seen.codeState a.2 = .done ∨ ∀ r ∈ S.upload a.2, r.requestId ∈ s.returned) :
    Behind S { s with
      flow := { s.flow with requests := (s.flow.requests.takeSection account prepared).2 }
      returned := s.returned ++
        (PeerQueryResult.took (s.flow.requests.takeSection account prepared).1).ids } := by
  obtain ⟨hprep, hread⟩ := hfits
  cases hres : (s.flow.requests.takeSection account prepared).1 with
  | error e =>
    rw [RequestState.takeSection_error hres]
    simpa [PeerQueryResult.ids] using h
  | ok out =>
    obtain ⟨fresh, hc, rfl, hleft⟩ := RequestState.takeSection_ok hres
    have hids : (PeerQueryResult.took (.ok ((s.flow.requests.handOut fresh).map
        Entry.outgoing))).ids = (s.flow.requests.handOut fresh).map Entry.id := by
      rw [PeerQueryResult.ids, List.map_map]
      rfl
    rw [hleft, hids]
    have hwaits := fun y => h.waits_of_mem_batch (y := y) (fun f hf => (hprep f hf).2.2) hc
    have hdrained := fun i => @RequestState.not_carries_handedOut s.flow.requests fresh i
    refine {
      cache := h.cache
      uploads := fun q hq r hr => (h.uploads q hq r hr).imp_right fun hret =>
        List.mem_append_left _ hret
      asked := h.asked
      pending := fun i hi => ?_
      onlyPeer := fun i _ => ⟨fun n hn => hdrained i (.stamped hn), rfl, fun r hr =>
        hdrained i (.claim hr)⟩
      waiting := fun i r _ hr => absurd (.peerQuery hr) (hdrained i)
      returned := fun i hi hq => ?_
      precedes := fun a ha r hr => ?_ }
    · obtain ⟨p, hp⟩ := Option.ne_none_iff_exists'.mp hi
      rcases get?_record _ hp with ⟨e, he, hid, -⟩ | ⟨hp, -⟩
      · exact List.mem_append_right _ (hid ▸ List.mem_map_of_mem he)
      · exact List.mem_append_left _ (h.pending i (by rw [get?_evict hp]; simp))
    · rcases List.mem_append.mp hi with hi | hi
      · exact h.returned i hi hq
      · obtain ⟨r, hr⟩ := hwaits i hq hi
        exact (h.waiting i r hq hr).1
    · -- a query in this batch: its upload went out before, or stands in front of it here
      obtain ⟨hquery, -⟩ := h.asked a ha
      refine (h.precedes a ha r hr).append_right fun hy => ?_
      by_cases hx : r.requestId ∈ s.returned
      · exact Or.inl hx
      obtain ⟨query, hq⟩ := hwaits a.1 hquery hy
      have hseen : seen.codeState a.2 = .done := by
        rcases hcaught a ha ⟨query, hq⟩ with hseen | hret
        · exact hseen
        · exact absurd (hret r hr) hx
      have hfresh : ∀ i, i ∉ s.returned → s.flow.requests.pending.get? i = none := by
        intro i hi
        by_contra hp
        exact hi (h.pending i hp)
      rcases hread a.2 hseen r hr with hf | hret
      · refine Or.inr (precedes_of_prepared (fun f hf => ?_) hc hf (hfresh _ hx)
          (h.onlyPeer a.1 hquery) (hfresh _ (h.waiting a.1 query hquery hq).2))
        obtain ⟨hnone, hkind, hforeign⟩ := hprep f hf
        exact ⟨hnone, hkind, fun heq => hforeign (heq ▸ hquery)⟩
      · exact Or.inl hret

/-- A take's trip reads the whole cache, and no query. -/
theorem Behind.fits_taking (h : Behind S s) {o : Offered} {prepared : List Fresh}
    (ho : S.Answers s o) (hp : prepare account o = .ok prepared) :
    (PeerQueryCall.taking s.flow.upstream prepared).Fits S s := by
  refine ⟨fun f hf => ⟨(mem_prepare hp hf).1, prepare_kind_ne_peer hp hf, ?_⟩, fun q hq r hr => ?_⟩
  · rcases (mem_prepare hp hf).2 with ⟨rs, hrs, r, hr, hfr⟩ | ⟨r, hb, -⟩
    · rw [(freshOf_eq hfr).2.1]
      exact h.cache r (ho.upstream rs hrs ▸ hr)
    · exact ho.backup _ hb
  · rcases h.uploads q hq r hr with hcache | hret
    · exact Or.inl (exists_mem_prepare hp (fun rs hrs => (ho.upstream rs hrs).symm ▸ hcache))
    · exact Or.inr hret

/-- No section undoes a finished code or takes back what was returned. -/
theorem PeerQueryNext.later {l : PeerQueryCall} {res : PeerQueryCall ⊕ PeerQueryResult}
    (hown : S.Own) (hs : Behind S s) (h : PeerQueryNext S account s l t res) : s.Later t := by
  cases h with
  | receives hst => exact (hs.receives hown hst).2
  | receiveFails hst => exact (hs.receives hown hst).2
  | takeSection => exact ⟨fun _ h => h, fun _ hi => List.mem_append_left _ hi⟩
  | _ => exact ⟨fun _ h => h, fun _ h => h⟩

/-- One section of a call that is caught up. -/
theorem Behind.section (hown : S.Own) {call : PeerQueryCall}
    {res : PeerQueryCall ⊕ PeerQueryResult} {calls : List PeerQueryCall}
    (hG : Caught S ⟨s, calls⟩ (.section call res)) (hs : Behind S s) (hcall : call.Fits S s)
    (hnext : PeerQueryNext S account s call t res) :
    Behind S t ∧ ∀ call', res = .inl call' → call'.Fits S t := by
  have hlater := hnext.later hown hs
  cases hnext with
  | receives hst =>
    exact ⟨(hs.receives hown hst).1, by rintro _ ⟨⟩; trivial⟩
  | receiveFails hst => exact ⟨(hs.receives hown hst).1, by rintro _ ⟨⟩⟩
  | queries =>
    refine ⟨hs.passed hlater rfl rfl rfl hs.cache hs.uploads, ?_⟩
    rintro _ ⟨⟩
    exact fun q hq => Registry.codeState_of_mem_codesDue hq
  | skips _ =>
    refine ⟨hs, ?_⟩
    rintro _ ⟨⟩
    exact fun q hq => hcall q (List.mem_cons_of_mem _ hq)
  | @asks q rest id r _ hid hnew =>
    refine ⟨hs.asks r (hcall q List.mem_cons_self) hid hnew, ?_⟩
    rintro _ ⟨⟩
    exact fun q' hq' => hcall q' (List.mem_cons_of_mem _ hq')
  | syncs => exact ⟨hs, by rintro _ ⟨⟩⟩
  | askFails => exact ⟨hs, by rintro _ ⟨⟩⟩
  | takeTrip ho hp =>
    refine ⟨hs, ?_⟩
    rintro _ ⟨⟩
    exact hs.fits_taking ho hp
  | takeTripFails _ _ => exact ⟨hs, by rintro _ ⟨⟩⟩
  | takeSection => exact ⟨hs.takes hcall (hG _ _ _ rfl), by rintro _ ⟨⟩⟩
  | markLookup hp =>
    refine ⟨hs, ?_⟩
    rintro _ ⟨⟩
    exact hs.pending _ hp
  | markUnknown _ => exact ⟨hs, by rintro _ ⟨⟩⟩
  | markRefused _ => exact ⟨hs, by rintro _ ⟨⟩⟩
  | markTrip => exact ⟨hs.told hcall, by rintro _ ⟨⟩; trivial⟩
  | markTripFails => exact ⟨hs, by rintro _ ⟨⟩⟩
  | @markSettles id answer =>
    -- a report only takes an entry away
    have hwrite : ForeignWrite (fun i => ¬ S.Query i) s.flow.requests
        (s.flow.requests.settle id answer) := .settles id answer
    refine ⟨hs.moved hlater (fun y hy => ?_) hwrite.pending rfl rfl hs.cache hs.uploads,
      by rintro _ ⟨⟩⟩
    exact hwrite.spares fun i hi heq => hi (heq ▸ hy)

/-- What happens outside the calls. -/
theorem Behind.world {e : PeerQueryMove} (hs : Behind S s)
    (hw : (peerQuerying S account).world s e t) :
    Behind S t ∧ ∀ m : PeerQueryCall, m.Fits S s → m.Fits S t := by
  cases e with
  | writes requests =>
    obtain ⟨hwrite, rfl⟩ := hw
    refine ⟨hs.moved ⟨fun _ h => h, fun _ h => h⟩ (fun y hy => ?_) hwrite.pending rfl rfl
      hs.cache hs.uploads, fun m hm => hm.later ⟨fun _ h => h, fun _ h => h⟩⟩
    exact hwrite.spares fun i hi heq => hi (heq ▸ hy)
  | offers cache =>
    obtain ⟨hforeign, hkept, rfl⟩ := hw
    refine ⟨hs.passed ⟨fun _ h => h, fun _ h => h⟩ rfl rfl rfl hforeign fun q hq r hr => ?_,
      fun m hm => hm.later ⟨fun _ h => h, fun _ h => h⟩⟩
    exact (hs.uploads q hq r hr).imp_left fun hc => hkept q r hr hc
  | flows flow =>
    obtain ⟨hreq, hdone, rfl⟩ := hw
    have hlater : s.Later { s with flow := flow } :=
      ⟨fun q hq => (hdone q).mpr hq, fun _ h => h⟩
    exact ⟨hs.passed hlater hreq rfl rfl hs.cache fun q hq => hs.uploads q ((hdone q).mp hq),
      fun m hm => hm.later hlater⟩

/-- **The books are kept by every step** that catches every query. -/
theorem behind_stable (account : String) (hown : S.Own) :
    (peerQuerying S account).Stable (Caught S) (Behind S) fun s call => call.Fits S s where
  start := by
    intro p call _ _ (hbegins : call.Begins)
    cases call with
    | asking _ => exact hbegins.elim
    | taking _ _ => exact hbegins.elim
    | marking _ => exact hbegins.elim
    | _ => trivial
  own := by
    intro p call t res hG _ hs hcall hnext
    exact hs.section hown hG hcall hnext
  other := by
    intro p call t res m _ _ hs _ hm (hnext : PeerQueryNext S account p.shared call t res)
    exact hm.later (hnext.later hown hs)
  world := by
    intro p e t _ hs hw
    exact hs.world hw

/-- Nothing was finished, queued or returned yet in a process that has just
started. -/
theorem Scanning.Initial.behind (h : S.Initial s) : Behind S s where
  cache := h.cache
  uploads := fun q hq => absurd hq (h.unfinished q)
  asked := by rw [h.asked]; intro a ha; cases ha
  pending := by rw [h.requests]; intro i hi; exact absurd rfl hi
  onlyPeer := by
    rw [h.requests]
    refine fun i _ => ⟨fun n hn => ?_, rfl, fun r hr => ?_⟩
    · cases hn with
      | action h => cases h
      | signingKeys h => cases h
      | accountQuery h => cases h
    · cases hr
  waiting := by rw [h.requests]; intro i r _ hr; cases hr
  returned := by rw [h.returned]; intro i hi; cases hi
  precedes := by rw [h.asked]; intro a ha; cases ha

/-- **The upload of a scanned code is returned before the query the code owes**, in
an earlier batch or earlier in the same one, in every run in which every query is
handed out by a take whose trip came after the code was finished, or after the
upload was handed out. -/
theorem upload_precedes_query {p q : PeerQueryPool} {es : List PeerQueryEvent} (hown : S.Own)
    (hinit : (peerQueries S account).init p)
    (hrun : ((peerQueries S account).restrict (Caught S)).Run p es q) :
    ∀ a ∈ q.shared.asked, ∀ r ∈ S.upload a.2,
      Precedes r.requestId a.1 q.shared.returned := by
  obtain ⟨hshared, hcalls⟩ := hinit
  have hstart : Calls.Asserted (Behind S) (fun s call => call.Fits S s) p :=
    ⟨hshared.behind, by rw [hcalls]; intro call hcall; cases hcall⟩
  exact ((behind_stable account hown).run hrun hstart).1.precedes

end books

/-! ### A code this side scanned

The far side acknowledges the scan, and the sync that brings the acknowledgement
finishes the code.  In the second run a take makes its trip before that sync and
builds its batch after it. -/

/-- The code. -/
def reciprocatedCode : QrVerification := ⟨0, "f1", "@bob:example.org"⟩

/-- Its completion signs the other person's key. -/
def scanningBob : Scanning where
  upload := fun q => if q = reciprocatedCode then some (upload "sig1") else none
  Query := fun i => i = "query1"

theorem scanningBob_own : scanningBob.Own := by
  intro q r hr
  by_cases hq : q = reciprocatedCode
  · simp only [scanningBob, hq, if_true, Option.mem_def, Option.some.injEq] at hr
    subst hr
    show ¬ "sig1" = "query1"
    decide
  · simp [scanningBob, hq] at hr

/-- The code was scanned and confirmed. -/
def reciprocatedFlow : FlowState where
  flows := OrdMap.empty.insert "f1" (.fromRequest ⟨0, "f1", "@bob:example.org"⟩)
  upstream := {
    userId := "@alice:example.org"
    deviceId := "ALICE"
    trackedUsers := ["@bob:example.org"]
    requestState := fun _ => .transitioned (.qr reciprocatedCode)
    sasState := fun _ => .created
    codeState := fun _ => .reciprocated
    getVerificationRequest := fun _ _ => none
    negotiated := fun _ => ([], [])
    hasCodeKeys := fun _ => true
    scanError := fun _ _ => none
    verifications := fun _ => ∅
    getVerificationRequests := fun _ => [] }
  requests := .initial
  observed := false

def reciprocatedState : PeerQueryState := ⟨reciprocatedFlow, [], [], []⟩

/-- The sync has finished the code. -/
def finishedState : PeerQueryState := scanningBob.finish reciprocatedState reciprocatedCode

/-- The key query pass has walked the registry. -/
def walkedState : PeerQueryState :=
  { finishedState with flow := { finishedState.flow with
    flows := (finishedState.flow.flows.peersOwedAKeyQuery finishedState.flow.upstream).2 } }

/-- The query waits. -/
def askedState : PeerQueryState :=
  { walkedState with
    flow := { walkedState.flow with
      requests := walkedState.flow.requests.queuePeerKeyQuery "query1" bobQuery }
    asked := [("query1", reciprocatedCode)] }

/-- The upload, as a take prepares it. -/
def preparedUpload : List Fresh := [⟨none, "sig1", .signatureUpload, .obj []⟩]

theorem reciprocatedState_initial : scanningBob.Initial reciprocatedState :=
  ⟨rfl, fun _ => by simp [reciprocatedState, reciprocatedFlow], by simp [reciprocatedState], rfl,
    rfl⟩

/-- The far side's acknowledgement arrives. -/
theorem finishes_reciprocatedCode : PeerQueryNext scanningBob "@alice:example.org" reciprocatedState
    .receiving finishedState (.inl .querying) :=
  .receives (.single (.finishes rfl))

theorem walks_finishedState : PeerQueryNext scanningBob "@alice:example.org" finishedState
    .querying walkedState (.inl (.asking [reciprocatedCode])) := by
  have hdue : finishedState.flow.flows.codesDue finishedState.flow.upstream =
      [reciprocatedCode] := by decide
  rw [← hdue]
  exact .queries

theorem asks_walkedState : PeerQueryNext scanningBob "@alice:example.org" walkedState
    (.asking [reciprocatedCode]) askedState (.inl (.asking [])) :=
  .asks (by decide) rfl (by simp [walkedState, finishedState, Scanning.finish, reciprocatedState])

/-- A take reads the upload off the cache. -/
theorem reads_upload {s : PeerQueryState} (h : s.cache = [upload "sig1"]) :
    PeerQueryNext scanningBob "@alice:example.org" s .take s
      (.inl (.taking s.flow.upstream preparedUpload)) := by
  have ho : scanningBob.Answers s ⟨.ok [upload "sig1"], none⟩ := by
    refine ⟨?_, fun b hb => by cases hb⟩
    rintro rs ⟨⟩
    exact h.symm
  exact .takeTrip ho rfl

/-- A take reads a cache that is empty. -/
theorem reads_nothing {s : PeerQueryState} (h : s.cache = []) :
    PeerQueryNext scanningBob "@alice:example.org" s .take s
      (.inl (.taking s.flow.upstream [])) := by
  have ho : scanningBob.Answers s ⟨.ok [], none⟩ := by
    refine ⟨?_, fun b hb => by cases hb⟩
    rintro rs ⟨⟩
    exact h.symm
  exact .takeTrip ho rfl

/-- A section of a call, with others in flight before and after it. -/
theorem scanning_section {s t : PeerQueryState} {l : PeerQueryCall}
    {res : PeerQueryCall ⊕ PeerQueryResult} (before after : List PeerQueryCall)
    (h : PeerQueryNext scanningBob "@alice:example.org" s l t res) :
    (peerQueries scanningBob "@alice:example.org").step ⟨s, before ++ l :: after⟩
      (.section l res) ⟨t, before ++ (remaining res ++ after)⟩ :=
  Calls.step_section (peerQuerying scanningBob "@alice:example.org") before after h

theorem scanning_start {s : PeerQueryState} (calls : List PeerQueryCall) {l : PeerQueryCall}
    (h : l.Begins) : (peerQueries scanningBob "@alice:example.org").step ⟨s, calls⟩
      (.start l) ⟨s, calls ++ [l]⟩ :=
  Calls.step_start (peerQuerying scanningBob "@alice:example.org") h

/-- The take makes its trip once the sync is over: the upload is handed out first. -/
theorem upload_precedes_askedState : ∃ es q,
    ((peerQueries scanningBob "@alice:example.org").restrict (Caught scanningBob)).Run
      ⟨reciprocatedState, []⟩ es q ∧ q.shared.returned = ["sig1", "query1"] ∧
        ∀ a ∈ q.shared.asked, ∀ r ∈ scanningBob.upload a.2,
          Precedes r.requestId a.1 q.shared.returned := by
  let S := (peerQueries scanningBob "@alice:example.org").restrict (Caught scanningBob)
  have hquiet : ∀ p l res, (∀ seen prepared, l ≠ .taking seen prepared) →
      Caught scanningBob p (.section l res) := by
    rintro p l res hl seen prepared res' ⟨⟩
    exact absurd rfl (hl seen prepared)
  have hstart : ∀ p l, Caught scanningBob p (.start l) := by
    rintro p l seen prepared res ⟨⟩
  have hcaught : ∀ calls res, Caught scanningBob ⟨askedState, calls⟩
      (.section (.taking askedState.flow.upstream preparedUpload) res) := by
    rintro calls res seen prepared res' ⟨⟩ a ha -
    obtain rfl := List.mem_singleton.mp ha
    exact Or.inl rfl
  obtain ⟨es, q, hrun, hids⟩ : ∃ es q, S.Run ⟨reciprocatedState, []⟩ es q ∧
      q.shared.returned = ["sig1", "query1"] :=
    ⟨_, _, .cons ⟨hstart _ _, scanning_start [] (l := .receiving) trivial⟩
      (.cons ⟨hquiet _ _ _ (by simp), scanning_section [] [] finishes_reciprocatedCode⟩
        (.cons ⟨hquiet _ _ _ (by simp), scanning_section [] [] walks_finishedState⟩
          (.cons ⟨hquiet _ _ _ (by simp), scanning_section [] [] asks_walkedState⟩
            (.cons ⟨hquiet _ _ _ (by simp), scanning_section [] [] .syncs⟩
              (.cons ⟨hstart _ _, scanning_start [] (l := .take) trivial⟩
                (.cons ⟨hquiet _ _ _ (by simp), scanning_section [] [] (reads_upload rfl)⟩
                  (.single ⟨hcaught _ _, scanning_section [] [] .takeSection⟩))))))), rfl⟩
  exact ⟨es, q, hrun, hids,
    upload_precedes_query scanningBob_own ⟨reciprocatedState_initial, rfl⟩ hrun⟩

/-- **A query overtakes its upload**: the take makes its trip, the sync finishes the
code and queues the query, and the take builds its batch. -/
theorem upload_overtaken : ∃ es q, scanningBob.Own ∧
    (peerQueries scanningBob "@alice:example.org").init ⟨reciprocatedState, []⟩ ∧
      (peerQueries scanningBob "@alice:example.org").Run ⟨reciprocatedState, []⟩ es q ∧
        q.calls = [] ∧ q.shared.asked = [("query1", reciprocatedCode)] ∧
          scanningBob.upload reciprocatedCode = some (upload "sig1") ∧
            q.shared.returned = ["query1", "sig1"] ∧
              ¬ Precedes "sig1" "query1" q.shared.returned := by
  let early : PeerQueryCall := .taking reciprocatedFlow.upstream []
  obtain ⟨es, q, hrun, hidle, hasked, hids⟩ : ∃ es q,
      (peerQueries scanningBob "@alice:example.org").Run ⟨reciprocatedState, []⟩ es q ∧
        q.calls = [] ∧ q.shared.asked = [("query1", reciprocatedCode)] ∧
          q.shared.returned = ["query1", "sig1"] :=
    ⟨_, _, .cons (scanning_start [] (l := .take) trivial)
      (.cons (scanning_section [] [] (reads_nothing rfl))
        (.cons (scanning_start [early] (l := .receiving) trivial)
          (.cons (scanning_section [early] [] finishes_reciprocatedCode)
            (.cons (scanning_section [early] [] walks_finishedState)
              (.cons (scanning_section [early] [] asks_walkedState)
                (.cons (scanning_section [early] [] .syncs)
                  -- the batch is built of what was read before the sync
                  (.cons (scanning_section [] [] .takeSection)
                    (.cons (scanning_start [] (l := .take) trivial)
                      (.cons (scanning_section [] [] (reads_upload rfl))
                        (.single (scanning_section [] [] .takeSection))))))))))), rfl, rfl, rfl⟩
  refine ⟨es, q, scanningBob_own, ⟨reciprocatedState_initial, rfl⟩, hrun, hidle, hasked, rfl, hids,
    fun h => ?_⟩
  rw [hids] at h
  exact not_precedes_cons _ _ _ h

end MatrixCrypto
