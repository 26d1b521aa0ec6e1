import MatrixCrypto.Handout.Sections

/-!
# The sequence numbers of the registry

Every entry that waits with a stamp, and every id handed out and unresolved, has
a sequence number.  Stamps are given at queue time for some sources and at
hand-out for the others, read back out of the pending map for what is offered
again, and inherited by what replaces the content of a slot.

## Main definitions

* `stamps` — every stamp that waits, with its id.
* `SequenceOf s n i` — the number `n` is the id `i`'s.
* `Sequenced` — the invariant.

## Main results

* `sequencesDistinct_of_sequenced` — distinct ids have distinct numbers.
* `stamp_sequence_inj` — no two entries of a batch share a number under two ids.
* `sequenced_of_reachable` — **the invariant holds whatever was replaced,
  resolved, evicted or offered again.**
-/

namespace MatrixCrypto

open Lib

namespace RequestState

/-- Every stamp given at queue time, with the id it stamps. -/
def stamps (s : RequestState) : List (ℕ × String) :=
  s.queuedAction.map (fun q => (q.1, q.2.requestId)) ++
    (s.queuedSigningKeys.toList.map (fun q => (q.1, q.2.1)) ++
      s.queuedAccountQuery.toList.map fun q => (q.1, q.2.1))

theorem mem_stamps {s : RequestState} {n : ℕ} {i : String} :
    (n, i) ∈ s.stamps ↔ s.QueuedAt n i := by
  unfold stamps
  simp only [List.mem_append, List.mem_map, Option.mem_toList, Prod.mk.injEq, Prod.exists]
  constructor
  · rintro (⟨_, r, h, rfl, rfl⟩ | ⟨_, _, r, h, rfl, rfl⟩ | ⟨_, _, r, h, rfl, rfl⟩)
    · exact .action h
    · exact .signingKeys h
    · exact .accountQuery h
  · intro h
    cases h with
    | action h => exact Or.inl ⟨_, _, h, rfl, rfl⟩
    | signingKeys h => exact Or.inr (Or.inl ⟨_, _, _, h, rfl, rfl⟩)
    | accountQuery h => exact Or.inr (Or.inr ⟨_, _, _, h, rfl, rfl⟩)

/-- The number is the id's: of an entry that waits, or of one handed out and
unresolved. -/
inductive SequenceOf (s : RequestState) : ℕ → String → Prop
  | waits {n : ℕ} {i : String} (h : s.QueuedAt n i) : SequenceOf s n i
  | pending {i : String} {p : Pending} (h : s.pending.get? i = some p) :
      SequenceOf s p.sequence i

/-- Distinct ids have distinct numbers. -/
def SequencesDistinct (s : RequestState) : Prop :=
  ∀ n i j, s.SequenceOf n i → s.SequenceOf n j → i = j

/-- The numbers of the registry: all below the counter, the stamps distinct and the
action queue in their order, the pending ids' distinct and apart from the stamps. -/
structure Sequenced (s : RequestState) : Prop where
  below : ∀ n i, s.SequenceOf n i → n < s.nextSequence
  distinct : (s.stamps.map Prod.fst).Nodup
  action : s.queuedAction.Pairwise fun q r => q.1 < r.1
  pending : ∀ i j p p', s.pending.get? i = some p → s.pending.get? j = some p' →
    p.sequence = p'.sequence → i = j
  apart : ∀ n i j p, s.QueuedAt n i → s.pending.get? j = some p → p.sequence ≠ n

variable {s t : RequestState}

theorem Sequenced.queuedAt_inj (hs : s.Sequenced) {n : ℕ} {i j : String} (hi : s.QueuedAt n i)
    (hj : s.QueuedAt n j) : i = j := by
  have heq := List.inj_on_of_nodup_map hs.distinct (mem_stamps.mpr hi) (mem_stamps.mpr hj) rfl
  exact congrArg Prod.snd heq

/-- **Distinct ids have distinct numbers.** -/
theorem sequencesDistinct_of_sequenced (hs : s.Sequenced) : s.SequencesDistinct := by
  intro n i j hi hj
  cases hi with
  | waits hi =>
    generalize hm : n = m at hj
    cases hj with
    | waits hj => exact hs.queuedAt_inj hi (hm ▸ hj)
    | pending hj => exact absurd hm.symm (hs.apart _ _ _ _ hi hj)
  | @pending _ p hi =>
    generalize hm : p.sequence = m at hj
    cases hj with
    | waits hj => exact absurd hm (hs.apart _ _ _ _ hj hi)
    | pending hj => exact hs.pending _ _ _ _ hi hj hm

/-! ### Queueing -/

/-- A write that keeps the pending map and the counter, and the number of every
place that waits. -/
theorem Sequenced.same (hs : s.Sequenced) (hst : t.stamps.map Prod.fst = s.stamps.map Prod.fst)
    (hact : t.queuedAction = s.queuedAction) (hp : t.pending = s.pending)
    (hnext : t.nextSequence = s.nextSequence) : t.Sequenced := by
  have hback : ∀ n i, t.QueuedAt n i → ∃ j, s.QueuedAt n j := by
    intro n i h
    have hmem : n ∈ t.stamps.map Prod.fst := List.mem_map_of_mem (mem_stamps.mpr h)
    rw [hst] at hmem
    obtain ⟨⟨_, j⟩, hj, rfl⟩ := List.mem_map.mp hmem
    exact ⟨j, mem_stamps.mp hj⟩
  refine ⟨fun n i h => ?_, by rw [hst]; exact hs.distinct, by rw [hact]; exact hs.action,
    by rw [hp]; exact hs.pending, fun n i j p h hj => ?_⟩
  · rw [hnext]
    cases h with
    | waits h =>
      obtain ⟨j, hj⟩ := hback _ _ h
      exact hs.below _ _ (.waits hj)
    | pending h => exact hs.below _ _ (.pending (hp ▸ h))
  · obtain ⟨k, hk⟩ := hback _ _ h
    exact hs.apart _ _ _ _ hk (hp ▸ hj)

/-- A write that puts one more entry in a queue, stamped by the counter. -/
theorem Sequenced.insert (hs : s.Sequenced) (l₁ l₂ : List (ℕ × String)) (i : String)
    (hst : s.stamps = l₁ ++ l₂) (ht : t.stamps = l₁ ++ (s.nextSequence, i) :: l₂)
    (hact : t.queuedAction.Pairwise fun q r => q.1 < r.1) (hp : t.pending = s.pending)
    (hnext : t.nextSequence = s.nextSequence + 1) : t.Sequenced := by
  have hold : ∀ n j, (n, j) ∈ l₁ ++ l₂ → s.QueuedAt n j := by
    intro n j h
    rw [← hst] at h
    exact mem_stamps.mp h
  have hback : ∀ n j, t.QueuedAt n j → n = s.nextSequence ∨ s.QueuedAt n j := by
    intro n j h
    rw [← mem_stamps, ht, List.mem_append, List.mem_cons] at h
    rcases h with h | h | h
    · exact Or.inr (hold _ _ (List.mem_append_left _ h))
    · exact Or.inl (congrArg Prod.fst h)
    · exact Or.inr (hold _ _ (List.mem_append_right _ h))
  have hpending : ∀ j p, s.pending.get? j = some p → p.sequence < s.nextSequence :=
    fun j p h => hs.below _ _ (.pending h)
  refine ⟨fun n j h => ?_, ?_, hact, by rw [hp]; exact hs.pending, fun n j k p h hk => ?_⟩
  · rw [hnext]
    cases h with
    | waits h =>
      rcases hback _ _ h with heq | h
      · omega
      · have := hs.below _ _ (.waits h)
        omega
    | @pending _ p h =>
      rw [hp] at h
      have := hpending _ _ h
      omega
  · -- the new stamp is the counter, and every other is below it
    rw [ht, List.map_append, List.map_cons, List.nodup_middle, List.nodup_cons, ← List.map_append,
      ← hst]
    refine ⟨fun hmem => ?_, hs.distinct⟩
    obtain ⟨⟨n, j⟩, hj, heq⟩ := List.mem_map.mp hmem
    have hlt := hs.below _ _ (.waits (mem_stamps.mp hj))
    have heq : n = s.nextSequence := heq
    omega
  · rw [hp] at hk
    have hlt := hpending _ _ hk
    rcases hback _ _ h with heq | h
    · omega
    · exact hs.apart _ _ _ _ h hk

theorem sequenced_queueActionRequest (hs : s.Sequenced) (r : UpstreamOutgoingRequest) :
    (s.queueActionRequest r).Sequenced := by
  cases hrep : s.repeats r.requestId with
  | true =>
    rw [queueActionRequest_of_repeats hrep]
    exact hs
  | false =>
    rw [queueActionRequest_of_not_repeats hrep]
    have hlast : ∀ q ∈ s.queuedAction, q.1 < s.nextSequence :=
      fun q hq => hs.below _ _ (.waits (.action hq))
    refine hs.insert _ _ r.requestId rfl ?_ ?_ rfl rfl
    · simp only [stamps, List.map_append, List.map_cons, List.map_nil, List.append_assoc,
        List.cons_append, List.nil_append]
    · rw [List.pairwise_append]
      refine ⟨hs.action, List.pairwise_singleton _ _, fun q hq r' hr' => ?_⟩
      rw [List.mem_singleton] at hr'
      rw [hr']
      exact hlast q hq

theorem sequenced_queueSigningKeysRequest (hs : s.Sequenced) (id : String)
    (r : UploadSigningKeysRequest) : (s.queueSigningKeysRequest id r).Sequenced := by
  cases hslot : s.queuedSigningKeys with
  | none =>
    refine hs.insert (s.queuedAction.map fun q => (q.1, q.2.requestId))
      (s.queuedAccountQuery.toList.map fun q => (q.1, q.2.1)) id ?_ ?_ hs.action rfl ?_
    · simp [stamps, hslot]
    · simp [stamps, queueSigningKeysRequest, hslot, slotStamp]
    · simp [queueSigningKeysRequest, hslot, slotStamp]
  | some a =>
    -- the slot keeps the stamp it had
    refine hs.same ?_ rfl rfl ?_
    · simp [stamps, queueSigningKeysRequest, hslot, slotStamp]
    · simp [queueSigningKeysRequest, hslot, slotStamp]

theorem sequenced_queueAccountKeyQuery (hs : s.Sequenced) (id : String)
    (r : KeysQueryRequest) : (s.queueAccountKeyQuery id r).Sequenced := by
  cases hslot : s.queuedAccountQuery with
  | none =>
    refine hs.insert s.stamps [] id (by simp) ?_ hs.action rfl ?_
    · simp [stamps, queueAccountKeyQuery, hslot, slotStamp]
    · simp [queueAccountKeyQuery, hslot, slotStamp]
  | some a =>
    refine hs.same ?_ rfl rfl ?_
    · simp [stamps, queueAccountKeyQuery, hslot, slotStamp]
    · simp [queueAccountKeyQuery, hslot, slotStamp]

theorem keptByWrites_sequenced : KeptByWrites Sequenced where
  queue := by
    intro s t hs h
    cases h with
    | action r => exact sequenced_queueActionRequest hs r
    | toDevice rs =>
      rw [queueToDeviceRequests_eq]
      exact hs.same rfl rfl rfl rfl
    | claim c => cases c <;> exact hs.same rfl rfl rfl rfl
    | accountQuery id r => exact sequenced_queueAccountKeyQuery hs id r
    | peerQuery id r => exact hs.same rfl rfl rfl rfl
  keys := fun id r hs => sequenced_queueSigningKeysRequest hs id r
  settle := by
    intro s id answer hs
    have hpending : ∀ i p, (s.settle id answer).pending.get? i = some p →
        s.pending.get? i = some p := by
      intro i p h
      rw [settle_pending, OrdMap.get?_erase] at h
      split at h
      · cases h
      · exact h
    have hqueued : ∀ n i, (s.settle id answer).QueuedAt n i → s.QueuedAt n i := by
      intro n i h
      rw [settle_eq] at h
      exact h.of_queues rfl rfl rfl
    refine ⟨fun n i h => ?_, ?_, ?_, fun i j p p' hi hj => ?_, fun n i j p h hj => ?_⟩
    · have hnext : (s.settle id answer).nextSequence = s.nextSequence := by rw [settle_eq]
      rw [hnext]
      cases h with
      | waits h => exact hs.below _ _ (.waits (hqueued _ _ h))
      | pending h => exact hs.below _ _ (.pending (hpending _ _ h))
    · rw [settle_eq]
      exact hs.distinct
    · rw [settle_eq]
      exact hs.action
    · exact hs.pending _ _ _ _ (hpending _ _ hi) (hpending _ _ hj)
    · exact hs.apart _ _ _ _ (hqueued _ _ h) (hpending _ _ hj)

/-! ### Handing out -/

end RequestState

/-- No two ids of a batch are given one number by the counter. -/
theorem stamp_sequence_inj {pending : OrdMap String Pending} {m : ℕ} {fs : List Fresh} :
    ∀ {n : ℕ}, m ≤ n → (∀ f ∈ fs, ∀ k, f.position pending = some k → k < m) →
      ∀ e ∈ (stamp pending n fs).1, ∀ e' ∈ (stamp pending n fs).1, m ≤ e.sequence →
        e.sequence = e'.sequence → e.id = e'.id := by
  induction fs with
  | nil =>
    intro n _ _ e he
    simp [stamp] at he
  | cons f fs ih =>
    intro n hmn hpos
    have hpos' : ∀ g ∈ fs, ∀ k, g.position pending = some k → k < m :=
      fun g hg => hpos g (List.mem_cons_of_mem _ hg)
    -- an entry of the rest is below `m`, or the counter gave it a later number
    have hrest : ∀ l e, e ∈ (stamp pending l fs).1 → m ≤ e.sequence → l ≤ e.sequence := by
      intro l e he hm
      obtain ⟨g, hg, -, -, -, hk | ⟨-, hle, -⟩⟩ := mem_stamp he
      · have := hpos' g hg _ hk
        omega
      · exact hle
    intro e he e' he' hm heq
    simp only [stamp] at he he'
    split at he
    · next k hk =>
      have hkm := hpos f List.mem_cons_self k hk
      rw [hk] at he'
      rcases List.mem_cons.mp he with rfl | he
      · have hm : m ≤ k := hm
        omega
      · rcases List.mem_cons.mp he' with rfl | he'
        · have heq : e.sequence = k := heq
          omega
        · exact ih hmn hpos' e he e' he' hm heq
    · next hk =>
      rw [hk] at he'
      rcases List.mem_cons.mp he with rfl | he
      · rcases List.mem_cons.mp he' with rfl | he'
        · rfl
        · have heq : n = e'.sequence := heq
          have := hrest (n + 1) e' he' (by omega)
          omega
      · rcases List.mem_cons.mp he' with rfl | he'
        · have heq : e.sequence = n := heq
          have := hrest (n + 1) e he hm
          omega
        · exact ih (by omega) hpos' e he e' he' hm heq

namespace RequestState

variable {s : RequestState} {account : String} {prepared fresh : List Fresh}

/-- A position an entry had is the number of its id. -/
theorem sequenceOf_of_position (hprep : ∀ f ∈ prepared, f.queuedAt = none)
    (hc : s.collect account prepared = .ok fresh) {f : Fresh} (hf : f ∈ fresh) {k : ℕ}
    (hk : f.position s.pending = some k) : s.SequenceOf k f.id := by
  cases hq : f.queuedAt with
  | some n =>
    rw [position_of_queuedAt hq] at hk
    obtain rfl : n = k := Option.some.inj hk
    rcases (mem_collect hc f).mp hf with hp | hw
    · rw [hprep f hp] at hq
      cases hq
    · exact .waits (hw.queuedAt hq)
  | none =>
    rw [position_of_not_queued hq] at hk
    obtain ⟨p, hp, rfl⟩ := Option.map_eq_some_iff.mp hk
    exact .pending hp

/-- The number of an entry of the batch was its id's, or is one the counter gave. -/
theorem sequence_of_mem_handOut (hprep : ∀ f ∈ prepared, f.queuedAt = none)
    (hc : s.collect account prepared = .ok fresh) {e : Entry} (he : e ∈ s.handOut fresh) :
    s.SequenceOf e.sequence e.id ∨
      s.nextSequence ≤ e.sequence ∧ e.sequence < (s.handedOut fresh).nextSequence := by
  obtain ⟨f, hf, hid, -, -, hk | ⟨-, hle, hlt⟩⟩ := mem_stamp (mem_handOut.mp he)
  · exact Or.inl (hid ▸ sequenceOf_of_position hprep hc hf hk)
  · exact Or.inr ⟨hle, hlt⟩

/-- No two ids of a batch share a number. -/
theorem handOut_sequence_inj (hs : s.Sequenced) (hprep : ∀ f ∈ prepared, f.queuedAt = none)
    (hc : s.collect account prepared = .ok fresh) {e e' : Entry} (he : e ∈ s.handOut fresh)
    (he' : e' ∈ s.handOut fresh) (heq : e.sequence = e'.sequence) : e.id = e'.id := by
  have hpos : ∀ f ∈ fresh, ∀ k, f.position s.pending = some k → k < s.nextSequence :=
    fun f hf k hk => hs.below _ _ (sequenceOf_of_position hprep hc hf hk)
  by_cases hlt : e.sequence < s.nextSequence
  · have hold : ∀ x ∈ s.handOut fresh, x.sequence < s.nextSequence →
        s.SequenceOf x.sequence x.id := by
      intro x hx hxlt
      rcases sequence_of_mem_handOut hprep hc hx with h | ⟨hle, -⟩
      · exact h
      · omega
    have h := hold e he hlt
    have h' := hold e' he' (by omega)
    rw [← heq] at h'
    exact sequencesDistinct_of_sequenced hs _ _ _ h h'
  · exact stamp_sequence_inj (Nat.le_refl _) hpos e (mem_handOut.mp he) e' (mem_handOut.mp he')
      (by omega) heq

/-- **Handing a batch out keeps the numbers.** -/
theorem sequenced_handedOut (hs : s.Sequenced) (hprep : ∀ f ∈ prepared, f.queuedAt = none)
    (hc : s.collect account prepared = .ok fresh) : (s.handedOut fresh).Sequenced := by
  have hnone : ∀ n i, ¬ (s.handedOut fresh).QueuedAt n i :=
    fun n i h => not_carries_handedOut (.stamped h)
  have hle : s.nextSequence ≤ (s.handedOut fresh).nextSequence := le_stamp fresh s.nextSequence
  have hold : ∀ i p, (evict (s.handOut fresh) s.pending).get? i = some p →
      s.SequenceOf p.sequence i := fun i p h => .pending (get?_evict h)
  -- an id that was pending and is not in the batch, beside one of the batch
  have hmixed : ∀ e ∈ s.handOut fresh, ∀ i p, s.pending.get? i = some p →
      e.sequence = p.sequence → e.id = i := by
    intro e he i p hp heq
    rcases sequence_of_mem_handOut hprep hc he with h | ⟨hge, -⟩
    · rw [heq] at h
      exact sequencesDistinct_of_sequenced hs _ _ _ h (.pending hp)
    · have := hs.below _ _ (.pending hp)
      omega
  refine ⟨fun n i h => ?_, ?_, .nil, fun i j p p' hi hj heq => ?_,
    fun n i _ _ h => absurd h (hnone n i)⟩
  · cases h with
    | waits h => exact absurd h (hnone n i)
    | pending h =>
      rcases get?_record _ h with ⟨e, he, rfl, rfl⟩ | ⟨h, -⟩
      · rcases sequence_of_mem_handOut hprep hc he with h | ⟨-, hlt⟩
        · have hlt : e.sequence < s.nextSequence := hs.below _ _ h
          show e.sequence < _
          omega
        · exact hlt
      · have := hs.below _ _ (hold _ _ h)
        omega
  · show ([] : List ℕ).Nodup
    exact .nil
  · rcases get?_record _ hi with ⟨e, he, rfl, rfl⟩ | ⟨hi, -⟩
    · rcases get?_record _ hj with ⟨e', he', rfl, rfl⟩ | ⟨hj, -⟩
      · exact handOut_sequence_inj hs hprep hc he he' heq
      · exact hmixed e he j p' (get?_evict hj) heq
    · rcases get?_record _ hj with ⟨e', he', rfl, rfl⟩ | ⟨hj, -⟩
      · exact (hmixed e' he' i p (get?_evict hi) heq.symm).symm
      · exact hs.pending i j p p' (get?_evict hi) (get?_evict hj) heq

end RequestState

/-! ### Every section -/

theorem sequenced_initial : RequestState.initial.Sequenced := by
  have hnone : ∀ n i, ¬ RequestState.initial.QueuedAt n i := by
    intro n i h
    cases h with
    | action h => cases h
    | signingKeys h => cases h
    | accountQuery h => cases h
  have hpending : ∀ i p, RequestState.initial.pending.get? i ≠ some p := fun i p h => by cases h
  refine ⟨fun n i h => ?_, .nil, .nil, fun i _ p _ h => absurd h (hpending i p),
    fun n i _ _ h => absurd h (hnone n i)⟩
  cases h with
  | waits h => exact absurd h (hnone n i)
  | pending h => exact absurd h (hpending _ _)

theorem sequenced_after {account : String} {s : RequestState} {c : RegistrySection}
    (hs : s.Sequenced) : (c.after account s).Sequenced :=
  RequestState.keptByWrites_sequenced.afterSection hs fun _ _ _ _ hprep hfresh =>
    RequestState.sequenced_handedOut hs (fun _ hf => (mem_prepare hprep hf).1) hfresh

/-- **The numbers of a registry that is reached.** -/
theorem sequenced_of_reachable {account : String} {s : RequestState}
    (h : (registry account).Reachable s) : s.Sequenced := by
  refine h.invariant ?_ ?_
  · rintro s rfl
    exact sequenced_initial
  · rintro s c t hs rfl
    exact sequenced_after hs

end MatrixCrypto
