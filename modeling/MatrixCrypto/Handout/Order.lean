import MatrixCrypto.Handout.Stamps

/-!
# Batches come in production order

What the order of a batch says, for every registry that is reached: the actions
as they were queued, what an earlier batch held before what was learned of since,
what was stamped when it was queued before what is stamped now, and the queries
about other people last.

## Main definitions

* `Unsent` — what waits under a stamp, or as a query about another person, is
  not pending.
* `LearnedSince N known` — what is not among the known ids is numbered from `N`.
* `StaysPending` — an id is pending in every state of a run.
* `InProductionOrder` — what the order of a batch says.

## Main results

* `unsent_of_reachable` — nothing waits that is already handed out.
* `peersLast_handOut` — **the queries about other people come last.**
* `earlierFirst_handOut` — what an earlier batch held, and is unresolved, comes
  first.
* `batch_in_production_order` — all four, and that the numbers are distinct.
-/

namespace MatrixCrypto

open Lib Relation

/-! ### What one batch is made of -/

/-- What waited under a stamp, as the entry it becomes. -/
def Fresh.stampedEntry (f : Fresh) : Entry := ⟨f.queuedAt.getD 0, f.id, f.kind, f.body⟩

section stamp

variable {pending : OrdMap String Pending}

theorem stamp_append (fs gs : List Fresh) : ∀ n, (stamp pending n (fs ++ gs)).1 =
    (stamp pending n fs).1 ++ (stamp pending (stamp pending n fs).2 gs).1 := by
  induction fs with
  | nil => intro n; rfl
  | cons f fs ih =>
    intro n
    simp only [List.cons_append, stamp]
    split
    · rw [ih n, List.cons_append]
    · rw [ih (n + 1), List.cons_append]

/-- Where every position is below the counter, every number is below the counter
after. -/
theorem sequence_lt_stamp {fs : List Fresh} {n : ℕ} {e : Entry}
    (hpos : ∀ f ∈ fs, ∀ k, f.position pending = some k → k < n)
    (he : e ∈ (stamp pending n fs).1) : e.sequence < (stamp pending n fs).2 := by
  have hle := @le_stamp pending fs n
  obtain ⟨f, hf, -, -, -, hk | ⟨-, -, hlt⟩⟩ := mem_stamp he
  · have := hpos f hf _ hk
    omega
  · exact hlt

/-- Where nothing has a position, every number is the counter's. -/
theorem le_sequence_stamp {fs : List Fresh} {n : ℕ} {e : Entry}
    (hpos : ∀ f ∈ fs, f.position pending = none) (he : e ∈ (stamp pending n fs).1) :
    n ≤ e.sequence := by
  obtain ⟨f, hf, -, -, -, hk | ⟨-, hle, -⟩⟩ := mem_stamp he
  · rw [hpos f hf] at hk
    cases hk
  · exact hle

end stamp

namespace RequestState

variable {s t : RequestState} {account : String} {prepared fresh : List Fresh}

/-- A batch is what comes before the queries about other people, those, and the
actions. -/
theorem collect_split (h : s.collect account prepared = .ok fresh)
    (hprep : ∀ f ∈ prepared, f.kind ≠ .peerKeysQueryOutOfBand) :
    ∃ front peers action, fresh = front ++ (peers ++ action) ∧ (∀ f ∈ prepared, f ∈ front) ∧
      (∀ f ∈ front, f.kind ≠ .peerKeysQueryOutOfBand) ∧
      (∀ f ∈ peers, f.queuedAt = none ∧ f.kind = .peerKeysQueryOutOfBand ∧
        ∃ r, (f.id, r) ∈ s.queuedPeerQueries) ∧
      List.Forall₂ (fun q f => freshOf account (some q.1) q.2 = .ok f) s.queuedAction action := by
  obtain ⟨toDevice, claim, accountQuery, signingKeys, peerQueries, action, h₁, h₂, h₃, h₄, h₅, h₆,
    rfl⟩ := collect_eq_ok h
  refine ⟨prepared ++ toDevice ++ claim ++ accountQuery ++ signingKeys, peerQueries, action,
    List.append_assoc _ _ _, fun f hf => ?_, fun f hf => ?_, fun f hf => ?_, mapM_eq_ok.mp h₆⟩
  · simp only [List.mem_append]
    exact Or.inl (Or.inl (Or.inl (Or.inl hf)))
  · simp only [List.mem_append] at hf
    rcases hf with (((hf | hf) | hf) | hf) | hf
    · exact hprep f hf
    · obtain ⟨_, _, hb⟩ := mem_of_mapM h₁ hf
      obtain ⟨_, _, rfl⟩ := map_eq_ok.mp hb
      simp
    · obtain ⟨_, _, hb⟩ := mem_of_mapM h₂ hf
      obtain ⟨_, _, rfl⟩ := map_eq_ok.mp hb
      simp
    · obtain ⟨_, _, hb⟩ := mem_of_mapM h₃ hf
      obtain ⟨_, _, rfl⟩ := map_eq_ok.mp hb
      simp
    · obtain ⟨_, _, hb⟩ := mem_of_mapM h₄ hf
      obtain ⟨_, _, rfl⟩ := map_eq_ok.mp hb
      simp
  · obtain ⟨q, hq, hb⟩ := mem_of_mapM h₅ hf
    obtain ⟨_, _, rfl⟩ := map_eq_ok.mp hb
    exact ⟨rfl, rfl, q.2, hq⟩

end RequestState

/-- Nothing upstream offers is a query about another person. -/
theorem prepare_kind_ne_peer {account : String} {o : Offered} {prepared : List Fresh}
    (h : prepare account o = .ok prepared) {f : Fresh} (hf : f ∈ prepared) :
    f.kind ≠ .peerKeysQueryOutOfBand := by
  rcases (mem_prepare h hf).2 with ⟨_, _, r, _, hr⟩ | ⟨_, _, hk, _⟩
  · rw [(freshOf_eq hr).2.2]
    exact (kindFor_ne account r).2.2.1
  · rw [hk]
    decide

/-! ### What waits is not pending -/

namespace RequestState

variable {s t : RequestState} {account : String} {prepared fresh : List Fresh}

/-- What waits under a stamp, or as a query about another person, is not pending. -/
structure Unsent (s : RequestState) : Prop where
  stamped : ∀ n i, s.QueuedAt n i → s.pending.get? i = none
  peers : ∀ q ∈ s.queuedPeerQueries, s.pending.get? q.1 = none

/-- A write that adds at most one id to what waits, one that is not pending. -/
theorem Unsent.write (hs : s.Unsent) {i : String} (hi : s.pending.get? i = none)
    (hq : ∀ n j, t.QueuedAt n j → (∃ m, s.QueuedAt m j) ∨ j = i)
    (hpeers : ∀ q ∈ t.queuedPeerQueries, q ∈ s.queuedPeerQueries ∨ q.1 = i)
    (hp : t.pending = s.pending) : t.Unsent := by
  refine ⟨fun n j h => ?_, fun q hq => ?_⟩
  · rw [hp]
    rcases hq n j h with ⟨m, h⟩ | rfl
    · exact hs.stamped m j h
    · exact hi
  · rw [hp]
    rcases hpeers q hq with h | rfl
    · exact hs.peers q h
    · exact hi

/-- A write that touches neither what waits under a stamp nor the queries about
other people, and adds nothing to what is pending. -/
theorem Unsent.frame (hs : s.Unsent) (hq : ∀ n j, t.QueuedAt n j → s.QueuedAt n j)
    (hpeers : t.queuedPeerQueries = s.queuedPeerQueries)
    (hp : ∀ i, s.pending.get? i = none → t.pending.get? i = none) : t.Unsent :=
  ⟨fun n j h => hp j (hs.stamped n j (hq n j h)), fun q h => hp q.1 (hs.peers q (hpeers ▸ h))⟩

/-- Once a batch is handed out nothing waits. -/
theorem unsent_handedOut (s : RequestState) (fresh : List Fresh) : (s.handedOut fresh).Unsent :=
  ⟨fun _ _ h => absurd (.stamped h) not_carries_handedOut,
    fun q h => absurd (.peerQuery h) (@not_carries_handedOut s fresh q.1)⟩

theorem unsent_after {c : RegistrySection} (hs : s.Unsent) (hnew : MintsNew s c) :
    (c.after account s).Unsent := by
  cases c with
  | queueAction r =>
    cases hrep : s.repeats r.requestId with
    | true =>
      rw [RegistrySection.after, queueActionRequest_of_repeats hrep]
      exact hs
    | false =>
      refine hs.write (repeats_eq_false.mp hrep).2 (fun n j h => ?_) (fun q hq => ?_)
        (queueActionRequest_pending s r)
      · rcases queuedAt_queueActionRequest h with h | ⟨-, rfl⟩
        · exact Or.inl ⟨n, h⟩
        · exact Or.inr rfl
      · exact Or.inl (queueActionRequest_queuedPeerQueries s r ▸ hq)
  | queueToDevice rs =>
    rw [RegistrySection.after, queueToDeviceRequests_eq]
    exact hs.frame (fun n j h => h.of_queues rfl rfl rfl) rfl (fun i h => h)
  | queueSigningKeys id r =>
    refine hs.write (hnew id (List.mem_singleton_self id)).2 (fun n j h => ?_)
      (fun q hq => Or.inl hq) rfl
    cases h with
    | action h => exact Or.inl ⟨n, .action h⟩
    | signingKeys h =>
      have heq := congrArg (fun q => q.2.1) (Option.some.inj h)
      exact Or.inr heq.symm
    | accountQuery h => exact Or.inl ⟨n, .accountQuery h⟩
  | queueAccountQuery id r =>
    refine hs.write (hnew id (List.mem_singleton_self id)).2 (fun n j h => ?_)
      (fun q hq => Or.inl hq) rfl
    cases h with
    | action h => exact Or.inl ⟨n, .action h⟩
    | signingKeys h => exact Or.inl ⟨n, .signingKeys h⟩
    | accountQuery h =>
      have heq := congrArg (fun q => q.2.1) (Option.some.inj h)
      exact Or.inr heq.symm
  | queuePeerQuery id r =>
    refine hs.write (hnew id (List.mem_singleton_self id)).2 (fun n j h => ?_) (fun q hq => ?_) rfl
    · exact Or.inl ⟨n, h.of_queues rfl rfl rfl⟩
    · rcases List.mem_append.mp hq with hq | hq
      · exact Or.inl hq
      · rw [List.mem_singleton] at hq
        exact Or.inr (by rw [hq])
  | share missing shared tracked =>
    rw [RegistrySection.after, shareQueues_eq]
    exact hs.frame (fun n j h => h.of_queues rfl rfl rfl) rfl (fun i h => h)
  | take trip =>
    rcases RegistrySection.after_take account s trip with ⟨_, _, fresh, -, -, -, hleft⟩ | hsame
    · rw [hleft]
      exact unsent_handedOut s fresh
    · rw [hsame]
      exact hs
  | mark id settled =>
    cases settled with
    | error _ => exact hs
    | ok answer =>
      rw [RegistrySection.after, settle_eq]
      refine hs.frame (fun n j h => h.of_queues rfl rfl rfl) rfl (fun i h => ?_)
      rw [OrdMap.get?_erase, h, ite_self]

theorem unsent_initial : initial.Unsent := by
  refine ⟨fun _ _ _ => rfl, fun q hq => ?_⟩
  cases hq

end RequestState

/-- The registry whose minted ids are new. -/
abbrev mintedRegistry (account : String) : TransitionSystem RequestState RegistrySection :=
  (registry account).restrict MintsNew

/-- **Nothing waits that is already handed out.** -/
theorem unsent_of_reachable {account : String} {s : RequestState}
    (h : (mintedRegistry account).Reachable s) : s.Unsent := by
  refine h.invariant ?_ ?_
  · rintro s rfl
    exact RequestState.unsent_initial
  · rintro s c t hs ⟨hnew, rfl⟩
    exact RequestState.unsent_after hs hnew

/-! ### What is learned of since -/

namespace RequestState

variable {s t : RequestState} {account : String} {prepared fresh : List Fresh}

/-- What is not among the known ids is numbered from `N`, and so is what waits. -/
structure LearnedSince (N : ℕ) (known : OrdMap String Pending) (s : RequestState) : Prop where
  next : N ≤ s.nextSequence
  stamps : ∀ n i, s.QueuedAt n i → N ≤ n
  pending : ∀ i p, s.pending.get? i = some p → known.get? i = none → N ≤ p.sequence

/-- A stamp in a slot that was filled is one that was there, or the counter's. -/
theorem slotStamp_cases {α : Type} (slot : Option (ℕ × α)) :
    (∃ a, slot = some ((s.slotStamp slot).1, a)) ∨ (s.slotStamp slot).1 = s.nextSequence := by
  cases slot with
  | none => exact Or.inr rfl
  | some q => exact Or.inl ⟨q.2, rfl⟩

variable {N : ℕ} {known : OrdMap String Pending}

/-- A write whose stamps are old or the counter's. -/
theorem LearnedSince.write (hs : s.LearnedSince N known)
    (hq : ∀ n i, t.QueuedAt n i → (∃ j, s.QueuedAt n j) ∨ n = s.nextSequence)
    (hnext : s.nextSequence ≤ t.nextSequence)
    (hp : ∀ i p, t.pending.get? i = some p → s.pending.get? i = some p) :
    t.LearnedSince N known := by
  have hle := hs.next
  refine ⟨Nat.le_trans hle hnext, fun n i h => ?_, fun i p h => hs.pending i p (hp i p h)⟩
  rcases hq n i h with ⟨j, h⟩ | rfl
  · exact hs.stamps n j h
  · exact hle

theorem keptByWrites_learnedSince (N : ℕ) (known : OrdMap String Pending) :
    KeptByWrites (LearnedSince N known) where
  queue := by
    intro s t hs h
    cases h with
    | action r =>
      refine hs.write (fun n i h => ?_) (queueActionRequest_nextSequence_le s r)
        (fun i p h => queueActionRequest_pending s r ▸ h)
      rcases queuedAt_queueActionRequest h with h | ⟨h, -⟩
      · exact Or.inl ⟨i, h⟩
      · exact Or.inr h
    | toDevice rs =>
      rw [queueToDeviceRequests_eq]
      exact hs.write (fun n i h => Or.inl ⟨i, h.of_queues rfl rfl rfl⟩) (Nat.le_refl _)
        (fun _ _ h => h)
    | claim c =>
      cases c <;> exact hs.write (fun n i h => Or.inl ⟨i, h.of_queues rfl rfl rfl⟩)
        (Nat.le_refl _) (fun _ _ h => h)
    | accountQuery id r =>
      refine hs.write (fun n i h => ?_) (slotStamp_le s _) (fun _ _ h => h)
      cases h with
      | action h => exact Or.inl ⟨_, .action h⟩
      | signingKeys h => exact Or.inl ⟨_, .signingKeys h⟩
      | accountQuery h =>
        -- a slot that was filled keeps its stamp, and an empty one takes the counter's
        have hn : (s.slotStamp s.queuedAccountQuery).1 = n :=
          congrArg Prod.fst (Option.some.inj h)
        rcases @slotStamp_cases s _ s.queuedAccountQuery with ⟨a, ha⟩ | ha
        · rw [hn] at ha
          exact Or.inl ⟨a.1, .accountQuery ha⟩
        · exact Or.inr (hn ▸ ha)
    | peerQuery id r =>
      exact hs.write (fun n i h => Or.inl ⟨i, h.of_queues rfl rfl rfl⟩) (Nat.le_refl _)
        (fun _ _ h => h)
  keys := by
    intro s id r hs
    refine hs.write (fun n i h => ?_) (slotStamp_le s _) (fun _ _ h => h)
    cases h with
    | action h => exact Or.inl ⟨_, .action h⟩
    | signingKeys h =>
      have hn : (s.slotStamp s.queuedSigningKeys).1 = n := congrArg Prod.fst (Option.some.inj h)
      rcases @slotStamp_cases s _ s.queuedSigningKeys with ⟨a, ha⟩ | ha
      · rw [hn] at ha
        exact Or.inl ⟨a.1, .signingKeys ha⟩
      · exact Or.inr (hn ▸ ha)
    | accountQuery h => exact Or.inl ⟨_, .accountQuery h⟩
  settle := by
    intro s id answer hs
    rw [settle_eq]
    refine hs.write (fun n i h => Or.inl ⟨i, h.of_queues rfl rfl rfl⟩) (Nat.le_refl _)
      (fun i p h => ?_)
    rw [OrdMap.get?_erase] at h
    split at h
    · cases h
    · exact h

/-- What a batch holds that was not known is numbered from `N`. -/
theorem LearnedSince.le_sequence (hs : s.LearnedSince N known)
    (hprep : ∀ f ∈ prepared, f.queuedAt = none) (hc : s.collect account prepared = .ok fresh)
    {e : Entry} (he : e ∈ s.handOut fresh) (hnew : known.get? e.id = none) : N ≤ e.sequence := by
  rcases sequence_of_mem_handOut hprep hc he with h | ⟨hle, -⟩
  · generalize hid : e.id = i at h hnew
    generalize e.sequence = n at h
    cases h with
    | waits h => exact hs.stamps n i h
    | pending h => exact hs.pending i _ h hnew
  · exact Nat.le_trans hs.next hle

theorem learnedSince_handedOut (hs : s.LearnedSince N known)
    (hprep : ∀ f ∈ prepared, f.queuedAt = none) (hc : s.collect account prepared = .ok fresh) :
    (s.handedOut fresh).LearnedSince N known := by
  have hle : s.nextSequence ≤ (s.handedOut fresh).nextSequence := le_stamp fresh s.nextSequence
  refine ⟨Nat.le_trans hs.next hle, fun n i h => absurd (.stamped h) not_carries_handedOut,
    fun i p h hnew => ?_⟩
  rcases get?_record _ h with ⟨e, he, rfl, rfl⟩ | ⟨h, -⟩
  · exact hs.le_sequence hprep hc he hnew
  · exact hs.pending i p (get?_evict h) hnew

/-- Once a batch is handed out, everything pending is known. -/
theorem learnedSince_of_handedOut (s : RequestState) (fresh : List Fresh) :
    (s.handedOut fresh).LearnedSince (s.handedOut fresh).nextSequence
      (s.handedOut fresh).pending := by
  refine ⟨Nat.le_refl _, fun n i h => absurd (.stamped h) not_carries_handedOut,
    fun i p h hnew => ?_⟩
  rw [h] at hnew
  cases hnew

theorem learnedSince_after {c : RegistrySection} (hs : s.LearnedSince N known) :
    (c.after account s).LearnedSince N known :=
  (keptByWrites_learnedSince N known).afterSection hs fun _ _ _ _ hprep hfresh =>
    learnedSince_handedOut hs (fun _ hf => (mem_prepare hprep hf).1) hfresh

/-! ### What was handed out and is unresolved -/

/-- The number an id was handed out under. -/
def HandedOutBefore (N : ℕ) (i : String) (s : RequestState) : Prop :=
  ∃ p, s.pending.get? i = some p ∧ p.sequence < N

/-- An id that is pending keeps its number in a batch. -/
theorem sequence_eq_of_pending (hs : s.Unsent) (hprep : ∀ f ∈ prepared, f.queuedAt = none)
    (hc : s.collect account prepared = .ok fresh) {e : Entry} (he : e ∈ s.handOut fresh)
    {p : Pending} (hp : s.pending.get? e.id = some p) : e.sequence = p.sequence := by
  obtain ⟨f, hf, hid, -, -, hpos⟩ := mem_stamp (mem_handOut.mp he)
  have hq : f.queuedAt = none := by
    cases hq : f.queuedAt with
    | none => rfl
    | some n =>
      -- what waits is not pending
      rcases (mem_collect hc f).mp hf with hf | hw
      · rw [hprep f hf] at hq
        cases hq
      · rw [hs.stamped n e.id (hid ▸ hw.queuedAt hq)] at hp
        cases hp
  rw [position_of_not_queued hq, hid, hp] at hpos
  rcases hpos with h | ⟨h, -⟩
  · exact (Option.some.inj h).symm
  · cases h

theorem handedOutBefore_after {i : String} {c : RegistrySection} (hs : s.HandedOutBefore N i)
    (hu : s.Unsent) (hstill : (c.after account s).pending.get? i ≠ none) :
    (c.after account s).HandedOutBefore N i := by
  obtain ⟨p, hp, hlt⟩ := hs
  cases c with
  | queueAction r => exact ⟨p, by rw [RegistrySection.after, queueActionRequest_pending, hp], hlt⟩
  | queueToDevice rs => exact ⟨p, by rw [RegistrySection.after, queueToDeviceRequests_eq, hp], hlt⟩
  | queueSigningKeys id r => exact ⟨p, hp, hlt⟩
  | queueAccountQuery id r => exact ⟨p, hp, hlt⟩
  | queuePeerQuery id r => exact ⟨p, hp, hlt⟩
  | share missing shared tracked =>
    exact ⟨p, by rw [RegistrySection.after, shareQueues_eq, hp], hlt⟩
  | take trip =>
    rcases RegistrySection.after_take account s trip with
      ⟨_, _, fresh, -, hprep, hfresh, hleft⟩ | hsame
    · obtain ⟨p', hp'⟩ := Option.ne_none_iff_exists'.mp hstill
      rw [hleft] at hp' ⊢
      refine ⟨p', hp', ?_⟩
      -- it was handed out again in the place it had, or it is the entry that was there
      rcases get?_record _ hp' with ⟨e, he, rfl, rfl⟩ | ⟨h, -⟩
      · have heq := sequence_eq_of_pending hu (fun _ hf => (mem_prepare hprep hf).1) hfresh he hp
        show e.sequence < N
        omega
      · rw [get?_evict h] at hp
        exact Option.some.inj hp ▸ hlt
    · rw [hsame]
      exact ⟨p, hp, hlt⟩
  | mark id settled =>
    cases settled with
    | error _ => exact ⟨p, hp, hlt⟩
    | ok answer =>
      refine ⟨p, ?_, hlt⟩
      rw [RegistrySection.after, settle_pending, OrdMap.get?_erase] at hstill ⊢
      split at hstill
      · exact absurd rfl hstill
      · next hne => rw [if_neg hne, hp]

/-! ### The four orders -/

variable {N : ℕ} {known : OrdMap String Pending}

/-- **The queries about other people come last.** -/
theorem peersLast_handOut (hs : s.Sequenced) (hu : s.Unsent)
    (hprep : ∀ f ∈ prepared, f.queuedAt = none ∧ f.kind ≠ .peerKeysQueryOutOfBand)
    (hc : s.collect account prepared = .ok fresh) :
    AllBefore (fun e => e.kind ≠ .peerKeysQueryOutOfBand)
      (fun e => e.kind = .peerKeysQueryOutOfBand) (s.handOut fresh) := by
  have hpos : ∀ f ∈ fresh, ∀ k, f.position s.pending = some k → k < s.nextSequence :=
    fun f hf k hk => hs.below _ _
      (sequenceOf_of_position (fun g hg => (hprep g hg).1) hc hf hk)
  obtain ⟨front, peers, action, rfl, -, hfront, hpeers, haction⟩ :=
    collect_split hc fun f hf => (hprep f hf).2
  have hle := @le_stamp s.pending front s.nextSequence
  -- a query about another person has no position, so the counter numbers it
  have hnone : ∀ f ∈ peers, f.position s.pending = none := by
    intro f hf
    obtain ⟨hq, -, r, hr⟩ := hpeers f hf
    rw [position_of_not_queued hq, hu.peers _ hr]
    rfl
  -- an action has its stamp, which is older than the counter
  have hact : ∀ e n, e ∈ (stamp s.pending n action).1 →
      e.kind ≠ .peerKeysQueryOutOfBand ∧ e.sequence < s.nextSequence := by
    intro e n he
    obtain ⟨f, hf, -, hkind, -, hk⟩ := mem_stamp he
    obtain ⟨q, hq, hfq⟩ := mem_of_mapM (mapM_eq_ok.mpr haction) hf
    obtain ⟨hat, -, hfk⟩ := freshOf_eq hfq
    refine ⟨by rw [← hkind, hfk]; exact (kindFor_ne account q.2).2.2.1, ?_⟩
    rcases hk with hk | ⟨hk, -⟩
    · exact hpos f (by simp [hf]) _ hk
    · rw [position_of_queuedAt hat] at hk
      cases hk
  refine allBefore_sortByKey fun x hx y hy hxk hyk => ?_
  rw [stamp_append, stamp_append, List.mem_append, List.mem_append] at hx hy
  have hy : (stamp s.pending s.nextSequence front).2 ≤ y.sequence := by
    rcases hy with hy | hy | hy
    · obtain ⟨f, hf, -, hkind, -⟩ := mem_stamp hy
      exact absurd (hkind.trans hyk) (hfront f hf)
    · exact le_sequence_stamp hnone hy
    · exact absurd hyk (hact y _ hy).1
  rcases hx with hx | hx | hx
  · have := sequence_lt_stamp (fun f hf => hpos f (by simp [hf])) hx
    omega
  · obtain ⟨f, hf, -, hkind, -⟩ := mem_stamp hx
    exact absurd (hkind.symm.trans (hpeers f hf).2.1) hxk
  · have := (hact x _ hx).2
    omega

/-- **What is stamped now comes after what was stamped when it was queued.** -/
theorem stampedFirst_handOut (hs : s.Sequenced) (hprep : ∀ f ∈ prepared, f.queuedAt = none)
    (hc : s.collect account prepared = .ok fresh) :
    AllBefore (fun e => s.QueuedAt e.sequence e.id)
      (fun e => s.pending.get? e.id = none ∧ ∀ n, ¬ s.QueuedAt n e.id) (s.handOut fresh) := by
  refine allBefore_sortByKey fun x _ y hy hx hynew => ?_
  have hlt := hs.below _ _ (.waits hx)
  rcases sequence_of_mem_handOut hprep hc (mem_handOut.mpr hy) with h | ⟨hle, -⟩
  · generalize y.sequence = n at h
    cases h with
    | waits h => exact absurd h (hynew.2 _)
    | pending h =>
      rw [hynew.1] at h
      cases h
  · omega

/-- **What was handed out before comes before what was learned of since.** -/
theorem earlierFirst_handOut (hu : s.Unsent) (hsince : s.LearnedSince N known)
    (hprep : ∀ f ∈ prepared, f.queuedAt = none) (hc : s.collect account prepared = .ok fresh) :
    AllBefore (fun e => s.HandedOutBefore N e.id) (fun e => known.get? e.id = none)
      (s.handOut fresh) := by
  refine allBefore_sortByKey fun x hx y hy hxold hynew => ?_
  obtain ⟨p, hp, hlt⟩ := hxold
  have heq := sequence_eq_of_pending hu hprep hc (mem_handOut.mpr hx) hp
  have hle := hsince.le_sequence hprep hc (mem_handOut.mpr hy) hynew
  omega

/-- The entry of something that waited under a stamp. -/
theorem stamped_mem_handOut {f : Fresh} {n : ℕ} (hf : f ∈ fresh) (hn : f.queuedAt = some n) :
    (⟨n, f.id, f.kind, f.body⟩ : Entry) ∈ s.handOut fresh := by
  obtain ⟨k, hk, hpos⟩ := @exists_mem_stamp s.pending fresh f s.nextSequence hf
  rw [position_of_queuedAt hn] at hpos
  rcases hpos with hpos | ⟨hpos, -⟩
  · obtain rfl : n = k := Option.some.inj hpos
    exact mem_handOut.mpr hk
  · cases hpos

/-- The actions' entries have the ids and the stamps of their queue. -/
theorem map_stampedEntry {qs : List (ℕ × UpstreamOutgoingRequest)} {action : List Fresh}
    (h : List.Forall₂ (fun q f => freshOf account (some q.1) q.2 = .ok f) qs action) :
    (action.map Fresh.stampedEntry).map Entry.id = qs.map (fun q => q.2.requestId) ∧
      (action.map Fresh.stampedEntry).map Entry.sequence = qs.map Prod.fst := by
  have hmap := mapM_eq_ok.mpr h
  rw [List.map_map, List.map_map]
  refine ⟨map_of_mapM hmap fun q f hf => (freshOf_eq hf).2.1, map_of_mapM hmap fun q f hf => ?_⟩
  simp only [Function.comp_apply, Fresh.stampedEntry, (freshOf_eq hf).1, Option.getD_some]

/-- **The actions come out as they were queued.** -/
theorem actionsInOrder_handOut (hs : s.Sequenced)
    (hprep : ∀ f ∈ prepared, f.kind ≠ .peerKeysQueryOutOfBand)
    (hc : s.collect account prepared = .ok fresh) :
    (s.queuedAction.map fun q => q.2.requestId).Sublist ((s.handOut fresh).map Entry.id) := by
  obtain ⟨front, peers, action, rfl, -, -, -, haction⟩ := collect_split hc hprep
  obtain ⟨hids, hstamps⟩ := map_stampedEntry haction
  have hsorted : (action.map Fresh.stampedEntry).Pairwise fun a b => a.sequence < b.sequence := by
    have h := List.pairwise_map.mpr hs.action
    rw [← hstamps] at h
    exact List.pairwise_map.mp h
  rw [← hids]
  refine List.Sublist.map _ (sublist_of_pairwise_lt (pairwise_sortByKey _ _) hsorted ?_)
  intro e he
  obtain ⟨f, hf, rfl⟩ := List.mem_map.mp he
  obtain ⟨q, -, hfq⟩ := mem_of_mapM (mapM_eq_ok.mpr haction) hf
  have hat := (freshOf_eq hfq).1
  have hmem := @stamped_mem_handOut s (front ++ (peers ++ action)) f q.1 (by simp [hf]) hat
  rw [Fresh.stampedEntry, hat]
  exact hmem

end RequestState

/-! ### The actions of a run -/

/-- The registry between two batches. -/
abbrev undrained (account : String) : TransitionSystem RequestState RegistrySection :=
  (registry account).restrict fun s c => ¬ c.Drains account s

/-- Between two batches the action queue only grows at its end. -/
theorem queuedAction_prefix {account : String} {s t : RequestState} {cs : List RegistrySection}
    (h : (undrained account).Run s cs t) : s.queuedAction <+: t.queuedAction := by
  have hkept : KeptByWrites fun t => s.queuedAction <+: t.queuedAction := by
    refine ⟨?_, fun _ _ h => h, fun id answer h => by rw [RequestState.settle_eq]; exact h⟩
    intro t u ht hqueue
    cases hqueue with
    | action r =>
      cases hrep : t.repeats r.requestId with
      | true =>
        rw [RequestState.queueActionRequest_of_repeats hrep]
        exact ht
      | false =>
        rw [RequestState.queueActionRequest_of_not_repeats hrep]
        exact ht.trans (List.prefix_append _ _)
    | toDevice rs =>
      rw [RequestState.queueToDeviceRequests_eq]
      exact ht
    | claim c => cases c <;> exact ht
    | accountQuery id r => exact ht
    | peerQuery id r => exact ht
  refine h.invariant (I := fun t => s.queuedAction <+: t.queuedAction) ?_ (List.prefix_refl _)
  rintro t c u ht ⟨hc, rfl⟩
  refine hkept.afterSection ht fun o prepared fresh htake hprep hfresh => ?_
  subst htake
  have hbatch : t.takeBatch account (some o) = .ok (t.handOut fresh) := by
    simp only [RequestState.takeBatch, hprep, hfresh]
    rfl
  exact absurd ⟨_, hbatch⟩ hc

/-- Two actions queued since the last batch, as they were queued. -/
theorem actions_sublist {account : String} {s₁ s₂ q : RequestState}
    {cs₁ cs₂ : List RegistrySection} {r₁ r₂ : UpstreamOutgoingRequest}
    (h₁ : s₁.repeats r₁.requestId = false) (h₂ : s₂.repeats r₂.requestId = false)
    (hrun₁ : (undrained account).Run (s₁.queueActionRequest r₁) cs₁ s₂)
    (hrun₂ : (undrained account).Run (s₂.queueActionRequest r₂) cs₂ q) :
    [r₁.requestId, r₂.requestId].Sublist (q.queuedAction.map fun q => q.2.requestId) := by
  have hp₁ := queuedAction_prefix hrun₁
  have hp₂ := queuedAction_prefix hrun₂
  rw [RequestState.queueActionRequest_of_not_repeats h₁] at hp₁
  rw [RequestState.queueActionRequest_of_not_repeats h₂] at hp₂
  have hfirst : [(s₁.nextSequence, r₁)].Sublist s₂.queuedAction :=
    (List.sublist_append_right _ _).trans hp₁.sublist
  have hboth : ([(s₁.nextSequence, r₁)] ++ [(s₂.nextSequence, r₂)]).Sublist q.queuedAction :=
    (hfirst.append (List.Sublist.refl _)).trans hp₂.sublist
  exact hboth.map fun q => q.2.requestId

/-! ### What an earlier batch held -/

/-- The id is pending in every state of the run. -/
def StaysPending (account : String) (p : RequestState) (cs : List RegistrySection) (i : String) :
    Prop :=
  ∀ cs₁ cs₂ r, cs = cs₁ ++ cs₂ → (registry account).Run p cs₁ r → r.pending.get? i ≠ none

/-- An id that stays pending keeps a number below the one it was handed out
before. -/
theorem handedOutBefore_of_run {account : String} {p q : RequestState}
    {cs : List RegistrySection} {N : ℕ} {i : String} (h : (mintedRegistry account).Run p cs q)
    (hp : p.HandedOutBefore N i) (hu : p.Unsent) (hstays : StaysPending account p cs i) :
    q.HandedOutBefore N i := by
  induction h with
  | nil => exact hp
  | @snoc q u as c hrun hstep ih =>
    have hstays' : StaysPending account p as i := by
      intro cs₁ cs₂ r heq
      exact hstays cs₁ (cs₂ ++ [c]) r (by rw [heq, List.append_assoc])
    have hq : q.Unsent := by
      refine hrun.invariant (I := RequestState.Unsent) ?_ hu
      rintro s c t hs ⟨hnew, rfl⟩
      exact RequestState.unsent_after hs hnew
    have hrun' : (registry account).Run p (as ++ [c]) u := (hrun.snoc hstep).of_restrict
    obtain ⟨-, rfl⟩ := hstep
    exact RequestState.handedOutBefore_after (ih hstays') hq
      (hstays _ [] _ (List.append_nil _).symm hrun')

theorem learnedSince_of_run {account : String} {p q : RequestState} {cs : List RegistrySection}
    {N : ℕ} {known : OrdMap String Pending} (h : (mintedRegistry account).Run p cs q)
    (hp : p.LearnedSince N known) : q.LearnedSince N known := by
  refine h.invariant (I := RequestState.LearnedSince N known) ?_ hp
  rintro s c t hs ⟨-, rfl⟩
  exact RequestState.learnedSince_after hs

/-- What the order of a batch says. -/
structure InProductionOrder (account : String) (q : RequestState) (batch : List Entry) : Prop where
  /-- Two actions come out as they were queued. -/
  actions : ∀ (s₁ s₂ : RequestState) cs₁ cs₂ (r₁ r₂ : UpstreamOutgoingRequest),
    s₁.repeats r₁.requestId = false → s₂.repeats r₂.requestId = false →
    (undrained account).Run (s₁.queueActionRequest r₁) cs₁ s₂ →
    (undrained account).Run (s₂.queueActionRequest r₂) cs₂ q →
      [r₁.requestId, r₂.requestId].Sublist (batch.map Entry.id)
  /-- What an earlier batch held, unresolved since, comes before what was not
  known when that batch was handed out. -/
  earlier : ∀ (p : RequestState) trip before cs, (mintedRegistry account).Reachable p →
    p.takeBatch account trip = .ok before →
    (mintedRegistry account).Run (p.takeOutgoingRequests account trip).2 cs q →
      AllBefore
        (fun e => e.id ∈ before.map Entry.id ∧
          StaysPending account (p.takeOutgoingRequests account trip).2 cs e.id)
        (fun e => (p.takeOutgoingRequests account trip).2.pending.get? e.id = none) batch
  /-- What was stamped when it was queued comes before what is stamped now. -/
  stamped : AllBefore (fun e => q.QueuedAt e.sequence e.id)
    (fun e => q.pending.get? e.id = none ∧ ∀ n, ¬ q.QueuedAt n e.id) batch
  /-- The queries about other people come last. -/
  peers : AllBefore (fun e => e.kind ≠ .peerKeysQueryOutOfBand)
    (fun e => e.kind = .peerKeysQueryOutOfBand) batch

/-- **Batches come in production order, and distinct ids have distinct numbers.** -/
theorem batch_in_production_order {account : String} {q : RequestState}
    (hq : (mintedRegistry account).Reachable q) : q.SequencesDistinct ∧
      ∀ trip batch, q.takeBatch account trip = .ok batch →
        (q.takeOutgoingRequests account trip).1 = .ok (batch.map Entry.outgoing) ∧
          InProductionOrder account q batch := by
  have hs : q.Sequenced := sequenced_of_reachable hq.of_restrict
  have hu : q.Unsent := unsent_of_reachable hq
  refine ⟨RequestState.sequencesDistinct_of_sequenced hs, fun trip batch hbatch => ?_⟩
  obtain ⟨o, prepared, fresh, rfl, hprep, hfresh, rfl, -⟩ :=
    RequestState.takeBatch_leaves hbatch
  have hat : ∀ f ∈ prepared, f.queuedAt = none := fun f hf => (mem_prepare hprep hf).1
  have hkind : ∀ f ∈ prepared, f.kind ≠ .peerKeysQueryOutOfBand :=
    fun f hf => prepare_kind_ne_peer hprep hf
  refine ⟨by rw [RequestState.takeOutgoingRequests_fst, hbatch]; rfl, ?_, ?_, ?_, ?_⟩
  · intro s₁ s₂ cs₁ cs₂ r₁ r₂ h₁ h₂ hrun₁ hrun₂
    exact (actions_sublist h₁ h₂ hrun₁ hrun₂).trans
      (RequestState.actionsInOrder_handOut hs hkind hfresh)
  · intro p trip before cs hp hbefore hrun
    obtain ⟨_, prepared', fresh', -, hprep', hfresh', rfl, hleft⟩ :=
      RequestState.takeBatch_leaves hbefore
    rw [hleft] at hrun ⊢
    have hp' : (p.handedOut fresh').Sequenced := RequestState.sequenced_handedOut
      (sequenced_of_reachable hp.of_restrict) (fun f hf => (mem_prepare hprep' hf).1) hfresh'
    have hsince := learnedSince_of_run hrun (RequestState.learnedSince_of_handedOut p fresh')
    have hfirst := RequestState.earlierFirst_handOut hu hsince hat hfresh
    -- what the earlier batch held has kept its number
    refine hfirst.imp fun e ⟨he, hstays⟩ => ?_
    obtain ⟨e₀, he₀, hid⟩ := List.mem_map.mp he
    have hpending := RequestState.pending_of_mem_handOut he₀
    obtain ⟨w, hw⟩ := Option.ne_none_iff_exists'.mp hpending
    rw [hid] at hw
    exact handedOutBefore_of_run hrun ⟨w, hw, hp'.below _ _ (.pending hw)⟩
      (RequestState.unsent_handedOut p fresh') hstays
  · exact RequestState.stampedFirst_handOut hs hat hfresh
  · exact RequestState.peersLast_handOut hs hu (fun f hf => ⟨hat f hf, hkind f hf⟩) hfresh

/-! ### A scanned verification's batch

A signature upload is handed out and stays unresolved; a query about the person
and a closing message are queued; upstream then offers one more upload. -/

/-- The query about the person verified. -/
def bobQuery : KeysQueryRequest where
  deviceKeys := ⟨OrdMap.empty.insert "@bob:example.org" [],
    some (.obj [("@bob:example.org", .arr [])])⟩
  timeout := none

/-- A signature upload of upstream's. -/
def upload (id : String) : UpstreamOutgoingRequest := ⟨id, .signatureUpload (some (.obj []))⟩

/-- The message that closes the verification. -/
def closing : UpstreamOutgoingRequest :=
  ⟨"c1", .toDeviceRequest ⟨"m.key.verification.done", "c1", some (.obj [])⟩⟩

/-- The registry once the first upload is handed out. -/
def uploadTaken : RequestState :=
  RegistrySection.after "@alice:example.org" .initial (.take (offers [upload "s1"]))

/-- The registry once the verification is over. -/
def scanned : RequestState :=
  (uploadTaken.queuePeerKeyQuery "k1" bobQuery).queueActionRequest closing

theorem scanned_reachable : (mintedRegistry "@alice:example.org").Reachable scanned := by
  have hnone : ∀ c : RegistrySection, c.minted = [] → ∀ s, MintsNew s c := by
    intro c hc s id hid
    rw [hc] at hid
    cases hid
  have htake : (mintedRegistry "@alice:example.org").step .initial
      (.take (offers [upload "s1"])) uploadTaken := ⟨hnone _ rfl _, rfl⟩
  have hpeer : MintsNew uploadTaken (.queuePeerQuery "k1" bobQuery) := by
    intro id hid
    obtain rfl := List.mem_singleton.mp hid
    exact ⟨RequestState.not_carries_handedOut, rfl⟩
  exact ⟨_, _, rfl, (((TransitionSystem.Run.nil _).snoc htake).snoc
    (a := RegistrySection.queuePeerQuery "k1" bobQuery) ⟨hpeer, rfl⟩).snoc
      (a := RegistrySection.queueAction closing) ⟨hnone _ rfl _, rfl⟩⟩

/-- What was handed out, the stamped message, the new upload, the query. -/
theorem scanned_in_production_order : scanned.SequencesDistinct ∧
    ∃ batch, scanned.takeBatch "@alice:example.org" (offers [upload "s2", upload "s1"]) =
        .ok batch ∧
      batch.map Entry.id = ["s1", "c1", "s2", "k1"] ∧
        InProductionOrder "@alice:example.org" scanned batch := by
  have h := batch_in_production_order scanned_reachable
  obtain ⟨batch, hbatch, hids⟩ : ∃ batch,
      scanned.takeBatch "@alice:example.org" (offers [upload "s2", upload "s1"]) = .ok batch ∧
        batch.map Entry.id = ["s1", "c1", "s2", "k1"] := ⟨_, rfl, by decide⟩
  exact ⟨h.1, batch, hbatch, hids, (h.2 _ _ hbatch).2⟩

end MatrixCrypto
