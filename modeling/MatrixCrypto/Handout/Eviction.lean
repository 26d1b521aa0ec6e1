import Mathlib.Algebra.GroupWithZero.Nat
import MatrixCrypto.Handout.Sections

/-!
# What a batch makes obsolete

Handing a batch out drops every pending entry of a group the batch refreshes.
Over a whole run that leaves, of every group, only what the last batch carrying
it handed out.

## Main definitions

* `batches` — the batches a run hands out, in order.
* `lastOf g bs` — the last of them that carries the group `g`.
* `evictionGroups` — every group there is.

## Main results

* `get?_handedOut_none_iff` — **what a batch removes, exactly.**
* `dropped_by` — what is pending leaves by a batch of its group or by its mark.
* `fromLast_of_run` — what is pending in a group was handed out by the last batch
  that carried it.
* `grouped_length_le` — how many entries of grouped kinds are pending at most.
* `evicted_by_group` — all of it, for every run.
-/

namespace MatrixCrypto

open Lib

/-! ### The batches of a run -/

/-- The batch a section hands out, if it does. -/
def RegistrySection.batch? (account : String) (s : RequestState) :
    RegistrySection → Option (List Entry)
  | take trip => (s.takeBatch account trip).toOption
  | _ => none

/-- The batches a run hands out, in order. -/
def batches (account : String) : RequestState → List RegistrySection → List (List Entry)
  | _, [] => []
  | s, c :: cs => (c.batch? account s).toList ++ batches account (c.after account s) cs

/-- The last batch that carries a group; no entry when none does. -/
def lastOf (g : String) (bs : List (List Entry)) : List Entry :=
  ((bs.filter fun b => (refreshed b).contains g).getLast?).getD []

/-- Every eviction group. -/
def evictionGroups : List String :=
  [PendingKind.keysUpload, .keysQuery, .keysClaim, .signingKeysUpload,
    .accountKeysQueryOutOfBand].filterMap PendingKind.evictionGroup

theorem mem_evictionGroups {k : PendingKind} {g : String} (h : k.evictionGroup = some g) :
    g ∈ evictionGroups := by
  cases k <;> cases h <;> decide

theorem mem_refreshed {batch : List Entry} {g : String} :
    g ∈ refreshed batch ↔ ∃ e ∈ batch, e.kind.evictionGroup = some g := by
  simp only [refreshed, List.mem_filterMap]

theorem batches_append {account : String} : ∀ {cs ds : List RegistrySection} {s t : RequestState},
    (registry account).Run s cs t →
      batches account s (cs ++ ds) = batches account s cs ++ batches account t ds := by
  intro cs
  induction cs with
  | nil =>
    intro ds s t h
    rw [h.eq_of_nil]
    rfl
  | cons c cs ih =>
    intro ds s t h
    obtain ⟨u, hstep, hrun⟩ := h.uncons
    have hu : u = c.after account s := hstep
    subst hu
    rw [List.cons_append, batches, batches, ih hrun, List.append_assoc]

theorem lastOf_append_of_carries {g : String} {bs : List (List Entry)} {b : List Entry}
    (h : g ∈ refreshed b) : lastOf g (bs ++ [b]) = b := by
  have hb : (refreshed b).contains g = true := List.contains_iff_mem.mpr h
  rw [lastOf, List.filter_append, List.filter_singleton, hb]
  simp

theorem lastOf_append_of_not_carries {g : String} {bs : List (List Entry)} {b : List Entry}
    (h : g ∉ refreshed b) : lastOf g (bs ++ [b]) = lastOf g bs := by
  have hb : (refreshed b).contains g = false := by simpa using h
  rw [lastOf, List.filter_append, List.filter_singleton, hb]
  simp [lastOf]

/-! ### What one batch removes -/

/-- What eviction keeps: what has no group, and what the batch refreshes no group
of. -/
theorem get?_evict_eq_some {batch : List Entry} {pending : OrdMap String Pending} {i : String}
    {p : Pending} : (evict batch pending).get? i = some p ↔
      pending.get? i = some p ∧ ∀ g, p.kind.evictionGroup = some g → g ∉ refreshed batch := by
  unfold evict
  split
  · next hempty =>
    rw [List.isEmpty_iff] at hempty
    rw [hempty]
    simp
  · rw [OrdMap.get?_filter, Option.filter_eq_some_iff]
    refine and_congr_right fun _ => ?_
    cases hg : p.kind.evictionGroup with
    | none => simp
    | some g => simp

namespace RequestState

variable {s : RequestState} {fresh : List Fresh} {i : String}

/-- **What a batch removes, exactly**: what it does not hold, of a group it does. -/
theorem get?_handedOut_none_iff :
    s.pending.get? i ≠ none ∧ (s.handedOut fresh).pending.get? i = none ↔
      (∀ e ∈ s.handOut fresh, e.id ≠ i) ∧
        ∃ p g, s.pending.get? i = some p ∧ p.kind.evictionGroup = some g ∧
          ∃ e ∈ s.handOut fresh, e.kind.evictionGroup = some g := by
  constructor
  · rintro ⟨hp, hnone⟩
    obtain ⟨p, hp⟩ := Option.ne_none_iff_exists'.mp hp
    have hout : ∀ e ∈ s.handOut fresh, e.id ≠ i := by
      rintro e he rfl
      exact pending_of_mem_handOut he hnone
    refine ⟨hout, ?_⟩
    by_contra hkept
    -- nothing of its group is in the batch, so it is kept
    have hev : (evict (s.handOut fresh) s.pending).get? i = some p := by
      refine get?_evict_eq_some.mpr ⟨hp, fun g hg hmem => ?_⟩
      exact hkept ⟨p, g, hp, hg, mem_refreshed.mp hmem⟩
    exact record_isSome _ (Or.inl (by rw [hev]; simp)) hnone
  · rintro ⟨hout, p, g, hp, hg, he⟩
    refine ⟨by rw [hp]; simp, ?_⟩
    cases hleft : (s.handedOut fresh).pending.get? i with
    | none => rfl
    | some p' =>
      rcases get?_record _ hleft with ⟨e, he', hid, -⟩ | ⟨hev, -⟩
      · exact absurd hid (hout e he')
      · obtain ⟨hp', hg'⟩ := get?_evict_eq_some.mp hev
        rw [hp] at hp'
        obtain rfl := Option.some.inj hp'
        exact absurd (mem_refreshed.mpr he) (hg' g hg)

end RequestState

/-! ### Sections that hand nothing out -/

/-- A section adds nothing to what is pending unless it hands a batch out. -/
theorem get?_after {account : String} {s : RequestState} {c : RegistrySection} {i : String}
    {p : Pending} (hc : c.batch? account s = none)
    (h : (c.after account s).pending.get? i = some p) : s.pending.get? i = some p := by
  cases c with
  | queueAction r => exact RequestState.queueActionRequest_pending s r ▸ h
  | queueToDevice rs =>
    rw [RegistrySection.after, RequestState.queueToDeviceRequests_eq] at h
    exact h
  | queueSigningKeys id r => exact h
  | queueAccountQuery id r => exact h
  | queuePeerQuery id r => exact h
  | share missing shared tracked =>
    rw [RegistrySection.after, RequestState.shareQueues_eq] at h
    exact h
  | take trip =>
    rcases s.takeBatch_cases account trip with ⟨batch, hbatch⟩ | hsame
    · rw [RegistrySection.batch?, hbatch] at hc
      cases hc
    · rw [RegistrySection.after, hsame] at h
      exact h
  | mark id settled =>
    cases settled with
    | error _ => exact h
    | ok answer =>
      rw [RegistrySection.after, RequestState.settle_pending, OrdMap.get?_erase] at h
      split at h
      · cases h
      · exact h

/-- **What is pending is dropped by a batch of its group, or by the mark that
succeeded for it.** -/
theorem dropped_by {account : String} {s : RequestState} {c : RegistrySection} {i : String}
    {p : Pending} (hp : s.pending.get? i = some p)
    (hnone : (c.after account s).pending.get? i = none) :
    (∃ answer, c = .mark i (.ok answer)) ∨
      ∃ g batch, p.kind.evictionGroup = some g ∧ c.batch? account s = some batch ∧
        (∀ e ∈ batch, e.id ≠ i) ∧ ∃ e ∈ batch, e.kind.evictionGroup = some g := by
  have hkept : ∀ t : RequestState, t.pending = s.pending → t.pending.get? i ≠ none := by
    intro t ht
    rw [ht, hp]
    simp
  cases c with
  | queueAction r => exact absurd hnone (hkept _ (RequestState.queueActionRequest_pending s r))
  | queueToDevice rs =>
    rw [RegistrySection.after, RequestState.queueToDeviceRequests_eq] at hnone
    exact absurd hnone (hkept s rfl)
  | queueSigningKeys id r => exact absurd hnone (hkept s rfl)
  | queueAccountQuery id r => exact absurd hnone (hkept s rfl)
  | queuePeerQuery id r => exact absurd hnone (hkept s rfl)
  | share missing shared tracked =>
    rw [RegistrySection.after, RequestState.shareQueues_eq] at hnone
    exact absurd hnone (hkept s rfl)
  | take trip =>
    rcases s.takeBatch_cases account trip with ⟨batch, hbatch⟩ | hsame
    · obtain ⟨_, _, fresh, -, -, -, rfl, hleft⟩ := RequestState.takeBatch_leaves hbatch
      rw [RegistrySection.after, hleft] at hnone
      obtain ⟨hout, p', g, hp', hg, he⟩ :=
        RequestState.get?_handedOut_none_iff.mp ⟨hkept s rfl, hnone⟩
      rw [hp] at hp'
      obtain rfl := Option.some.inj hp'
      exact Or.inr ⟨g, _, hg, by rw [RegistrySection.batch?, hbatch]; rfl, hout, he⟩
    · rw [RegistrySection.after, hsame] at hnone
      exact absurd hnone (hkept s rfl)
  | mark id settled =>
    cases settled with
    | error _ => exact absurd hnone (hkept s rfl)
    | ok answer =>
      rw [RegistrySection.after, RequestState.settle_pending, OrdMap.get?_erase] at hnone
      split at hnone
      · next hi => exact Or.inl ⟨answer, by rw [hi]⟩
      · exact absurd hnone (hkept s rfl)

/-! ### What a run leaves pending -/

/-- Everything pending in a group was handed out by one batch. -/
def FromLast (bs : List (List Entry)) (s : RequestState) : Prop :=
  ∀ i p g, s.pending.get? i = some p → p.kind.evictionGroup = some g →
    ∃ e ∈ lastOf g bs, e.id = i ∧ e.kind = p.kind ∧ e.sequence = p.sequence

theorem fromLast_after {account : String} {s : RequestState} {c : RegistrySection}
    {bs : List (List Entry)} (hs : FromLast bs s) :
    FromLast (bs ++ (c.batch? account s).toList) (c.after account s) := by
  intro i p g hp hg
  cases hb : c.batch? account s with
  | none =>
    rw [Option.toList_none, List.append_nil]
    exact hs i p g (get?_after hb hp) hg
  | some batch =>
    -- only a take hands a batch out
    cases c with
    | take trip =>
      have hbatch : s.takeBatch account trip = .ok batch := by
        rw [RegistrySection.batch?] at hb
        cases hbatch : s.takeBatch account trip with
        | error e => rw [hbatch] at hb; cases hb
        | ok batch' => rw [hbatch] at hb; rw [Option.some.inj hb]
      obtain ⟨_, _, fresh, -, -, -, rfl, hleft⟩ := RequestState.takeBatch_leaves hbatch
      rw [RegistrySection.after, hleft] at hp
      rw [Option.toList_some]
      rcases get?_record _ hp with ⟨e, he, rfl, rfl⟩ | ⟨hev, -⟩
      · rw [lastOf_append_of_carries (mem_refreshed.mpr ⟨e, he, hg⟩)]
        exact ⟨e, he, rfl, rfl, rfl⟩
      · obtain ⟨hold, hnot⟩ := get?_evict_eq_some.mp hev
        rw [lastOf_append_of_not_carries (hnot g hg)]
        exact hs i p g hold hg
    | _ => cases hb

/-- **What is pending in a group was handed out by the last batch that carried
it.** -/
theorem fromLast_of_run {account : String} {cs : List RegistrySection} {s : RequestState}
    (h : (registry account).Run .initial cs s) :
    FromLast (batches account .initial cs) s := by
  generalize hs₀ : RequestState.initial = s₀ at h
  induction h with
  | nil =>
    subst hs₀
    intro i p g hp
    cases hp
  | @snoc t u as c hrun hstep ih =>
    subst hs₀
    have hu : u = c.after account t := hstep
    subst hu
    rw [batches_append hrun]
    have hone : batches account t [c] = (c.batch? account t).toList := by
      rw [batches, batches, List.append_nil]
    rw [hone]
    exact fromLast_after ih

/-- The pending entries of grouped kinds. -/
def grouped (s : RequestState) : List (String × Pending) :=
  s.pending.entries.filter fun e => e.2.kind.evictionGroup.isSome

/-- The members of a group in the last batch that carried it. -/
def lastMembers (g : String) (bs : List (List Entry)) : List Entry :=
  (lastOf g bs).filter fun e => e.kind.evictionGroup = some g

/-- **How many entries of grouped kinds are pending at most.** -/
theorem grouped_length_le {bs : List (List Entry)} {s : RequestState} (h : FromLast bs s) :
    (grouped s).length ≤ (evictionGroups.map fun g => (lastMembers g bs).length).sum := by
  -- distinct ids, each of a member of its group
  have hnodup : ((grouped s).map Prod.fst).Nodup := by
    have hsorted : (grouped s).Pairwise fun a b => a.1 < b.1 := s.pending.sorted.filter _
    exact List.pairwise_map.mpr (hsorted.imp fun hlt => ne_of_lt hlt)
  have hsub : (grouped s).map Prod.fst ⊆
      evictionGroups.flatMap fun g => (lastMembers g bs).map Entry.id := by
    intro i hi
    obtain ⟨⟨i, p⟩, he, rfl⟩ := List.mem_map.mp hi
    obtain ⟨hmem, hsome⟩ := List.mem_filter.mp he
    obtain ⟨g, hg⟩ := Option.isSome_iff_exists.mp hsome
    obtain ⟨e, he, hid, hkind, -⟩ := h i p g (OrdMap.get?_eq_some.mpr hmem) hg
    have hmember : e ∈ lastMembers g bs := by
      refine List.mem_filter.mpr ⟨he, ?_⟩
      rw [hkind]
      simpa using hg
    exact List.mem_flatMap.mpr ⟨g, mem_evictionGroups hg, List.mem_map.mpr ⟨e, hmember, hid⟩⟩
  have hle := (List.subperm_of_subset hnodup hsub).length_le
  rw [List.length_map, List.length_flatMap] at hle
  simpa only [List.length_map] using hle

/-! ### Which kinds -/

/-- The kinds no batch makes obsolete. -/
def ungroupedKinds : List PendingKind :=
  [.toDevice, .signatureUpload, .roomMessage, .peerKeysQueryOutOfBand, .roomKeyBackup]

/-- The key queries upstream makes by itself. -/
def ordinaryQueries : List PendingKind := [.keysQuery, .accountKeysQuery]

theorem evictionGroup_eq_none_iff {k : PendingKind} :
    k.evictionGroup = none ↔ k ∈ ungroupedKinds := by
  cases k <;> simp [PendingKind.evictionGroup, ungroupedKinds]

/-- The out-of-band query about the account is alone in its group. -/
theorem eq_of_group_outOfBand {k : PendingKind}
    (h : k.evictionGroup = PendingKind.accountKeysQueryOutOfBand.evictionGroup) :
    k = .accountKeysQueryOutOfBand := by
  cases k <;> first | rfl | (exfalso; revert h; decide)

/-- The ordinary key queries share a group with no other kind. -/
theorem mem_ordinaryQueries_of_group {k k' : PendingKind} (hk : k ∈ ordinaryQueries)
    (h : k'.evictionGroup = k.evictionGroup) : k' ∈ ordinaryQueries := by
  have hgroup : k.evictionGroup = PendingKind.keysQuery.evictionGroup := by
    rcases List.mem_cons.mp hk with rfl | hk
    · rfl
    · rw [List.mem_singleton.mp hk]
      rfl
  rw [hgroup] at h
  cases k' <;> first | decide | (exfalso; revert h; decide)

/-- **What every run leaves pending, and how it leaves.**  What is pending in a
group was handed out by one batch, the last that carried the group; a batch
removes what it does not hold of the groups it carries, and nothing else; an entry
of no group leaves by the mark that succeeds for it; an ordinary key query and an
out-of-band one never make each other obsolete; and the grouped entries are as
many as the last batches held members of their groups, at most. -/
theorem evicted_by_group {account : String} {cs : List RegistrySection} {s : RequestState}
    (h : (registry account).Run .initial cs s) :
    (∀ i p g, s.pending.get? i = some p → p.kind.evictionGroup = some g →
      ∃ e ∈ lastOf g (batches account .initial cs),
        e.id = i ∧ e.kind = p.kind ∧ e.sequence = p.sequence) ∧
    (∀ trip batch, s.takeBatch account trip = .ok batch → ∀ i,
      s.pending.get? i ≠ none ∧
          (s.takeOutgoingRequests account trip).2.pending.get? i = none ↔
        (∀ e ∈ batch, e.id ≠ i) ∧ ∃ p g, s.pending.get? i = some p ∧
          p.kind.evictionGroup = some g ∧ ∃ e ∈ batch, e.kind.evictionGroup = some g) ∧
    (∀ (c : RegistrySection) i p, s.pending.get? i = some p → p.kind ∈ ungroupedKinds →
      (c.after account s).pending.get? i = none → ∃ answer, c = .mark i (.ok answer)) ∧
    (∀ trip batch, s.takeBatch account trip = .ok batch → ∀ i p, s.pending.get? i = some p →
      (s.takeOutgoingRequests account trip).2.pending.get? i = none →
        (p.kind = .accountKeysQueryOutOfBand →
          ∃ e ∈ batch, e.kind = .accountKeysQueryOutOfBand) ∧
        (p.kind ∈ ordinaryQueries → ∃ e ∈ batch, e.kind ∈ ordinaryQueries)) ∧
    (grouped s).length ≤ (evictionGroups.map fun g =>
      (lastMembers g (batches account .initial cs)).length).sum := by
  have hlast := fromLast_of_run h
  have hremoves : ∀ trip batch, s.takeBatch account trip = .ok batch → ∀ i,
      s.pending.get? i ≠ none ∧
          (s.takeOutgoingRequests account trip).2.pending.get? i = none ↔
        (∀ e ∈ batch, e.id ≠ i) ∧ ∃ p g, s.pending.get? i = some p ∧
          p.kind.evictionGroup = some g ∧ ∃ e ∈ batch, e.kind.evictionGroup = some g := by
    intro trip batch hbatch i
    obtain ⟨_, _, fresh, -, -, -, rfl, hleft⟩ := RequestState.takeBatch_leaves hbatch
    rw [hleft]
    exact RequestState.get?_handedOut_none_iff
  refine ⟨hlast, hremoves, fun c i p hp hk hnone => ?_, fun trip batch hbatch i p hp hnone => ?_,
    grouped_length_le hlast⟩
  · rcases dropped_by hp hnone with hmark | ⟨g, _, hg, -⟩
    · exact hmark
    · rw [evictionGroup_eq_none_iff.mpr hk] at hg
      cases hg
  · -- what a batch evicts is of the group of something it holds
    obtain ⟨-, p', g, hp', hg, e, he, heg⟩ :=
      (hremoves trip batch hbatch i).mp ⟨by rw [hp]; simp, hnone⟩
    rw [hp] at hp'
    obtain rfl := Option.some.inj hp'
    have hsame : e.kind.evictionGroup = p.kind.evictionGroup := by rw [heg, hg]
    refine ⟨fun hk => ⟨e, he, ?_⟩, fun hk => ⟨e, he, mem_ordinaryQueries_of_group hk hsame⟩⟩
    rw [hk] at hsame
    exact eq_of_group_outOfBand hsame

/-! ### Two batches

The second carries a fresh upload of device keys, and no key query. -/

/-- An upload of no new keys. -/
def keyUpload (id : String) : UpstreamOutgoingRequest :=
  ⟨id, .keysUpload none ⟨[], some (.obj [])⟩ ⟨[], some (.obj [])⟩⟩

/-- A key query about nobody. -/
def keyQuery (id : String) : UpstreamOutgoingRequest :=
  ⟨id, .keysQuery ⟨⟨.empty, some (.obj [])⟩, none⟩⟩

/-- The two takes. -/
def twoTakes : List RegistrySection :=
  [.take (offers [keyUpload "u1", keyQuery "q1"]), .take (offers [keyUpload "u2"])]

/-- The first upload is gone, the query is not, and the bound is met. -/
theorem evicted_by_second_take : ∃ s, (registry "@alice:example.org").Run .initial twoTakes s ∧
    s.pending.entries.map Prod.fst = ["q1", "u2"] ∧
      (∃ e ∈ lastOf "keys_query" (batches "@alice:example.org" .initial twoTakes), e.id = "q1") ∧
      (grouped s).length ≤ (evictionGroups.map fun g =>
        (lastMembers g (batches "@alice:example.org" .initial twoTakes)).length).sum := by
  obtain ⟨s, hrun, hids, hq⟩ : ∃ s,
      (registry "@alice:example.org").Run .initial twoTakes s ∧
        s.pending.entries.map Prod.fst = ["q1", "u2"] ∧
          s.pending.get? "q1" = some ⟨.keysQuery, 1⟩ :=
    ⟨_, .cons (registry_step _ _ _) (.single (registry_step _ _ _)), by decide, by decide⟩
  have h := evicted_by_group hrun
  obtain ⟨e, he, hid, -⟩ := h.1 "q1" _ "keys_query" hq rfl
  exact ⟨s, hrun, hids, ⟨e, he, hid⟩, h.2.2.2.2⟩

end MatrixCrypto
