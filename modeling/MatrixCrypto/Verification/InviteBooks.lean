import MatrixCrypto.Verification.Invitations

/-!
# The books of the announcing passes

Registering a flow is what keeps a pass from announcing it again, and a pass whose
announcement reached nobody takes the registration back.  The passes, the calls
that adopt a flow and the sweeps all change the one map.

## Main definitions

* `Booked` — the flow is told at most once; while it is registered it was announced, is
  about to be, was started here or is held by a caller; and while a pass has it in hand
  it stays registered.

## Main results

* `Booked.adds`, `Booked.forgets`, `Booked.keeps` — a registration, its undoing,
  and every other section.
* `Booked.section`, `booked_run` — **the books of a flow hold through every run that
  leaves it to its pass.**
-/

namespace MatrixCrypto

open Lib

/-! ### The keys of the registry -/

namespace Registry

variable {flows : Registry} {u : Upstream} {observed : Bool} {f id : String} {record : FlowRecord}

theorem mem_swept : f ∈ flows.swept u observed ↔
    ∃ record, flows.get? f = some record ∧ record.retained u observed = false := by
  unfold swept
  rw [List.mem_map]
  constructor
  · rintro ⟨e, he, rfl⟩
    obtain ⟨hmem, hnot⟩ := OrdMap.mem_filter.mp he
    exact ⟨e.2, OrdMap.get?_eq_some.mpr hmem, by simpa using hnot⟩
  · rintro ⟨record, hget, hnot⟩
    exact ⟨(f, record), OrdMap.mem_filter.mpr ⟨OrdMap.get?_eq_some.mp hget, by simpa using hnot⟩,
      rfl⟩

/-- A flow no sweep drops stays. -/
theorem Has.releaseFinished (h : flows.Has f) (hf : f ∉ flows.swept u observed) :
    (flows.releaseFinished u observed).Has f := by
  obtain ⟨record, hget⟩ := h
  have hretained : record.retained u observed = true := by
    by_contra hnot
    exact hf (mem_swept.mpr ⟨record, hget, by simpa using hnot⟩)
  exact ⟨_, get?_releaseFinished_of_retained hget hretained⟩

theorem has_of_releaseFinished (h : (flows.releaseFinished u observed).Has f) : flows.Has f := by
  obtain ⟨record, hget⟩ := h
  obtain ⟨before, hbefore, -⟩ := of_get?_releaseFinished hget
  exact ⟨before, hbefore⟩

theorem has_insert : (Has (flows.insert id record) f) ↔ f = id ∨ flows.Has f := by
  unfold Has
  rw [OrdMap.get?_insert]
  by_cases hf : f = id
  · simp [hf]
  · simp [hf]

theorem has_mapValues (g : FlowRecord → FlowRecord) :
    Has (flows.mapValues fun _ record => g record) f ↔ flows.Has f := by
  unfold Has
  rw [OrdMap.get?_mapValues]
  cases flows.get? f <;> simp

theorem has_cached : (flows.cached u id).2.Has f ↔ flows.Has f := by
  cases hget : flows.get? id with
  | none => rw [cached_of_none hget]
  | some record =>
    rw [cached_of_some hget, has_insert]
    constructor
    · rintro (rfl | h)
      · exact ⟨record, hget⟩
      · exact h
    · exact Or.inr

theorem has_remember {v : Verification} : (flows.remember id v).Has f ↔ flows.Has f := by
  have hinsert : ∀ held record', flows.get? id = some held →
      (Has (flows.insert id record') f ↔ flows.Has f) := by
    intro held record' hget
    rw [has_insert]
    constructor
    · rintro (rfl | h)
      · exact ⟨held, hget⟩
      · exact h
    · exact Or.inr
  cases v with
  | sas c =>
    unfold remember rememberComparison
    cases hget : flows.get? id with
    | none => rfl
    | some held => exact hinsert held _ hget
  | qr q =>
    unfold remember rememberCode
    cases hget : flows.get? id with
    | none => rfl
    | some held => exact hinsert held _ hget

theorem has_register : (flows.register u observed id record).2.Has f ↔
    f = id ∨ (flows.releaseFinished u observed).Has f := by
  unfold register
  exact has_insert

theorem has_forgetFlow : (flows.forgetFlow id).Has f ↔ f ≠ id ∧ flows.Has f := by
  unfold Has
  rw [forgetFlow, OrdMap.get?_erase]
  by_cases hf : f = id
  · simp [hf]
  · simp [hf]

end Registry

/-! ### What a lookup registers -/

theorem FlowRecord.upstreamFlowId_lookedAt {u : Upstream} {record : FlowRecord} :
    (record.lookedAt u).upstreamFlowId = record.upstreamFlowId := by
  unfold upstreamFlowId
  rw [request_lookedAt, comparison_lookedAt]
  cases hr : record.request with
  | some r => rfl
  | none =>
    have hbecame : record.became u = none := by
      unfold became
      rw [hr]
      rfl
    rw [comparisonOf_eq, hbecame, Option.bind_none, Option.or_none]

/-- A lookup in flight is of the flow of the id. -/
def Lookup.On (id : String) : Lookup → Prop
  | begins k | missed k => k = id
  | found record => record.upstreamFlowId = some id
  | adopting k _ => k = id

/-- Finding a flow goes on with the flow of the id; it sweeps and registers only
where it answers, and then under the id. -/
theorem LookupNext.on {s t : FlowState} {l : Lookup} {res : Lookup ⊕ Except MachineError Handles}
    {id : String} (hu : s.upstream.Coherent) (hl : l.On id) (h : LookupNext s l t res) :
    (∀ l', res = .inl l' → l'.On id ∧ t = s) ∧ (∀ e, res = .inr (.error e) → t = s) ∧
      (∀ f, s.flows.Has f → f ∉ l.swept s → t.flows.Has f) ∧
        ∀ f, t.flows.Has f → s.flows.Has f ∨ f = id := by
  cases h with
  | @hit k record hget =>
    exact ⟨by simp, by simp, fun f hf _ => Registry.has_cached.mpr hf,
      fun f hf => Or.inl (Registry.has_cached.mp hf)⟩
  | miss hget =>
    refine ⟨fun l' hl' => ?_, by simp, fun f hf _ => hf, fun f hf => Or.inl hf⟩
    cases hl'
    exact ⟨hl, rfl⟩
  | @trip k tracked record ht hfind =>
    obtain rfl : k = id := hl
    refine ⟨fun l' hl' => ?_, by simp, fun f hf _ => hf, fun f hf => Or.inl hf⟩
    cases hl'
    refine ⟨?_, rfl⟩
    show record.upstreamFlowId = some k
    rcases findFlow_eq_some hfind with ⟨user, -, r, hr, rfl⟩ | ⟨user, -, c, hc, rfl⟩
    · exact congrArg some (hu.request user k r hr).1
    · exact congrArg some (hu.sas user k c hc).1
  | tripUnknown _ _ => exact ⟨by simp, by simp, fun f hf _ => hf, fun f hf => Or.inl hf⟩
  | tripFails => exact ⟨by simp, by simp, fun f hf _ => hf, fun f hf => Or.inl hf⟩
  | finished _ => exact ⟨by simp, by simp, fun f hf _ => hf, fun f hf => Or.inl hf⟩
  | @live record k _ hid =>
    refine ⟨fun l' hl' => ?_, by simp, fun f hf _ => hf, fun f hf => Or.inl hf⟩
    cases hl'
    refine ⟨?_, rfl⟩
    have hrecord : record.upstreamFlowId = some id := hl
    rw [FlowRecord.upstreamFlowId_lookedAt, hrecord] at hid
    exact (Option.some.inj hid).symm
  | @register k record =>
    obtain rfl : k = id := hl
    refine ⟨by simp, by simp, fun f hf hswept => ?_, fun f hf => ?_⟩
    · exact Registry.has_register.mpr (Or.inr (hf.releaseFinished hswept))
    · rcases Registry.has_register.mp hf with hf | hf
      · exact Or.inr hf
      · exact Or.inl (Registry.has_of_releaseFinished hf)

/-! ### The books -/

/-- The signal names a flow that arrived, or one that was started here. -/
def InviteState.Names (s : InviteState) (e : String × String) : Prop :=
  e ∈ s.arrived ∨ ∃ r ∈ s.started, r.flowId = e.1

/-- What a call has in hand is of a flow upstream took up. -/
def InviteCall.Sound (s : InviteState) : InviteCall → Prop
  | opened r => r ∈ s.opened
  | scanning left _ signals =>
    (∀ r ∈ left, r ∈ s.opened ∨ (r.flowId, r.otherUser) ∈ s.arrived) ∧ ∀ e ∈ signals, s.Names e
  | registering c left _ signals =>
    (∀ r ∈ left, r ∈ s.opened ∨ (r.flowId, r.otherUser) ∈ s.arrived) ∧
      (∀ e ∈ signals, s.Names e) ∧ ((c.flowId, c.user) ∈ s.arrived ∨
        c.record.request = none ∧ ∃ r ∈ s.started, r.flowId = c.flowId)
  | announcing signals => ∀ e ∈ signals, s.Names e
  | finding id l => l.On id
  | _ => True

/-- The books of one flow.  It is told at most once, and never if it was started here; while a pass
has it in hand, what was told of it or started here is registered; and while it is registered it was
told, is held by a caller or was started here. -/
structure Booked (f : String) (s : InviteState) (calls : List InviteCall) : Prop where
  ids : s.ids.count f ≤ 1
  upstream : s.flow.upstream.Invites s.opened s.started s.arrived
  started : ∀ r ∈ s.started, r ∈ s.opened
  named : ∀ e ∈ s.announced, s.Names e
  sound : ∀ call ∈ calls, call.Sound s
  once : told f s calls ≤ 1
  ours : ∀ r ∈ s.opened, r.flowId = f → told f s calls = 0
  kept : (∃ call ∈ calls, f ∈ call.inHand) →
    told f s calls ≠ 0 ∨ (∃ r ∈ s.started, r.flowId = f) → s.flow.flows.Has f
  accounted : s.flow.flows.Has f →
    told f s calls ≠ 0 ∨ f ∈ s.held ∨ ∃ r ∈ s.started, r.flowId = f

/-- The section takes up no flow: it drops the flow only out of nobody's hands, and what it
registers a caller holds or was started here. -/
structure InviteState.Keeps (f : String) (calls : List InviteCall) (s t : InviteState) : Prop where
  opened : t.opened = s.opened
  arrived : t.arrived = s.arrived
  upstream : t.flow.upstream = s.flow.upstream
  held : ∀ f ∈ s.held, f ∈ t.held
  started : ∀ r ∈ s.started, r ∈ t.started
  startsKept : ∀ r ∈ t.started, r ∈ s.started ∨ r ∈ s.opened ∧ t.flow.flows.Has r.flowId
  kept : (∃ call ∈ calls, f ∈ call.inHand) → s.flow.flows.Has f → t.flow.flows.Has f
  only : t.flow.flows.Has f → s.flow.flows.Has f ∨ f ∈ t.held ∨ ∃ r ∈ t.started, r.flowId = f

section books

variable {f : String} {s t : InviteState} {calls calls' before after : List InviteCall}
  {l : InviteCall}

theorem InviteState.Names.mono {e : String × String} (h : s.Names e)
    (harrived : ∀ e ∈ s.arrived, e ∈ t.arrived) (hstarted : ∀ r ∈ s.started, r ∈ t.started) :
    t.Names e := by
  rcases h with h | ⟨r, hr, heq⟩
  · exact Or.inl (harrived e h)
  · exact Or.inr ⟨r, hstarted r hr, heq⟩

theorem InviteCall.Sound.mono (h : l.Sound s) (hopened : ∀ r ∈ s.opened, r ∈ t.opened)
    (harrived : ∀ e ∈ s.arrived, e ∈ t.arrived) (hstarted : ∀ r ∈ s.started, r ∈ t.started) :
    l.Sound t := by
  have hleft : ∀ left : List VerificationRequest,
      (∀ r ∈ left, r ∈ s.opened ∨ (r.flowId, r.otherUser) ∈ s.arrived) →
        ∀ r ∈ left, r ∈ t.opened ∨ (r.flowId, r.otherUser) ∈ t.arrived :=
    fun left hleft r hr => (hleft r hr).imp (hopened r) (harrived _)
  have hnames : ∀ signals : List (String × String), (∀ e ∈ signals, s.Names e) →
      ∀ e ∈ signals, t.Names e :=
    fun signals hnames e he => (hnames e he).mono harrived hstarted
  cases l with
  | opened r => exact hopened r h
  | scanning left starts signals => exact ⟨hleft left h.1, hnames signals h.2⟩
  | registering c left starts signals =>
    obtain ⟨h₁, h₂, h₃⟩ := h
    refine ⟨hleft left h₁, hnames signals h₂, ?_⟩
    rcases h₃ with h₃ | ⟨hnone, r, hr, heq⟩
    · exact Or.inl (harrived _ h₃)
    · exact Or.inr ⟨hnone, r, hstarted r hr, heq⟩
  | announcing signals => exact hnames signals h
  | finding id l => exact h
  | _ => trivial

theorem told_split (f : String) (s : InviteState) (before after mid : List InviteCall) :
    told f s (before ++ (mid ++ after)) =
      told f s (before ++ after) + ((mid.flatMap InviteCall.signals).map Prod.fst).count f := by
  unfold told
  simp only [List.flatMap_append, List.map_append, List.count_append]
  omega

/-- What the call has to deliver counts among what is told. -/
theorem told_section (f : String) :
    told f s (before ++ l :: after) =
      told f s (before ++ after) + (l.signals.map Prod.fst).count f := by
  rw [show before ++ l :: after = before ++ ([l] ++ after) from rfl, told_split]
  simp

theorem InviteCall.mem_inHand (h : f ∈ l.signals.map Prod.fst) : f ∈ l.inHand := by
  cases l with
  | registering c left starts signals => exact List.mem_cons_of_mem _ h
  | _ => exact h

theorem InviteState.Keeps.refl (s : InviteState) : s.Keeps f calls s :=
  ⟨rfl, rfl, rfl, fun _ h => h, fun _ h => h, fun _ h => Or.inl h, fun _ h => h, Or.inl⟩

/-- A section that only walks the registry. -/
theorem InviteState.Keeps.walk {flows : Registry} (h : flows.Has f ↔ s.flow.flows.Has f) :
    s.Keeps f calls { s with flow := { s.flow with flows := flows } } :=
  ⟨rfl, rfl, rfl, fun _ h => h, fun _ h => h, fun _ h => Or.inl h, fun _ => h.mpr,
    fun hf => Or.inl (h.mp hf)⟩

/-- **A section that takes up no flow keeps the books**, if as much is told after it and no more
is in hand. -/
theorem Booked.keeps (h : Booked f s calls) (hk : s.Keeps f calls t)
    (hnamed : ∀ e ∈ t.announced, t.Names e) (hsound : ∀ call ∈ calls', call.Sound t)
    (hhand : (∃ call ∈ calls', f ∈ call.inHand) → ∃ call ∈ calls, f ∈ call.inHand)
    (htold : told f t calls' = told f s calls) : Booked f t calls' := by
  refine ⟨?_, ?_, ?_, hnamed, hsound, htold ▸ h.once, ?_, ?_, ?_⟩
  · unfold InviteState.ids
    rw [hk.opened, hk.arrived]
    exact h.ids
  · rw [hk.upstream, hk.opened, hk.arrived]
    refine ⟨h.upstream.coherent, h.upstream.requests, fun user id c hc => ?_, h.upstream.ours⟩
    rcases h.upstream.comparisons user id c hc with harrived | ⟨r, hr, heq⟩
    · exact Or.inl harrived
    · exact Or.inr ⟨r, hk.started r hr, heq⟩
  · intro r hr
    rw [hk.opened]
    rcases hk.startsKept r hr with hr | ⟨hr, -⟩
    · exact h.started r hr
    · exact hr
  · intro r hr heq
    rw [hk.opened] at hr
    rw [htold]
    exact h.ours r hr heq
  · intro hin htells
    have hin := hhand hin
    rw [htold] at htells
    rcases htells with htells | ⟨r, hr, heq⟩
    · exact hk.kept hin (h.kept hin (Or.inl htells))
    · rcases hk.startsKept r hr with hr | ⟨-, hhas⟩
      · exact hk.kept hin (h.kept hin (Or.inr ⟨r, hr, heq⟩))
      · exact heq ▸ hhas
  · intro hhas
    rw [htold]
    rcases hk.only hhas with hhas | hhas | hhas
    · rcases h.accounted hhas with htells | hheld | ⟨r, hr, heq⟩
      · exact Or.inl htells
      · exact Or.inr (Or.inl (hk.held f hheld))
      · exact Or.inr (Or.inr ⟨r, hk.started r hr, heq⟩)
    · exact Or.inr (Or.inl hhas)
    · exact Or.inr (Or.inr hhas)

/-- A flow that was started here did not arrive. -/
theorem Booked.not_arrived (h : Booked f s calls) {r : VerificationRequest} (hr : r ∈ s.opened)
    (hid : r.flowId = f) {e : String × String} (he : e ∈ s.arrived) : e.1 ≠ f := by
  intro heq
  have hopened := List.count_pos_iff.mpr (hid ▸ List.mem_map_of_mem hr :
    f ∈ s.opened.map VerificationRequest.flowId)
  have harrived := List.count_pos_iff.mpr (heq ▸ List.mem_map_of_mem he :
    f ∈ s.arrived.map Prod.fst)
  have hids := h.ids
  unfold InviteState.ids at hids
  rw [List.count_append] at hids
  omega

/-- Of two flows that arrived under the id, each is the other. -/
theorem Booked.arrived_unique (h : Booked f s calls) {e e' : String × String} (he : e ∈ s.arrived)
    (he' : e' ∈ s.arrived) (hid : e.1 = f) (hid' : e'.1 = f) : e = e' := by
  have hids := h.ids
  unfold InviteState.ids at hids
  rw [List.count_append] at hids
  obtain ⟨before, after, hsplit⟩ := List.append_of_mem he
  rw [hsplit, List.mem_append, List.mem_cons] at he'
  rw [hsplit, List.map_append, List.map_cons, List.count_append, hid, List.count_cons_self] at hids
  rcases he' with he' | rfl | he'
  · have hpos := List.count_pos_iff.mpr (hid' ▸ List.mem_map_of_mem he' :
      f ∈ before.map Prod.fst)
    omega
  · rfl
  · have hpos := List.count_pos_iff.mpr (hid' ▸ List.mem_map_of_mem he' :
      f ∈ after.map Prod.fst)
    omega

/-- What a call has to deliver names a flow upstream took up. -/
theorem Booked.names_of_signals (h : Booked f s calls) (hl : l ∈ calls) {e : String × String}
    (he : e ∈ l.signals) : s.Names e := by
  have hsound := h.sound l hl
  cases l with
  | scanning left starts signals => exact hsound.2 e he
  | registering c left starts signals => exact hsound.2.1 e he
  | announcing signals => exact hsound e he
  | _ => cases he

/-- What is told of a flow was announced or is to be delivered. -/
theorem exists_of_told (hf : told f s calls ≠ 0) :
    (∃ e ∈ s.announced, e.1 = f) ∨ ∃ call ∈ calls, ∃ e ∈ call.signals, e.1 = f := by
  by_cases hann : (s.announced.map Prod.fst).count f = 0
  · have hsig : f ∈ (calls.flatMap InviteCall.signals).map Prod.fst := by
      rw [← List.count_pos_iff]
      unfold told at hf
      omega
    obtain ⟨e, he, heq⟩ := List.mem_map.mp hsig
    obtain ⟨call, hcall, he⟩ := List.mem_flatMap.mp he
    exact Or.inr ⟨call, hcall, e, he, heq⟩
  · obtain ⟨e, he, heq⟩ := List.mem_map.mp (List.count_pos_iff.mp (Nat.pos_of_ne_zero hann))
    exact Or.inl ⟨e, he, heq⟩

/-- What is told names a flow upstream took up. -/
theorem Booked.mem_ids_of_told (h : Booked f s calls) (hf : told f s calls ≠ 0) : f ∈ s.ids := by
  have hnames : ∃ e, s.Names e ∧ e.1 = f := by
    rcases exists_of_told hf with ⟨e, he, heq⟩ | ⟨call, hcall, e, he, heq⟩
    · exact ⟨e, h.named e he, heq⟩
    · exact ⟨e, h.names_of_signals hcall he, heq⟩
  obtain ⟨e, hname, rfl⟩ := hnames
  unfold InviteState.ids
  rcases hname with he | ⟨r, hr, heq⟩
  · exact List.mem_append_right _ (List.mem_map_of_mem he)
  · exact List.mem_append_left _ (heq ▸ List.mem_map_of_mem (h.started r hr))

/-- A comparison that a pass finds begun is of a flow that arrived, or of one that was
started here. -/
theorem Upstream.Invites.bareStart {u : Upstream} {opened started : List VerificationRequest}
    {arrived : List (String × String)} (h : u.Invites opened started arrived)
    {start : String × String} {c : Candidate} (hc : bareStart u start = some c) :
    (c.flowId, c.user) ∈ arrived ∨
      c.record.request = none ∧ ∃ r ∈ started, r.flowId = c.flowId := by
  obtain ⟨c', hv, rfl⟩ := bareStart_eq_some hc
  obtain ⟨hid, huser⟩ := h.coherent.sas _ _ _ hv
  show (c'.flowId, c'.otherUserId) ∈ arrived ∨ _ ∧ ∃ r ∈ started, r.flowId = c'.flowId
  rw [hid, huser]
  exact (h.comparisons _ _ _ hv).imp id fun hr => ⟨rfl, hr⟩

/-! ### One section -/

/-- The calls in flight are sound after a section that leaves a sound one. -/
theorem Booked.sound_cons {l' : InviteCall} (h : Booked f s (before ++ l :: after))
    (hopened : ∀ r ∈ s.opened, r ∈ t.opened) (harrived : ∀ e ∈ s.arrived, e ∈ t.arrived)
    (hstarted : ∀ r ∈ s.started, r ∈ t.started) (hl' : l'.Sound t) :
    ∀ call ∈ before ++ (l' :: after), call.Sound t := by
  intro call hcall
  rcases List.mem_append.mp hcall with hcall | hcall
  · exact (h.sound call (by simp [hcall])).mono hopened harrived hstarted
  · rcases List.mem_cons.mp hcall with rfl | hcall
    · exact hl'
    · exact (h.sound call (by simp [hcall])).mono hopened harrived hstarted

/-- The same, of a section after which the call may be over. -/
theorem Booked.sound_remaining {res : InviteCall ⊕ Except MachineError Unit}
    (h : Booked f s (before ++ l :: after)) (hk : s.Keeps f calls t)
    (hres : ∀ l', res = .inl l' → l'.Sound t) :
    ∀ call ∈ before ++ (remaining res ++ after), call.Sound t := by
  have hopened : ∀ r ∈ s.opened, r ∈ t.opened := fun r hr => hk.opened ▸ hr
  have harrived : ∀ e ∈ s.arrived, e ∈ t.arrived := fun e he => hk.arrived ▸ he
  cases res with
  | inl l' => exact h.sound_cons hopened harrived hk.started (hres l' rfl)
  | inr out =>
    intro call hcall
    refine (h.sound call ?_).mono hopened harrived hk.started
    rcases List.mem_append.mp hcall with hcall | hcall
    · simp [hcall]
    · have hcall : call ∈ after := hcall
      simp [hcall]

/-- What is in hand after a section was in hand, if the call that goes on has no more. -/
theorem exists_inHand {l' : InviteCall} (hl : f ∈ l'.inHand → f ∈ l.inHand)
    (h : ∃ call ∈ before ++ (l' :: after), f ∈ call.inHand) :
    ∃ call ∈ before ++ l :: after, f ∈ call.inHand := by
  obtain ⟨call, hcall, hin⟩ := h
  rcases List.mem_append.mp hcall with hcall | hcall
  · exact ⟨call, by simp [hcall], hin⟩
  · rcases List.mem_cons.mp hcall with rfl | hcall
    · exact ⟨l, by simp, hl hin⟩
    · exact ⟨call, by simp [hcall], hin⟩

/-- A section of a call that is to deliver the same after it. -/
theorem Booked.goesOn {res : InviteCall ⊕ Except MachineError Unit}
    (h : Booked f s (before ++ l :: after)) (hk : s.Keeps f (before ++ l :: after) t)
    (hannounced : t.announced = s.announced)
    (hres : ∀ l', res = .inl l' → l'.Sound t ∧ (f ∈ l'.inHand → f ∈ l.inHand))
    (hsignals : (remaining res).flatMap InviteCall.signals = l.signals) :
    Booked f t (before ++ (remaining res ++ after)) := by
  refine h.keeps hk (fun e he => ?_) (h.sound_remaining hk fun l' hl' => (hres l' hl').1) ?_ ?_
  · exact (h.named e (hannounced ▸ he)).mono (fun e he => hk.arrived ▸ he) hk.started
  · cases res with
    | inl l' => exact exists_inHand (hres l' rfl).2
    | inr out =>
      rintro ⟨call, hcall, hin⟩
      refine ⟨call, ?_, hin⟩
      rcases List.mem_append.mp hcall with hcall | hcall
      · simp [hcall]
      · have hcall : call ∈ after := hcall
        simp [hcall]
  · rw [told_split, told_section, hsignals]
    unfold told
    rw [hannounced]

/-- A pass finds a flow open: it has it in hand from here. -/
theorem Booked.finds {c : Candidate} {left left' : List VerificationRequest}
    {starts starts' signals : List (String × String)}
    (h : Booked f s (before ++ .scanning left starts signals :: after))
    (hsound : (InviteCall.registering c left' starts' signals).Sound s)
    (hfinds : c.flowId = f → f ∈ s.announced.map Prod.fst ∨
      (∃ r ∈ s.started, r.flowId = f) → s.flow.flows.Has f) :
    Booked f s (before ++ (.registering c left' starts' signals :: after)) := by
  have htold : told f s (before ++ .registering c left' starts' signals :: after) =
      told f s (before ++ .scanning left starts signals :: after) := by
    rw [told_section, told_section]
    rfl
  refine ⟨h.ids, h.upstream, h.started, h.named, ?_, htold ▸ h.once, ?_, ?_, ?_⟩
  · exact h.sound_cons (fun _ h => h) (fun _ h => h) (fun _ h => h) hsound
  · intro r hr heq
    rw [htold]
    exact h.ours r hr heq
  · intro hin htells
    rw [htold] at htells
    by_cases hid : c.flowId = f
    · rcases htells with htells | hours
      · rcases exists_of_told htells with ⟨e, he, rfl⟩ | ⟨call, hcall, e, he, rfl⟩
        · exact hfinds hid (Or.inl (List.mem_map_of_mem he))
        · exact h.kept ⟨call, hcall, call.mem_inHand (List.mem_map_of_mem he)⟩ (Or.inl htells)
      · exact hfinds hid (Or.inr hours)
    · refine h.kept (exists_inHand (fun hmem => ?_) hin) htells
      rcases List.mem_cons.mp hmem with heq | hmem
      · exact absurd heq.symm hid
      · exact hmem
  · intro hhas
    rw [htold]
    exact h.accounted hhas

/-- A sweep, on the whole state. -/
def InviteState.sweeps (s : InviteState) : InviteState :=
  { s with
    flow := { s.flow with flows := s.flow.flows.releaseFinished s.flow.upstream s.flow.observed } }

/-- A sweep, and a registration after it. -/
def InviteState.adds (s : InviteState) (c : Candidate) : InviteState :=
  { s.sweeps with
    flow := { s.sweeps.flow with flows := s.sweeps.flow.flows.insert c.flowId c.record } }

theorem InviteState.registerIfAbsent_of_has {c : Candidate} (h : s.sweeps.flow.flows.Has c.flowId) :
    s.registerIfAbsent c = (false, s.sweeps) := by
  obtain ⟨held, hget⟩ := h
  unfold registerIfAbsent
  rw [Registry.registerIfAbsent_of_some hget]
  rfl

theorem InviteState.registerIfAbsent_of_not_has {c : Candidate}
    (h : ¬ s.sweeps.flow.flows.Has c.flowId) : s.registerIfAbsent c = (true, s.adds c) := by
  have hget : (s.flow.flows.releaseFinished s.flow.upstream s.flow.observed).get? c.flowId =
      none := Option.eq_none_iff_forall_ne_some.mpr fun record hrecord => h ⟨record, hrecord⟩
  unfold registerIfAbsent
  rw [Registry.registerIfAbsent_of_none hget]
  rfl

/-- A sweep drops nothing out of a pass's hands. -/
theorem InviteState.keeps_sweeps
    (h : f ∈ s.flow.flows.swept s.flow.upstream s.flow.observed → ∀ call ∈ calls, f ∉ call.inHand) :
    s.Keeps f calls s.sweeps := by
  refine ⟨rfl, rfl, rfl, fun _ h => h, fun _ h => h, fun _ h => Or.inl h, ?_,
    fun hf => Or.inl (Registry.has_of_releaseFinished hf)⟩
  rintro ⟨call, hcall, hin⟩ hhas
  exact hhas.releaseFinished fun hswept => h hswept call hcall hin

/-- What a pass registers it is to deliver: that flow is told once more. -/
theorem told_adds (c : Candidate) (left : List VerificationRequest)
    (starts signals : List (String × String)) (f : String) :
    told f (s.adds c)
        (before ++ (.scanning left starts (signals ++ [(c.flowId, c.user)]) :: after)) =
      told f s (before ++ .registering c left starts signals :: after) + [c.flowId].count f := by
  rw [told_section, told_section]
  show told f s (before ++ after) +
    ((signals ++ [(c.flowId, c.user)]).map Prod.fst).count f = _
  rw [List.map_append, List.count_append, ← Nat.add_assoc]
  rfl

/-- Registering what a pass found and the registry does not hold. -/
theorem Booked.adds {c : Candidate} {left : List VerificationRequest}
    {starts signals : List (String × String)}
    (h : Booked f s (before ++ .registering c left starts signals :: after))
    (hk : s.Keeps f (before ++ .registering c left starts signals :: after) s.sweeps)
    (hhas : ¬ s.sweeps.flow.flows.Has c.flowId) : Booked f (s.adds c)
      (before ++ (.scanning left starts (signals ++ [(c.flowId, c.user)]) :: after)) := by
  obtain ⟨hleft, hsignals, hc⟩ := h.sound (.registering c left starts signals) (by simp)
  -- the pass has it in hand, so what was told or started here would be registered still
  have hnew : c.flowId = f →
      told f s (before ++ .registering c left starts signals :: after) = 0 ∧
        ∀ r ∈ s.started, r.flowId ≠ f := by
    rintro rfl
    have hin : ∃ call ∈ before ++ .registering c left starts signals :: after,
        c.flowId ∈ call.inHand :=
      ⟨.registering c left starts signals, by simp, List.mem_cons_self ..⟩
    have hnone := fun htells => hhas (hk.kept hin (h.kept hin htells))
    exact ⟨by_contra fun htells => hnone (Or.inl htells),
      fun r hr heq => hnone (Or.inr ⟨r, hr, heq⟩)⟩
  have hcount : c.flowId ≠ f → [c.flowId].count f = 0 :=
    fun hne => List.count_eq_zero_of_not_mem (by simpa using hne.symm)
  refine ⟨h.ids, h.upstream, h.started, h.named, ?_, ?_, fun r hr hid => ?_, fun hin htells => ?_,
    fun hf => ?_⟩
  · refine h.sound_cons (fun _ h => h) (fun _ h => h) (fun _ h => h) ⟨hleft, fun e he => ?_⟩
    rcases List.mem_append.mp he with he | he
    · exact hsignals e he
    · rw [List.mem_singleton] at he
      exact he ▸ hc.imp id And.right
  · rw [told_adds]
    by_cases heq : c.flowId = f
    · rw [(hnew heq).1, heq, List.count_singleton_self]
    · rw [hcount heq]
      exact h.once
  · have hne : c.flowId ≠ f := by
      intro heq
      rcases hc with hc | ⟨-, r', hr', heq'⟩
      · exact h.not_arrived hr hid hc heq
      · exact (hnew heq).2 r' hr' (heq'.trans heq)
    rw [told_adds, hcount hne]
    exact h.ours r hr hid
  · refine Registry.has_insert.mpr ?_
    by_cases heq : c.flowId = f
    · exact Or.inl heq.symm
    · rw [told_adds, hcount heq, Nat.add_zero] at htells
      have hold : ∃ call ∈ before ++ .registering c left starts signals :: after,
          f ∈ call.inHand := by
        refine exists_inHand (fun hmem => ?_) hin
        have hmem : f ∈ (signals ++ [(c.flowId, c.user)]).map Prod.fst := hmem
        rw [List.map_append, List.mem_append] at hmem
        rcases hmem with hmem | hmem
        · exact List.mem_cons_of_mem _ hmem
        · exact absurd (List.mem_singleton.mp hmem).symm heq
      exact Or.inr (hk.kept hold (h.kept hold htells))
  · rw [told_adds]
    rcases Registry.has_insert.mp hf with rfl | hf
    · exact Or.inl (by simp)
    · rcases h.accounted (Registry.has_of_releaseFinished hf) with htells | hheld
      · exact Or.inl (by omega)
      · exact Or.inr hheld

/-- **What a pass found is registered and to be delivered, or was registered.** -/
theorem Booked.registersNew {c : Candidate} {left : List VerificationRequest}
    {starts signals : List (String × String)}
    (h : Booked f s (before ++ .registering c left starts signals :: after))
    (hk : s.Keeps f (before ++ .registering c left starts signals :: after) s.sweeps) :
    Booked f (s.registerIfAbsent c).2 (before ++ (.scanning left starts
      (if (s.registerIfAbsent c).1 then signals ++ [(c.flowId, c.user)] else signals) ::
        after)) := by
  by_cases hhas : s.sweeps.flow.flows.Has c.flowId
  · obtain ⟨hleft, hsignals, -⟩ := h.sound (.registering c left starts signals) (by simp)
    rw [InviteState.registerIfAbsent_of_has hhas]
    show Booked f _ (before ++ (remaining (.inl (.scanning left starts signals) :
      InviteCall ⊕ Except MachineError Unit) ++ after))
    refine h.goesOn hk rfl ?_ (by simp [InviteCall.signals])
    rintro l' ⟨⟩
    exact ⟨⟨hleft, hsignals⟩, List.mem_cons_of_mem _⟩
  · rw [InviteState.registerIfAbsent_of_not_has hhas]
    exact h.adds hk hhas

/-- A signal that reaches nobody is no longer to be delivered, and its flow is no
longer registered. -/
theorem Booked.forgets {signal : String × String} {signals : List (String × String)}
    (h : Booked f s (before ++ .announcing (signal :: signals) :: after)) :
    Booked f { s with flow := { s.flow with flows := s.flow.flows.forgetFlow signal.1 } }
      (before ++ (.announcing signals :: after)) := by
  have htold : told f s (before ++ .announcing (signal :: signals) :: after) =
      told f { s with flow := { s.flow with flows := s.flow.flows.forgetFlow signal.1 } }
        (before ++ (.announcing signals :: after)) + [signal.1].count f := by
    rw [told_section, told_section]
    show told f s (before ++ after) + ((signal :: signals).map Prod.fst).count f =
      told f s (before ++ after) + (signals.map Prod.fst).count f + _
    rw [List.map_cons, List.count_cons, List.count_singleton]
    omega
  have hcount : signal.1 ≠ f → [signal.1].count f = 0 :=
    fun hne => List.count_eq_zero_of_not_mem (by simpa using hne.symm)
  have honce := h.once
  -- the flow forgotten is told no more: it was to be told once
  have hforgot : signal.1 = f →
      told f { s with flow := { s.flow with flows := s.flow.flows.forgetFlow signal.1 } }
        (before ++ (.announcing signals :: after)) = 0 ∧ ∀ r ∈ s.started, r.flowId ≠ f := by
    intro heq
    rw [heq, List.count_singleton_self] at htold
    refine ⟨by rw [heq]; omega, fun r hr hid => ?_⟩
    have hours := h.ours r (h.started r hr) hid
    omega
  refine ⟨h.ids, h.upstream, h.started, h.named, ?_, by omega, fun r hr hid => ?_,
    fun hin htells => ?_, fun hf => ?_⟩
  · refine h.sound_cons (fun _ h => h) (fun _ h => h) (fun _ h => h) fun e he => ?_
    exact h.sound (.announcing (signal :: signals)) (by simp) e (List.mem_cons_of_mem _ he)
  · have hours := h.ours r hr hid
    omega
  · have hne : f ≠ signal.1 := by
      intro heq
      obtain ⟨hnone, hours⟩ := hforgot heq.symm
      rcases htells with htells | ⟨r, hr, hid⟩
      · exact htells hnone
      · exact hours r hr hid
    rw [hcount hne.symm, Nat.add_zero] at htold
    refine Registry.has_forgetFlow.mpr ⟨hne, h.kept (exists_inHand (fun hmem => ?_) hin) ?_⟩
    · exact List.mem_cons_of_mem _ hmem
    · rw [htold]
      exact htells
  · obtain ⟨hne, hhas⟩ := Registry.has_forgetFlow.mp hf
    rw [hcount hne.symm, Nat.add_zero] at htold
    rw [← htold]
    exact h.accounted hhas

/-- A request that upstream builds is under an id of its own, so nothing is told of it. -/
theorem Booked.opens {user : String} {request : VerificationRequest} {u : Upstream}
    (h : Booked f s (before ++ .opening user :: after))
    (hu : u.Invites (s.opened ++ [request]) s.started s.arrived)
    (hids : (s.ids ++ [request.flowId]).count f ≤ 1) :
    Booked f { s with flow := { s.flow with upstream := u }, opened := s.opened ++ [request] }
      (before ++ (.opened request :: after)) := by
  have htold : told f { s with
      flow := { s.flow with upstream := u }, opened := s.opened ++ [request] }
      (before ++ (.opened request :: after)) = told f s (before ++ .opening user :: after) := by
    rw [told_section, told_section]
    rfl
  have hopened : ∀ r ∈ s.opened, r ∈ s.opened ++ [request] :=
    fun r hr => List.mem_append_left _ hr
  refine ⟨?_, hu, fun r hr => hopened r (h.started r hr), h.named, ?_, htold ▸ h.once,
    fun r hr hid => ?_, fun hin htells => ?_, fun hf => ?_⟩
  · unfold InviteState.ids at hids ⊢
    simp only [List.map_append, List.map_cons, List.map_nil, List.count_append] at hids ⊢
    omega
  · exact h.sound_cons hopened (fun _ h => h) (fun _ h => h)
      (List.mem_append_right _ (List.mem_singleton_self _))
  · rw [htold]
    rcases List.mem_append.mp hr with hr | hr
    · exact h.ours r hr hid
    · -- nothing was told of an id upstream had not taken up
      rw [List.mem_singleton] at hr
      subst hr
      by_contra htells
      have hpos := List.count_pos_iff.mpr (h.mem_ids_of_told htells)
      rw [List.count_append, hid, List.count_singleton_self] at hids
      omega
  · rw [htold] at htells
    refine h.kept (exists_inHand ?_ hin) htells
    exact fun hmem => hmem
  · rw [htold]
    exact h.accounted hf

/-- A request upstream built is registered by the call that opened it. -/
theorem Booked.registers {request : VerificationRequest}
    (h : Booked f s (before ++ .opened request :: after))
    (hk : s.Keeps f (before ++ .opened request :: after) s.sweeps) :
    Booked f { s with
      flow := { s.flow with flows := (s.flow.flows.register s.flow.upstream s.flow.observed
        request.flowId (.fromRequest request)).2 }
      started := s.started ++ [request] }
      (before ++ after) := by
  have hl : request ∈ s.opened := h.sound (.opened request) (by simp)
  show Booked f _ (before ++ (remaining (.inr (.ok ()) : InviteCall ⊕ Except MachineError Unit) ++
    after))
  refine h.goesOn ⟨rfl, rfl, rfl, fun _ h => h, fun r hr => List.mem_append_left _ hr,
    fun r hr => ?_, fun hin hf => ?_, fun hf => ?_⟩ rfl (by simp) rfl
  · rcases List.mem_append.mp hr with hr | hr
    · exact Or.inl hr
    · rw [List.mem_singleton] at hr
      subst hr
      exact Or.inr ⟨hl, Registry.has_register.mpr (Or.inl rfl)⟩
  · exact Registry.has_register.mpr (Or.inr (hk.kept hin hf))
  · rcases Registry.has_register.mp hf with hid | hf
    · exact Or.inr (Or.inr ⟨request, List.mem_append_right _ (List.mem_singleton_self _), hid.symm⟩)
    · exact Or.inl (Registry.has_of_releaseFinished hf)

/-- A signal that is delivered is told, and no longer to be delivered. -/
theorem Booked.delivers {signal : String × String} {signals : List (String × String)}
    (h : Booked f s (before ++ .announcing (signal :: signals) :: after)) :
    Booked f { s with announced := s.announced ++ [signal] }
      (before ++ (.announcing signals :: after)) := by
  have hnames : ∀ e ∈ signal :: signals, s.Names e := h.sound (.announcing _) (by simp)
  have hk : s.Keeps f (before ++ .announcing (signal :: signals) :: after)
      { s with announced := s.announced ++ [signal] } :=
    ⟨rfl, rfl, rfl, fun _ h => h, fun _ h => h, fun _ h => Or.inl h, fun _ h => h, Or.inl⟩
  refine h.keeps hk (fun e he => ?_) ?_ (exists_inHand fun hmem => List.mem_cons_of_mem _ hmem) ?_
  · rcases List.mem_append.mp he with he | he
    · exact h.named e he
    · rw [List.mem_singleton] at he
      exact he ▸ hnames signal (List.mem_cons_self ..)
  · exact h.sound_cons (fun _ h => h) (fun _ h => h) (fun _ h => h) fun e he =>
      hnames e (List.mem_cons_of_mem _ he)
  · show told f _ (before ++ .announcing signals :: after) = _
    rw [told_section, told_section]
    unfold told
    show ((s.announced ++ [signal]).map Prod.fst).count f + _ + (signals.map Prod.fst).count f =
      _ + ((signal :: signals).map Prod.fst).count f
    rw [List.map_append, List.count_append, List.map_cons, List.map_cons, List.count_cons,
      List.count_cons, List.map_nil, List.count_nil]
    omega

/-- **One section keeps the books of a flow**, if it leaves the flow to its pass. -/
theorem Booked.section {res : InviteCall ⊕ Except MachineError Unit}
    (h : Booked f s (before ++ l :: after))
    (hclear : Untroubled f ⟨s, before ++ l :: after⟩ (.section l res))
    (hnext : InviteNext s l t res) : Booked f t (before ++ (remaining res ++ after)) := by
  have hl : l.Sound s := h.sound l (by simp)
  have hwalk : ∀ {flows : Registry}, (flows.Has f ↔ s.flow.flows.Has f) →
      s.Keeps f (before ++ l :: after) { s with flow := { s.flow with flows := flows } } :=
    InviteState.Keeps.walk
  have hsweeps := hclear.sweeps l res rfl
  cases hnext with
  | refused => exact h.goesOn (.refl s) rfl (by simp) rfl
  | @opens user request u hr hu => exact h.opens hu hclear.unshared
  | registers => exact h.registers (InviteState.keeps_sweeps hsweeps)
  | queries =>
    refine h.goesOn (hwalk (Registry.has_mapValues _)) rfl ?_ rfl
    rintro l' ⟨⟩
    exact ⟨trivial, id⟩
  | silent _ => exact h.goesOn (.refl s) rfl (by simp) rfl
  | enters _ => exact h.goesOn (.refl s) rfl (by rintro l' ⟨⟩; exact ⟨trivial, id⟩) rfl
  | takes =>
    refine h.goesOn (hwalk (Registry.has_mapValues _)) rfl ?_ rfl
    rintro l' ⟨⟩
    exact ⟨trivial, id⟩
  | gone => exact h.goesOn (.refl s) rfl (by simp) rfl
  | lists ht =>
    refine h.goesOn (.refl s) rfl ?_ rfl
    rintro l' ⟨⟩
    refine ⟨⟨fun r hr => ?_, by simp⟩, id⟩
    obtain ⟨user, -, hr⟩ := List.mem_flatMap.mp hr
    exact h.upstream.requests user r hr
  | listsNone =>
    refine h.goesOn (.refl s) rfl ?_ rfl
    rintro l' ⟨⟩
    exact ⟨⟨by simp, by simp⟩, id⟩
  | @sees r left starts signals d hstate =>
    -- a request that is seen was not opened here, so it arrived
    have harrived : (r.flowId, r.otherUser) ∈ s.arrived := by
      rcases hl.1 r (List.mem_cons_self ..) with hr | hr
      · exact absurd hstate (h.upstream.ours r hr d)
      · exact hr
    have hcomes : s.flow.upstream.comesTo (r :: left) starts = some (r.candidate d) := by
      simp only [Upstream.comesTo, hstate]
    exact h.finds ⟨fun r' hr' => hl.1 r' (List.mem_cons_of_mem _ hr'), hl.2, Or.inl harrived⟩
      (hclear.finds _ _ _ _ _ rfl hcomes)
  | @passes r left starts signals hstate =>
    refine h.goesOn (.refl s) rfl ?_ (by simp [InviteCall.signals])
    rintro l' ⟨⟩
    exact ⟨⟨fun r' hr' => hl.1 r' (List.mem_cons_of_mem _ hr'), hl.2⟩, id⟩
  | @begun start starts signals c hc =>
    exact h.finds ⟨by simp, hl.2, h.upstream.bareStart hc⟩ (hclear.finds _ _ _ _ _ rfl hc)
  | notBegun _ =>
    refine h.goesOn (.refl s) rfl ?_ (by simp [InviteCall.signals])
    rintro l' ⟨⟩
    exact ⟨hl, id⟩
  | registersNew => exact h.registersNew (InviteState.keeps_sweeps hsweeps)
  | scanned =>
    refine h.goesOn (.refl s) rfl ?_ (by simp [InviteCall.signals])
    rintro l' ⟨⟩
    exact ⟨hl.2, id⟩
  | delivers _ => exact h.delivers
  | forgets _ => exact h.forgets
  | delivered => exact h.goesOn (.refl s) rfl (by simp) rfl
  | finds hfind =>
    obtain ⟨hgoes, -⟩ := hfind.on h.upstream.coherent hl
    obtain ⟨hon, rfl⟩ := hgoes _ rfl
    refine h.goesOn (.refl s) rfl ?_ rfl
    rintro l' ⟨⟩
    exact ⟨hon, id⟩
  | findsNone hfind =>
    obtain ⟨-, hfails, -⟩ := hfind.on h.upstream.coherent hl
    obtain rfl := hfails _ rfl
    exact h.goesOn (.refl s) rfl (by simp) rfl
  | @found flowId l flow handles hfind =>
    -- a caller holds the flow from here, whether the lookup hit or adopted it
    obtain ⟨-, -, hkept, honly⟩ := hfind.on h.upstream.coherent hl
    have hframe := hfind.frame
    refine h.goesOn ⟨rfl, rfl, by rw [hframe], fun f hf => List.mem_append_left _ hf,
      fun _ h => h, fun _ h => Or.inl h, ?_, fun hf => ?_⟩ rfl
      (by rintro l' ⟨⟩; exact ⟨trivial, id⟩) rfl
    · rintro ⟨call, hcall, hin⟩ hf
      exact hkept f hf fun hswept => hsweeps hswept call hcall hin
    · rcases honly f hf with hf | rfl
      · exact Or.inl hf
      · exact Or.inr (Or.inl (List.mem_append_right _ (List.mem_singleton_self _)))
  | acts => exact h.goesOn (.refl s) rfl (by simp) rfl
  | becomes => exact h.goesOn (.refl s) rfl (by rintro l' ⟨⟩; exact ⟨trivial, id⟩) rfl
  | remembers => exact h.goesOn (hwalk Registry.has_remember) rfl (by simp) rfl

/-! ### Every run -/

/-- A call that begins is sound, and has nothing in hand. -/
theorem Booked.start (h : Booked f s calls) (hbegins : l.Begins) : Booked f s (calls ++ [l]) := by
  have hsound : l.Sound s := by
    cases l with
    | finding id l =>
      obtain rfl : l = .begins id := hbegins
      exact rfl
    | opening user => trivial
    | querying starts => trivial
    | _ => cases hbegins
  have hnone : l.signals = [] ∧ l.inHand = [] := by
    cases l with
    | scanning left starts signals => cases hbegins
    | registering c left starts signals => cases hbegins
    | announcing signals => cases hbegins
    | _ => exact ⟨rfl, rfl⟩
  refine h.keeps (.refl s) h.named (fun call hcall => ?_) ?_ ?_
  · rcases List.mem_append.mp hcall with hcall | hcall
    · exact h.sound call hcall
    · rw [List.mem_singleton] at hcall
      exact hcall ▸ hsound
  · rintro ⟨call, hcall, hin⟩
    rcases List.mem_append.mp hcall with hcall | hcall
    · exact ⟨call, hcall, hin⟩
    · rw [List.mem_singleton] at hcall
      rw [hcall, hnone.2] at hin
      cases hin
  · have hsplit : told f s (calls ++ l :: []) = told f s (calls ++ []) +
        (l.signals.map Prod.fst).count f := told_section f
    rw [hnone.1, List.append_nil] at hsplit
    exact hsplit

/-- Upstream takes up flows under ids of their own, or somebody subscribes. -/
theorem Booked.world {m : IdentifierMove} (h : Booked f s calls)
    (hids : (s.ids ++ idsTakenUp (.world m)).count f ≤ 1) (hmove : InviteMoves s m t) :
    Booked f t calls := by
  cases hmove with
  | @upstream u new hu =>
    have harrived : ∀ e ∈ s.arrived, e ∈ s.arrived ++ new := fun e he => List.mem_append_left _ he
    refine ⟨?_, hu, h.started, fun e he => (h.named e he).mono harrived fun _ h => h,
      fun call hcall => (h.sound call hcall).mono (fun _ h => h) harrived fun _ h => h,
      h.once, h.ours, h.kept, h.accounted⟩
    unfold InviteState.ids
    rw [List.map_append, ← List.append_assoc]
    exact hids
  | observes =>
    exact ⟨h.ids, h.upstream, h.started, h.named,
      fun call hcall => (h.sound call hcall).mono (fun _ h => h) (fun _ h => h) fun _ h => h,
      h.once, h.ours, h.kept, h.accounted⟩

end books

end MatrixCrypto
