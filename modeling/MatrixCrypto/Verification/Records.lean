import MatrixCrypto.Verification.Lookup

/-!
# What holds of every record

A property of a flow's handles that filling one in keeps is kept by every section
under the registry lock, and by every lookup.

## Main definitions

* `Registry.All` — a property of every record and its id.
* `FillClosed` — filling a handle in keeps the property.
* `Lookup.Holds` — the property of what a lookup in flight has in hand.

## Main results

* `All.register`, `All.registerIfAbsent` and their siblings — one section each.
* `LookupNext.all` — a lookup keeps the property, and answers with it.
-/

namespace MatrixCrypto

open Lib

/-- Filling a handle in keeps the property. -/
def FillClosed (u : Upstream) (R : FlowRecord → Prop) : Prop :=
  ∀ record filled, R record → FlowRecord.FilledFrom u record filled → R filled

/-- The handles of a record are the record's own. -/
theorem FlowRecord.filledFrom_handles {u : Upstream} {record : FlowRecord} :
    FilledFrom u record record.handles.record := ⟨rfl, Or.inl rfl, Or.inl rfl⟩

namespace Registry

/-- The property holds of every record under its id. -/
def All (R : String → FlowRecord → Prop) (flows : Registry) : Prop :=
  ∀ id record, flows.get? id = some record → R id record

variable {R R' : String → FlowRecord → Prop} {flows : Registry} {u : Upstream} {observed : Bool}
  {id : String} {record : FlowRecord}

theorem All.mono (h : flows.All R) (hR : ∀ id record, R id record → R' id record) :
    flows.All R' := fun id record hget => hR id record (h id record hget)

theorem All.insert (h : flows.All R) (hrecord : R id record) : All R (flows.insert id record) := by
  intro id' record' hget
  rw [OrdMap.get?_insert] at hget
  split at hget
  · next heq =>
    subst heq
    exact Option.some.inj hget ▸ hrecord
  · exact h id' record' hget

theorem All.forgetFlow (h : flows.All R) (id : String) : (flows.forgetFlow id).All R := by
  intro id' record hget
  rw [Registry.forgetFlow, OrdMap.get?_erase] at hget
  split at hget
  · cases hget
  · exact h id' record hget

theorem All.releaseFinished (h : flows.All R) (hR : ∀ id, FillClosed u (R id)) :
    (flows.releaseFinished u observed).All R := by
  intro id record hget
  obtain ⟨before, hbefore, rfl, -⟩ := of_get?_releaseFinished hget
  exact hR id _ _ (h id before hbefore) FlowRecord.filledFrom_lookedAt

theorem All.cached (h : flows.All R) (hR : ∀ id, FillClosed u (R id)) (id : String) :
    (flows.cached u id).2.All R := by
  cases hget : flows.get? id with
  | none =>
    rw [cached_of_none hget]
    exact h
  | some record =>
    rw [cached_of_some hget]
    exact h.insert (hR id _ _ (h id record hget) FlowRecord.filledFrom_filled)

/-- Registering leaves the property, and answers with handles that have it. -/
theorem All.register (h : flows.All R) (hR : ∀ id, FillClosed u (R id)) (hrecord : R id record) :
    (flows.register u observed id record).2.All R ∧
      R id (flows.register u observed id record).1.record := by
  have hswept : (flows.releaseFinished u observed).All R := h.releaseFinished hR
  have hentry : R id (((flows.releaseFinished u observed).get? id).getD record) := by
    cases hget : (flows.releaseFinished u observed).get? id with
    | none => exact hrecord
    | some held => exact hswept id held hget
  have hfilled := hR id _ _ hentry FlowRecord.filledFrom_filled
  exact ⟨hswept.insert hfilled, hR id _ _ hfilled FlowRecord.filledFrom_handles⟩

theorem All.registerIfAbsent (h : flows.All R) (hR : ∀ id, FillClosed u (R id))
    (hrecord : R id record) : (flows.registerIfAbsent u observed id record).2.All R := by
  have hswept : (flows.releaseFinished u observed).All R := h.releaseFinished hR
  cases hget : (flows.releaseFinished u observed).get? id with
  | none =>
    rw [registerIfAbsent_of_none hget]
    exact hswept.insert hrecord
  | some held =>
    rw [registerIfAbsent_of_some hget]
    exact hswept

/-- A pass that looks at every record keeps the property. -/
theorem All.mapValues (h : flows.All R) (hR : ∀ id, FillClosed u (R id))
    {f : FlowRecord → FlowRecord} (hf : ∀ record, FlowRecord.FilledFrom u record (f record)) :
    All R (flows.mapValues fun _ record => f record) := by
  intro id record hget
  rw [OrdMap.get?_mapValues, Option.map_eq_some_iff] at hget
  obtain ⟨before, hbefore, rfl⟩ := hget
  exact hR id _ _ (h id before hbefore) (hf before)

/-- What is remembered of a flow keeps the property, if it does on its record. -/
theorem All.rememberComparison (h : flows.All R) {c : Sas}
    (hc : ∀ record, R id record → R id (record.setComparison c)) :
    (flows.rememberComparison id c).All R := by
  unfold Registry.rememberComparison
  cases hget : flows.get? id with
  | none => exact h
  | some record => exact h.insert (hc record (h id record hget))

theorem All.rememberCode (h : flows.All R) {q : QrVerification}
    (hq : ∀ record, R id record → R id (record.setCode q)) :
    (flows.rememberCode id q).All R := by
  unfold Registry.rememberCode
  cases hget : flows.get? id with
  | none => exact h
  | some record => exact h.insert (hq record (h id record hget))

end Registry

/-! ### Lookups -/

/-- What a lookup in flight has in hand has the property. -/
def Lookup.Holds (R : FlowRecord → Prop) : Lookup → Prop
  | begins _ | missed _ => True
  | found record | adopting _ record => R record

/-- **A lookup keeps the property of every record, and answers with it**, if what
upstream finds has it. -/
theorem LookupNext.all {R : FlowRecord → Prop} {s t : FlowState} {l : Lookup}
    {res : Lookup ⊕ Except MachineError Handles} (hR : FillClosed s.upstream R)
    (hfinds : ∀ tracked id record, findFlow s.upstream tracked id = some record → R record)
    (hs : s.flows.All fun _ => R) (hl : l.Holds R) (h : LookupNext s l t res) :
    (t.flows.All fun _ => R) ∧ (∀ l', res = .inl l' → l'.Holds R) ∧
      ∀ handles, res = .inr (.ok handles) → R handles.record := by
  have hR' : ∀ _ : String, FillClosed s.upstream R := fun _ => hR
  cases h with
  | @hit id record hget =>
    refine ⟨hs.cached hR' id, by simp, fun handles hh => ?_⟩
    have hh : (record.filled s.upstream).handles = handles := by simpa using hh
    have hfilled := hR _ _ (hs id record hget) FlowRecord.filledFrom_filled
    exact hh ▸ hR _ _ hfilled FlowRecord.filledFrom_handles
  | miss _ => exact ⟨hs, by rintro l' ⟨⟩; trivial, by simp⟩
  | trip _ hfind => exact ⟨hs, by rintro l' ⟨⟩; exact hfinds _ _ _ hfind, by simp⟩
  | tripUnknown _ _ => exact ⟨hs, by simp, by simp⟩
  | tripFails => exact ⟨hs, by simp, by simp⟩
  | finished _ => exact ⟨hs, by simp, by simp⟩
  | live _ _ =>
    refine ⟨hs, ?_, by simp⟩
    rintro l' ⟨⟩
    exact hR _ _ hl FlowRecord.filledFrom_lookedAt
  | @register id record =>
    obtain ⟨hflows, hgives⟩ : ((s.flows.register s.upstream s.observed id record).2.All
        fun _ => R) ∧ R (s.flows.register s.upstream s.observed id record).1.record :=
      hs.register hR' hl
    refine ⟨hflows, by simp, fun handles hh => ?_⟩
    have hh : (s.flows.register s.upstream s.observed id record).1 = handles := by simpa using hh
    exact hh ▸ hgives

end MatrixCrypto
