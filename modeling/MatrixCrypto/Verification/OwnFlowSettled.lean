import MatrixCrypto.Signing.Gate
import MatrixCrypto.Verification.OwnFlow

/-!
# What stands behind a step of an own flow

Every flow with the machine's own account that is going was let in by a gate, and
what the gate read goes on being worth something: `account_keys_answered` does not
go down again, and the identity held is recorded as unpublished only once the
identity or its record was written after the reading.

## Main definitions

* `Reading.Valid` — what a reading is worth in a state.
* `Grows` — what no step takes back.
* `Upstream.LetIn`, `Settled` — the invariant; `OwnCall.Of` — what a call knows.

## Main results

* `own_step_settled` — **a call queues for an own flow only behind a gate that let
  the flow in.**
* `own_step_unsettled` — the gate is not read again: a confirmation is queued for an
  own flow while the identity is recorded as unpublished.
-/

namespace MatrixCrypto

open Lib

/-! ### What a reading is worth -/

/-- No access to the store failed. -/
def Reading.Clean (g : Reading) : Prop := g.reads.masterKey = false ∧ g.reads.record = false

/-- Nothing has been written since the reading, or its answer may be an old one. -/
structure Reading.Valid (g : Reading) (s : OwnState) : Prop where
  writes : g.writes ≤ s.writes
  unwritten : g.Clean → g.writes = s.writes → ¬ s.store.HoldsUnpublished

namespace OwnState

/-- What the gate says of the user it was asked about. -/
def Passed (s : OwnState) (user : String) : Option Reading → Prop
  | none => user ≠ s.account
  | some g => s.flow.requests.accountKeysAnswered = true ∧ g.Valid s

/-- What lets a flow in: a reading, where there is one. -/
def Behind (s : OwnState) (user flowId : String) : Option Reading → Prop
  | none => s.Admits user flowId
  | some g => s.flow.requests.accountKeysAnswered = true ∧ g.Valid s

/-- The comparison of a record whose request is with another user was let in. -/
def Sound (s : OwnState) (record : FlowRecord) : Prop :=
  ∀ r c, record.request = some r → record.comparison = some c → r.otherUser ≠ s.account →
    s.Admits c.otherUserId c.flowId

/-- What no step takes back. -/
structure Grows (s t : OwnState) : Prop where
  account : t.account = s.account
  answered : s.flow.requests.accountKeysAnswered = true →
    t.flow.requests.accountKeysAnswered = true
  admitted : ∀ e ∈ s.admitted, e ∈ t.admitted
  valid : ∀ g : Reading, g.Valid s → g.Valid t

variable {s t : OwnState} {user flowId : String} {reading : Option Reading} {record : FlowRecord}

theorem Grows.refl (s : OwnState) : s.Grows s := ⟨rfl, fun h => h, fun _ h => h, fun _ h => h⟩

theorem Grows.trans {s' : OwnState} (h : s.Grows s') (h' : s'.Grows t) : s.Grows t where
  account := h'.account.trans h.account
  answered := fun ha => h'.answered (h.answered ha)
  admitted := fun e he => h'.admitted e (h.admitted e he)
  valid := fun g hg => h'.valid g (h.valid g hg)

/-- What is written to the flows and the requests leaves every reading as it is. -/
theorem grows_flow {f : FlowState} (ha : f.upstream.userId = s.account)
    (hf : s.flow.requests.accountKeysAnswered = true → f.requests.accountKeysAnswered = true) :
    s.Grows { s with flow := f } where
  account := ha
  answered := hf
  admitted := fun _ h => h
  valid := fun _ h => ⟨h.writes, h.unwritten⟩

theorem grows_admitFlow (s : OwnState) (user flowId : String) (reading : Option Reading) :
    s.Grows (s.admitFlow user flowId reading) := by
  unfold admitFlow
  split
  · split
    · exact ⟨rfl, fun h => h, fun e he => List.mem_cons_of_mem _ he, fun _ h => ⟨h.1, h.2⟩⟩
    · exact Grows.refl s
  · exact Grows.refl s

/-- A write makes a reading an old one, or changes nothing. -/
theorem grows_write (s : OwnState) (store : Store) : s.Grows (s.write store) where
  account := rfl
  answered := fun h => h
  admitted := fun _ h => h
  valid := by
    intro g hg
    have hle := hg.writes
    unfold write
    by_cases hstore : store = s.store
    · rw [if_pos hstore, hstore]
      exact ⟨hg.writes, hg.unwritten⟩
    · rw [if_neg hstore]
      refine ⟨Nat.le_succ_of_le hle, fun _ heq => ?_⟩
      have heq : g.writes = s.writes + 1 := heq
      omega

/-- Forgetting the record keeps every reading. -/
theorem grows_forgets (s : OwnState) (reads : Reads) :
    s.Grows { s with store := noteIdentityPublished reads s.store } where
  account := rfl
  answered := fun h => h
  admitted := fun _ h => h
  valid := fun _ hg => ⟨hg.writes, fun hclean heq h =>
    hg.unwritten hclean heq (holdsUnpublished_of_published h)⟩

theorem Grows.admits (h : s.Grows t) (hs : s.Admits user flowId) : t.Admits user flowId := by
  intro huser
  obtain ⟨g, hg⟩ := hs (huser.trans h.account)
  exact ⟨g, h.admitted _ hg⟩

theorem Grows.passed (h : s.Grows t) (hs : s.Passed user reading) : t.Passed user reading := by
  cases reading with
  | none => exact fun huser => hs (huser.trans h.account)
  | some g => exact ⟨h.answered hs.1, h.valid g hs.2⟩

theorem Grows.sound (h : s.Grows t) (hs : s.Sound record) : t.Sound record := by
  intro r c hr hc hne
  exact h.admits (hs r c hr hc (h.account ▸ hne))

theorem Passed.behind (h : s.Passed user reading) (flowId : String) :
    s.Behind user flowId reading := by
  cases reading with
  | none => exact fun huser => absurd huser h
  | some g => exact h

theorem Behind.admits (h : s.Behind user flowId reading) :
    (s.admitFlow user flowId reading).Admits user flowId := by
  cases reading with
  | none => exact h
  | some g =>
    intro huser
    have hours : user = s.account := huser.trans (grows_admitFlow s user flowId (some g)).account
    refine ⟨g, ?_⟩
    rw [admitFlow, if_pos hours]
    exact List.mem_cons_self

/-- Every flow was let in before, or is this one behind its reading. -/
theorem Behind.mem_admitFlow (h : s.Behind user flowId reading) {e : String × Reading}
    (he : e ∈ (s.admitFlow user flowId reading).admitted) :
    e ∈ s.admitted ∨ s.flow.requests.accountKeysAnswered = true ∧ e.2.Valid s := by
  unfold admitFlow at he
  split at he
  · split at he
    · rcases List.mem_cons.mp he with rfl | he
      · exact Or.inr h
      · exact Or.inl he
    · exact Or.inl he
  · exact Or.inl he

end OwnState

/-! ### The flows upstream has going -/

namespace Upstream

/-- Upstream is coherent, and every flow it has going was let in. -/
structure LetIn (A : String → String → Prop) (u : Upstream) : Prop where
  coherent : u.Coherent
  request : ∀ r, (u.requestState r).engaged = true → A r.otherUser r.flowId
  comparison : ∀ c, (u.sasState c).engaged = true → A c.otherUserId c.flowId
  code : ∀ q, (u.codeState q).engaged = true → A q.otherUserId q.flowId

variable {A A' : String → String → Prop} {u v : Upstream}

theorem LetIn.mono (h : u.LetIn A) (hA : ∀ user id, A user id → A' user id) : u.LetIn A' where
  coherent := h.coherent
  request := fun r hr => hA _ _ (h.request r hr)
  comparison := fun c hc => hA _ _ (h.comparison c hc)
  code := fun q hq => hA _ _ (h.code q hq)

theorem LetIn.follows (h : u.LetIn A) (hv : u.Follows A v) : v.LetIn A where
  coherent := hv.coherent
  request := fun r hr => (hv.request r hr).elim (h.request r) (fun h => h)
  comparison := fun c hc => (hv.comparison c hc).elim (h.comparison c) (fun h => h)
  code := fun q hq => (hv.code q hq).elim (h.code q) (fun h => h)

/-- A request moves to a state that is of its own flow. -/
theorem LetIn.setRequest (h : u.LetIn A) {r : VerificationRequest}
    {state : VerificationRequestState} (hr : state.engaged = true → A r.otherUser r.flowId)
    (hsas : ∀ c, state = .transitioned (.sas c) →
      c.flowId = r.flowId ∧ c.otherUserId = r.otherUser)
    (hcode : ∀ q, state = .transitioned (.qr q) →
      q.flowId = r.flowId ∧ q.otherUserId = r.otherUser) : (u.setRequest r state).LetIn A where
  coherent := by
    refine ⟨h.coherent.request, h.coherent.requests, h.coherent.sas, fun r' c hc => ?_,
      fun r' q hq => ?_⟩
    · by_cases heq : r' = r
      · subst heq
        rw [setRequest_requestState] at hc
        exact hsas c hc
      · rw [setRequest_requestState_of_ne _ _ heq] at hc
        exact h.coherent.becameSas r' c hc
    · by_cases heq : r' = r
      · subst heq
        rw [setRequest_requestState] at hq
        exact hcode q hq
      · rw [setRequest_requestState_of_ne _ _ heq] at hq
        exact h.coherent.becameCode r' q hq
  request := by
    intro r' hr'
    by_cases heq : r' = r
    · subst heq
      rw [setRequest_requestState] at hr'
      exact hr hr'
    · rw [setRequest_requestState_of_ne _ _ heq] at hr'
      exact h.request r' hr'
  comparison := h.comparison
  code := h.code

theorem LetIn.setSas (h : u.LetIn A) {c : Sas} {state : SasState}
    (hc : state.engaged = true → A c.otherUserId c.flowId) : (u.setSas c state).LetIn A where
  coherent := ⟨h.coherent.request, h.coherent.requests, h.coherent.sas, h.coherent.becameSas,
    h.coherent.becameCode⟩
  request := h.request
  comparison := by
    intro c' hc'
    by_cases heq : c' = c
    · subst heq
      rw [setSas_sasState] at hc'
      exact hc hc'
    · rw [setSas_sasState_of_ne _ _ heq] at hc'
      exact h.comparison c' hc'
  code := h.code

theorem LetIn.setCode (h : u.LetIn A) {q : QrVerification} {state : QrVerificationState}
    (hq : state.engaged = true → A q.otherUserId q.flowId) : (u.setCode q state).LetIn A where
  coherent := ⟨h.coherent.request, h.coherent.requests, h.coherent.sas, h.coherent.becameSas,
    h.coherent.becameCode⟩
  request := h.request
  comparison := h.comparison
  code := by
    intro q' hq'
    by_cases heq : q' = q
    · subst heq
      rw [setCode_codeState] at hq'
      exact hq hq'
    · rw [setCode_codeState_of_ne _ _ heq] at hq'
      exact h.code q' hq'

theorem LetIn.setCreated (h : u.LetIn A) {r : VerificationRequest} (hr : A r.otherUser r.flowId) :
    (u.setRequest r .created).LetIn A :=
  h.setRequest (fun _ => hr) (fun _ hc => by cases hc) (fun _ hq => by cases hq)

/-- A request upstream builds is of the flow it was let in for. -/
theorem LetIn.opened (h : u.LetIn A) {r : VerificationRequest} (hr : A r.otherUser r.flowId) :
    (u.opened r).LetIn A where
  coherent := by
    have hset := h.setCreated hr
    refine ⟨fun user id r' hget => ?_, fun user r' hmem => ?_, h.coherent.sas,
      hset.coherent.becameSas, hset.coherent.becameCode⟩
    · have hget : (if user = r.otherUser ∧ id = r.flowId then some r
          else u.getVerificationRequest user id) = some r' := hget
      split at hget
      · next heq =>
        obtain rfl : r = r' := Option.some.inj hget
        exact ⟨heq.2.symm, heq.1.symm⟩
      · exact h.coherent.request user id r' hget
    · have hmem : r' ∈ (if user = r.otherUser then u.getVerificationRequests user ++ [r]
          else u.getVerificationRequests user) := hmem
      split at hmem
      · next heq =>
        rcases List.mem_append.mp hmem with hmem | hmem
        · exact h.coherent.requests user r' hmem
        · rw [List.mem_singleton] at hmem
          rw [hmem, heq]
      · exact h.coherent.requests user r' hmem
  request := (h.setCreated hr).request
  comparison := h.comparison
  code := h.code

/-- What is cancelled is not let in. -/
theorem LetIn.retires (h : u.LetIn A) (hretires : u.Retires v) : v.LetIn A where
  coherent := by
    have hstate : ∀ r x, v.requestState r = .transitioned x →
        u.requestState r = .transitioned x := by
      intro r x hx
      rcases hretires.request r with hsame | ⟨-, hcancelled⟩
      · rw [← hsame, hx]
      · rw [hcancelled] at hx
        cases hx
    refine ⟨?_, ?_, ?_, fun r c hc => h.coherent.becameSas r c (hstate r _ hc),
      fun r q hq => h.coherent.becameCode r q (hstate r _ hq)⟩
    · rw [hretires.getVerificationRequest]
      exact h.coherent.request
    · rw [hretires.getVerificationRequests]
      exact h.coherent.requests
    · unfold getVerification
      rw [hretires.verifications]
      exact h.coherent.sas
  request := by
    intro r hr
    rcases hretires.request r with hsame | ⟨-, hcancelled⟩
    · exact h.request r (hsame ▸ hr)
    · rw [hcancelled] at hr
      cases hr
  comparison := by
    intro c hc
    rcases hretires.sas c with hsame | ⟨-, hcancelled⟩
    · exact h.comparison c (hsame ▸ hc)
    · rw [hcancelled] at hc
      cases hc
  code := by
    intro q hq
    rcases hretires.code q with hsame | ⟨-, hcancelled⟩
    · exact h.code q (hsame ▸ hq)
    · rw [hcancelled] at hq
      cases hq

/-- The messages of a flow go to a comparison of it. -/
theorem LetIn.route (h : u.LetIn A) (c : Sas) :
    (u.route c.otherUserId c.flowId (.sas c)).LetIn A where
  coherent := by
    refine ⟨h.coherent.request, h.coherent.requests, fun user id c' hc' => ?_,
      h.coherent.becameSas, h.coherent.becameCode⟩
    rw [getVerification_route] at hc'
    split at hc'
    · next heq =>
      obtain rfl : c = c' := Verification.sas.inj (Option.some.inj hc')
      exact ⟨heq.2.symm, heq.1.symm⟩
    · exact h.coherent.sas user id c' hc'
  request := h.request
  comparison := h.comparison
  code := h.code

/-- A request that was let in comes to carry a comparison of its flow. -/
theorem LetIn.becomes (h : u.LetIn A) {r : VerificationRequest} {c : Sas}
    (hr : A r.otherUser r.flowId) (hflow : c.flowId = r.flowId ∧ c.otherUserId = r.otherUser) :
    (u.becomes r (.sas c)).LetIn A := by
  have hset : (u.setRequest r (.transitioned (.sas c))).LetIn A := by
    refine h.setRequest (fun _ => hr) (fun c' hc' => ?_) (fun q hq => by cases hq)
    obtain rfl : c = c' := Verification.sas.inj (VerificationRequestState.transitioned.inj hc')
    exact hflow
  exact ⟨⟨hset.coherent.request, hset.coherent.requests, hset.coherent.sas,
    hset.coherent.becameSas, hset.coherent.becameCode⟩, hset.request, hset.comparison, hset.code⟩

/-- `start_sas` goes on with a flow that was let in. -/
theorem LetIn.startSas (h : u.LetIn A) {r : VerificationRequest} {c : Sas}
    (hflow : c.flowId = r.flowId ∧ c.otherUserId = r.otherUser) (hv : u.startSas r c = some v) :
    v.LetIn A ∧ A c.otherUserId c.flowId ∧ v.userId = u.userId := by
  have hr : A r.otherUser r.flowId := by
    refine h.request r ?_
    unfold Upstream.startSas at hv
    split at hv
    · next ours theirs hstate => rw [hstate]; rfl
    · next verification hstate => rw [hstate]; rfl
    · cases hv
  have hours : A c.otherUserId c.flowId := by
    rw [hflow.1, hflow.2]
    exact hr
  obtain ⟨w, state, hretires, rfl⟩ := retires_startSas hv
  exact ⟨(((h.retires hretires).setSas fun _ => hours).route c).becomes hr hflow, hours,
    hretires.userId⟩

/-- Answering a flow that is let in moves that one only. -/
theorem LetIn.acceptComparison (h : u.LetIn A) {comparison : Option Sas} {user id : String}
    (hv : u.acceptComparison comparison = some (v, user, id)) (hA : A user id) :
    v.LetIn A ∧ v.userId = u.userId ∧
      ∃ c, comparison = some c ∧ c.otherUserId = user ∧ c.flowId = id := by
  unfold Upstream.acceptComparison at hv
  split at hv
  · next c =>
    split at hv
    · cases hv
      exact ⟨h.setSas fun _ => hA, rfl, c, rfl, rfl, rfl⟩
    · cases hv
  · cases hv

end Upstream

/-! ### The invariant -/

/-- Every flow that is going was let in behind a reading that is still valid. -/
structure Settled (s : OwnState) : Prop where
  upstream : s.flow.upstream.LetIn s.Admits
  answered : ∀ e ∈ s.admitted, s.flow.requests.accountKeysAnswered = true
  valid : ∀ e ∈ s.admitted, e.2.Valid s
  records : s.flow.flows.All fun _ => s.Sound

namespace Settled

variable {s t : OwnState}

/-- A step that lets no flow in keeps the invariant, if the flows it leaves going
were let in before. -/
theorem grow (hs : Settled s) (hgrows : s.Grows t) (hadmitted : t.admitted = s.admitted)
    (hup : t.flow.upstream.LetIn s.Admits) (hrecords : t.flow.flows.All fun _ => s.Sound) :
    Settled t where
  upstream := hup.mono fun _ _ h => hgrows.admits h
  answered := fun e he => hgrows.answered (hs.answered e (hadmitted ▸ he))
  valid := fun e he => hgrows.valid _ (hs.valid e (hadmitted ▸ he))
  records := hrecords.mono fun _ _ h => hgrows.sound h

/-- The step that lets a flow in. -/
theorem admitFlow (hs : Settled s) {u : Upstream} {user flowId : String}
    {reading : Option Reading} (hbehind : s.Behind user flowId reading)
    (haccount : u.userId = s.account)
    (hup : ∀ A : String → String → Prop, s.flow.upstream.LetIn A → A user flowId → u.LetIn A) :
    Settled (OwnState.admitFlow { s with flow := { s.flow with upstream := u } }
        user flowId reading) ∧
      s.Grows (OwnState.admitFlow { s with flow := { s.flow with upstream := u } }
        user flowId reading) ∧
      (OwnState.admitFlow { s with flow := { s.flow with upstream := u } }
        user flowId reading).Admits user flowId := by
  have hmoved : s.Grows { s with flow := { s.flow with upstream := u } } :=
    OwnState.grows_flow haccount fun h => h
  have hbehind' : OwnState.Behind { s with flow := { s.flow with upstream := u } }
      user flowId reading := by
    cases reading with
    | none => exact hmoved.admits hbehind
    | some g => exact ⟨hbehind.1, hmoved.valid g hbehind.2⟩
  have hgrows := hmoved.trans (OwnState.grows_admitFlow _ user flowId reading)
  have hflow : (OwnState.admitFlow { s with flow := { s.flow with upstream := u } }
      user flowId reading).flow = { s.flow with upstream := u } := by
    unfold OwnState.admitFlow
    split
    · split <;> rfl
    · rfl
  have hadmits := hbehind'.admits
  refine ⟨⟨?_, fun e he => ?_, fun e he => ?_, ?_⟩, hgrows, hadmits⟩
  · rw [hflow]
    exact hup _ (hs.upstream.mono fun _ _ h => hgrows.admits h) hadmits
  · rcases hbehind'.mem_admitFlow he with he | ⟨hanswered, -⟩
    · exact hgrows.answered (hs.answered e he)
    · exact (OwnState.grows_admitFlow _ user flowId reading).answered hanswered
  · rcases hbehind'.mem_admitFlow he with he | ⟨-, hvalid⟩
    · exact hgrows.valid _ (hs.valid e he)
    · exact (OwnState.grows_admitFlow _ user flowId reading).valid _ hvalid
  · rw [hflow]
    exact hs.records.mono fun _ _ h => hgrows.sound h

/-- Looking at a flow fills in nothing that was not let in. -/
theorem fillClosed (hs : Settled s) : FillClosed s.flow.upstream s.Sound := by
  intro record filled hrecord hf r c hr hc hne
  rw [hf.request] at hr
  have hcase : record.comparison = some c ∨ record.comparisonOf s.flow.upstream = some c := by
    rcases hf.comparison with heq | heq <;> rw [heq] at hc
    · exact Or.inl hc
    · exact Or.inr hc
  rcases hcase with hc | hc
  · exact hrecord r c hr hc hne
  · rw [FlowRecord.comparisonOf_eq, Option.or_eq_some_iff] at hc
    rcases hc with hc | ⟨-, hc⟩
    · exact hrecord r c hr hc hne
    · obtain ⟨v, hv, hsas⟩ := Option.bind_eq_some_iff.mp hc
      have hstate : s.flow.upstream.requestState r = .transitioned v := by
        unfold FlowRecord.became at hv
        rw [hr, Option.map_some] at hv
        cases hstate : s.flow.upstream.requestState r with
        | transitioned v' =>
          rw [hstate] at hv
          rw [Option.some.inj hv]
        | _ => rw [hstate] at hv; cases hv
      cases v with
      | qr q => cases hsas
      | sas c' =>
        obtain rfl : c' = c := Option.some.inj hsas
        -- what a request became is with the request's user
        intro huser
        exact absurd ((hs.upstream.coherent.becameSas r c' hstate).2.symm.trans huser) hne

/-- Finding a flow keeps the invariant, and finds a record that is sound. -/
theorem finds (hs : Settled s) {l : Lookup} {f : FlowState}
    {res : Lookup ⊕ Except MachineError Handles} (hl : l.Holds s.Sound)
    (h : LookupNext s.flow l f res) :
    Settled { s with flow := f } ∧ s.Grows { s with flow := f } ∧
      (∀ l', res = .inl l' → l'.Holds (OwnState.Sound { s with flow := f })) ∧
      ∀ handles, res = .inr (.ok handles) →
        OwnState.Sound { s with flow := f } handles.record := by
  have hfinds : ∀ tracked id record, findFlow s.flow.upstream tracked id = some record →
      s.Sound record := by
    intro tracked id record hfind
    rcases findFlow_eq_some hfind with ⟨_, _, r, _, rfl⟩ | ⟨_, _, c, _, rfl⟩
    · intro _ _ _ hc
      cases hc
    · intro _ _ hr
      cases hr
  obtain ⟨hrecords, hgoes, hgives⟩ := h.all hs.fillClosed hfinds hs.records hl
  have hframe := h.frame
  have hup : f.upstream = s.flow.upstream := by rw [hframe]
  have hgrows : s.Grows { s with flow := f } :=
    OwnState.grows_flow (by rw [hup]) fun ha => by rw [h.requests]; exact ha
  refine ⟨hs.grow hgrows rfl ?_ hrecords, hgrows, fun l' hl' => ?_, fun handles hh => ?_⟩
  · show f.upstream.LetIn _
    rw [hup]
    exact hs.upstream
  · have hholds := hgoes l' hl'
    cases l' with
    | begins id => trivial
    | missed id => trivial
    | found record => exact hgrows.sound hholds
    | adopting id record => exact hgrows.sound hholds
  · exact hgrows.sound (hgives handles hh)

end Settled

/-! ### What the calls know -/

/-- What a call at the gate knows. -/
def Gate.Of (s : OwnState) (user : String) : Gate → Prop
  | begins user' => user' = user
  | reading => s.flow.requests.accountKeysAnswered = true
  | _ => True

/-- What `begin_comparison` knows. -/
def BeginCall.LetIn (s : OwnState) : BeginCall → Prop
  | finding _ l => l.Holds s.Sound
  | remembering _ c _ => s.Admits c.otherUserId c.flowId
  | queueing _ => False
  | _ => True

/-- What a call knows of its flow. -/
def OwnCall.Of (s : OwnState) : OwnCall → Prop
  | requesting _ user gate => gate.Of s user
  | opening _ user reading => s.Passed user reading
  | opened request _ => s.Admits request.otherUser request.flowId
  | finding _ l => l.Holds s.Sound
  | accepting handles gate => s.Sound handles.record ∧
      ∃ user, handles.otherUser = some user ∧ gate.Of s user
  | answering handles reading => s.Sound handles.record ∧
      ∃ user, handles.otherUser = some user ∧ s.Passed user reading
  | beginning call => call.LetIn s
  | queueing user flowId rest => rest ≠ [] → s.Admits user flowId
  | _ => True

namespace OwnState.Grows

variable {s t : OwnState}

theorem gate (h : s.Grows t) {user : String} {gate : Gate} (hs : gate.Of s user) :
    gate.Of t user := by
  cases gate with
  | reading => exact h.answered hs
  | _ => exact hs

theorem lookup (h : s.Grows t) {l : Lookup} (hs : l.Holds s.Sound) : l.Holds t.Sound := by
  cases l with
  | found record => exact h.sound hs
  | adopting id record => exact h.sound hs
  | _ => trivial

theorem begins (h : s.Grows t) {call : BeginCall} (hs : call.LetIn s) : call.LetIn t := by
  cases call with
  | finding id l => exact h.lookup hs
  | remembering id c out => exact h.admits hs
  | queueing out => exact hs.elim
  | _ => trivial

/-- What a call knows goes on being true. -/
theorem call (h : s.Grows t) {call : OwnCall} (hs : call.Of s) : call.Of t := by
  cases call with
  | requesting toSelf user gate => exact h.gate hs
  | opening toSelf user reading => exact h.passed hs
  | opened request out => exact h.admits hs
  | finding call l => exact h.lookup hs
  | accepting handles gate =>
    obtain ⟨hsound, user, huser, hgate⟩ := hs
    exact ⟨h.sound hsound, user, huser, h.gate hgate⟩
  | answering handles reading =>
    obtain ⟨hsound, user, huser, hpassed⟩ := hs
    exact ⟨h.sound hsound, user, huser, h.passed hpassed⟩
  | beginning call => exact h.begins hs
  | queueing user id rest => exact fun hne => h.admits (hs hne)
  | _ => trivial

end OwnState.Grows

/-! ### One section -/

namespace Settled

variable {s t : OwnState}

/-- Writing to the registry, without taking the account's answer back, keeps the
invariant. -/
theorem requests (hs : Settled s) (requests : RequestState)
    (h : s.flow.requests.accountKeysAnswered = true → requests.accountKeysAnswered = true) :
    Settled { s with flow := { s.flow with requests := requests } } ∧
      s.Grows { s with flow := { s.flow with requests := requests } } := by
  have hgrows : s.Grows { s with flow := { s.flow with requests := requests } } :=
    OwnState.grows_flow rfl h
  exact ⟨hs.grow hgrows rfl hs.upstream hs.records, hgrows⟩

/-- Upstream's moving keeps the invariant, if what it leaves going was let in. -/
theorem moves (hs : Settled s) {u : Upstream} (haccount : u.userId = s.account)
    (hu : u.LetIn s.Admits) :
    Settled { s with flow := { s.flow with upstream := u } } ∧
      s.Grows { s with flow := { s.flow with upstream := u } } := by
  have hgrows : s.Grows { s with flow := { s.flow with upstream := u } } :=
    OwnState.grows_flow haccount fun h => h
  exact ⟨hs.grow hgrows rfl hu hs.records, hgrows⟩

/-- Writing sound records to the registry of flows keeps the invariant. -/
theorem flows (hs : Settled s) {flows : Registry} (h : flows.All fun _ => s.Sound) :
    Settled { s with flow := { s.flow with flows := flows } } ∧
      s.Grows { s with flow := { s.flow with flows := flows } } := by
  have hgrows : s.Grows { s with flow := { s.flow with flows := flows } } :=
    OwnState.grows_flow rfl fun h => h
  exact ⟨hs.grow hgrows rfl hs.upstream h, hgrows⟩

/-- A section of the gate: what it lets pass, it has read. -/
theorem gate (hs : Settled s) {user : String} {gate : Gate}
    {res : Gate ⊕ Except MachineError (Option Reading)} (hgate : gate.Of s user)
    (h : GateNext s gate t res) :
    Settled t ∧ s.Grows t ∧ (∀ gate', res = .inl gate' → gate'.Of t user) ∧
      ∀ reading, res = .inr (.ok reading) → t.Passed user reading := by
  cases h with
  | @other asked hother =>
    obtain rfl : asked = user := hgate
    refine ⟨hs, .refl s, by simp, ?_⟩
    rintro reading ⟨⟩
    exact hother
  | own _ => exact ⟨hs, .refl s, by rintro _ ⟨⟩; trivial, by simp⟩
  | answered hanswered => exact ⟨hs, .refl s, by rintro _ ⟨⟩; exact hanswered, by simp⟩
  | unanswered _ => exact ⟨hs, .refl s, by rintro _ ⟨⟩; trivial, by simp⟩
  | @refuses id query =>
    obtain ⟨hs', hgrows⟩ := hs.requests
      (s.flow.requests.queueAccountKeyQuery id query) fun h => h
    exact ⟨hs', hgrows, by simp, by simp⟩
  | @passes reads hread =>
    refine ⟨hs, .refl s, by simp, ?_⟩
    rintro reading ⟨⟩
    refine ⟨hgate, le_refl _, fun hclean _ hholds => ?_⟩
    rw [identityIsUnpublished_complete hclean.1 hclean.2 hholds] at hread
    cases hread
  | pending _ => exact ⟨hs, .refl s, by simp, by simp⟩
  | fails => exact ⟨hs, .refl s, by simp, by simp⟩

/-- A section of `begin_comparison` before its queueing. -/
theorem begins (hs : Settled s) {call : BeginCall} {f : FlowState}
    {res : BeginCall ⊕ Except MachineError Unit} (hcall : call.LetIn s)
    (h : BeginNext s.flow call f res) :
    Settled { s with flow := f } ∧ s.Grows { s with flow := f } ∧
      ∀ call', res = .inl call' → (∀ outgoing, call' ≠ .queueing outgoing) →
        call'.LetIn { s with flow := f } := by
  cases h with
  | finds h =>
    obtain ⟨hs', hgrows, hgoes, -⟩ := hs.finds hcall h
    exact ⟨hs', hgrows, by rintro _ ⟨⟩ -; exact hgoes _ rfl⟩
  | findsNone h =>
    obtain ⟨hs', hgrows, -⟩ := hs.finds hcall h
    exact ⟨hs', hgrows, by simp⟩
  | found h =>
    obtain ⟨hs', hgrows, -⟩ := hs.finds hcall h
    exact ⟨hs', hgrows, by rintro _ ⟨⟩ -; trivial⟩
  | notReady _ => exact ⟨hs, .refl s, by simp⟩
  | ready _ _ => exact ⟨hs, .refl s, by rintro _ ⟨⟩ -; trivial⟩
  | requestless _ _ => exact ⟨hs, .refl s, by simp⟩
  | starts _ hflow hstart =>
    -- a start is of a request that was let in
    obtain ⟨hu, hadmits, haccount⟩ := hs.upstream.startSas hflow hstart
    obtain ⟨hs', hgrows⟩ := hs.moves haccount hu
    exact ⟨hs', hgrows, by rintro _ ⟨⟩ -; exact hgrows.admits hadmits⟩
  | startsNone _ => exact ⟨hs, .refl s, by simp⟩
  | startFails => exact ⟨hs, .refl s, by simp⟩
  | @remembers id c outgoing =>
    have hrecords : (s.flow.flows.rememberComparison id c).All fun _ => s.Sound := by
      refine hs.records.rememberComparison fun record _ r c' _ hc' _ => ?_
      obtain rfl : c = c' := Option.some.inj hc'
      exact hcall
    obtain ⟨hs', hgrows⟩ := hs.flows hrecords
    exact ⟨hs', hgrows, by rintro _ ⟨⟩ hne; exact absurd rfl (hne outgoing)⟩
  | queues => exact hcall.elim

/-- Answering lets the flow in that is answered. -/
theorem answers (hs : Settled s) {handles : Handles} {reading : Option Reading}
    {ours theirs : List VerificationMethod} {u : Upstream} {user flowId asked : String}
    (hsound : s.Sound handles.record) (hasked : handles.otherUser = some asked)
    (hpassed : s.Passed asked reading)
    (h : s.flow.upstream.accept handles ours theirs = some (u, user, flowId)) :
    s.Behind user flowId reading ∧ u.userId = s.account ∧
      ∀ A : String → String → Prop, s.flow.upstream.LetIn A → A user flowId → u.LetIn A := by
  have hcomparison : s.flow.upstream.acceptComparison handles.comparison =
        some (u, user, flowId) →
      (∀ c, handles.comparison = some c → s.Behind c.otherUserId c.flowId reading) →
      s.Behind user flowId reading ∧ u.userId = s.account ∧
        ∀ A : String → String → Prop, s.flow.upstream.LetIn A → A user flowId → u.LetIn A := by
    intro h hbehind
    have hA : ∀ A : String → String → Prop, s.flow.upstream.LetIn A → A user flowId → u.LetIn A :=
      fun A hA hnew => (hA.acceptComparison h hnew).1
    have hany : s.flow.upstream.LetIn fun _ _ => True := hs.upstream.mono fun _ _ _ => trivial
    obtain ⟨-, haccount, c, hc, rfl, rfl⟩ := hany.acceptComparison h trivial
    exact ⟨hbehind c hc, haccount, hA⟩
  unfold Upstream.accept at h
  cases hr : handles.request with
  | some r =>
    rw [hr] at h
    have hother : handles.otherUser = some r.otherUser := by
      rw [Handles.otherUser, hr, Option.map_some, Option.some_or]
    obtain rfl : r.otherUser = asked := Option.some.inj (hother.symm.trans hasked)
    -- the comparison of a flow with another user was let in, if with this account at all
    have hbehind : ∀ c, handles.comparison = some c → s.Behind c.otherUserId c.flowId reading := by
      intro c hc
      cases reading with
      | none => exact hsound r c hr hc hpassed
      | some g => exact hpassed
    split at h
    · next heq =>
      cases heq
      split at h
      · cases h
        refine ⟨hpassed.behind _, rfl, fun A hA hnew => ?_⟩
        exact hA.setRequest (fun _ => hnew) (fun _ hc => by cases hc) (fun _ hq => by cases hq)
      · exact hcomparison h hbehind
    · next heq => cases heq
  | none =>
    rw [hr] at h
    refine hcomparison h fun c hc => ?_
    have hother : handles.otherUser = some c.otherUserId := by
      rw [Handles.otherUser, hr, hc]
      rfl
    obtain rfl : c.otherUserId = asked := Option.some.inj (hother.symm.trans hasked)
    exact hpassed.behind _

end Settled

/-- **One section of a call.** -/
theorem OwnNext.settled {s t : OwnState} {call : OwnCall}
    {res : OwnCall ⊕ Except MachineError Unit} (hs : Settled s) (hcall : call.Of s)
    (h : OwnNext s call t res) :
    Settled t ∧ s.Grows t ∧ ∀ call', res = .inl call' → call'.Of t := by
  cases h with
  | requests h =>
    obtain ⟨hs', hgrows, hgoes, -⟩ := hs.gate hcall h
    exact ⟨hs', hgrows, by rintro _ ⟨⟩; exact hgoes _ rfl⟩
  | requestMalformed => exact ⟨hs, .refl s, by simp⟩
  | requestRefused h =>
    obtain ⟨hs', hgrows, -⟩ := hs.gate hcall h
    exact ⟨hs', hgrows, by simp⟩
  | requestPasses h =>
    obtain ⟨hs', hgrows, -, hpasses⟩ := hs.gate hcall h
    exact ⟨hs', hgrows, by rintro _ ⟨⟩; exact hpasses _ rfl⟩
  | @opens _ user reading request outgoing huser hfresh hself =>
    subst huser
    have hpassed : s.Passed request.otherUser reading := hcall
    obtain ⟨hs', hgrows, hadmits⟩ := hs.admitFlow (u := s.flow.upstream.opened request)
      (hpassed.behind request.flowId) rfl fun A hA hnew => hA.opened hnew
    exact ⟨hs', hgrows, by rintro _ ⟨⟩; exact hadmits⟩
  | @openUnanswered _ _ id query _ =>
    obtain ⟨hs', hgrows⟩ := hs.requests
      (s.flow.requests.queueAccountKeyQuery id query) fun h => h
    exact ⟨hs', hgrows, by simp⟩
  | openFails => exact ⟨hs, .refl s, by simp⟩
  | @registers request outgoing =>
    -- a record of a request alone holds no comparison to let in
    have hsound : s.Sound (.fromRequest request) := fun _ _ _ hc => by cases hc
    obtain ⟨hs', hgrows⟩ := hs.flows (hs.records.register (fun _ => hs.fillClosed) hsound).1
    exact ⟨hs', hgrows, by rintro _ ⟨⟩; exact fun _ => hgrows.admits hcall⟩
  | finds h =>
    obtain ⟨hs', hgrows, hgoes, -⟩ := hs.finds hcall h
    exact ⟨hs', hgrows, by rintro _ ⟨⟩; exact hgoes _ rfl⟩
  | findsNone h =>
    obtain ⟨hs', hgrows, -⟩ := hs.finds hcall h
    exact ⟨hs', hgrows, by simp⟩
  | @found call l f handles h =>
    obtain ⟨hs', hgrows, -, hgives⟩ := hs.finds hcall h
    refine ⟨hs', hgrows, fun call' hnext => ?_⟩
    cases call with
    | acceptFlow =>
      -- only the accept goes to the gate with the other user of the flow
      unfold FlowCall.next at hnext
      cases hother : handles.otherUser with
      | none => rw [hother] at hnext; cases hnext
      | some user =>
        rw [hother] at hnext
        cases hnext
        exact ⟨hgives handles rfl, user, hother, rfl⟩
    | confirmFlow => cases hnext; trivial
    | confirmScan => cases hnext; trivial
  | accepts h =>
    obtain ⟨hsound, user, huser, hgate⟩ := hcall
    obtain ⟨hs', hgrows, hgoes, -⟩ := hs.gate hgate h
    exact ⟨hs', hgrows, by rintro _ ⟨⟩; exact ⟨hgrows.sound hsound, user, huser, hgoes _ rfl⟩⟩
  | acceptRefused h =>
    obtain ⟨_, _, _, hgate⟩ := hcall
    obtain ⟨hs', hgrows, -⟩ := hs.gate hgate h
    exact ⟨hs', hgrows, by simp⟩
  | acceptPasses h =>
    obtain ⟨hsound, user, huser, hgate⟩ := hcall
    obtain ⟨hs', hgrows, -, hpasses⟩ := hs.gate hgate h
    exact ⟨hs', hgrows, by rintro _ ⟨⟩; exact ⟨hgrows.sound hsound, user, huser, hpasses _ rfl⟩⟩
  | answers h =>
    obtain ⟨hsound, asked, hasked, hpassed⟩ := hcall
    obtain ⟨hbehind, haccount, hup⟩ := hs.answers hsound hasked hpassed h
    obtain ⟨hs', hgrows, hadmits⟩ := hs.admitFlow hbehind haccount hup
    exact ⟨hs', hgrows, by rintro _ ⟨⟩; exact fun _ => hadmits⟩
  | answersNone _ => exact ⟨hs, .refl s, by simp⟩
  | begins h hqueue =>
    obtain ⟨hs', hgrows, hgoes⟩ := hs.begins hcall h
    exact ⟨hs', hgrows, by rintro _ ⟨⟩; exact hgoes _ rfl hqueue⟩
  | beginsNone h =>
    obtain ⟨hs', hgrows, -⟩ := hs.begins hcall h
    exact ⟨hs', hgrows, by simp⟩
  | @remembers id c outgoing f h =>
    have hadmits : BeginCall.LetIn s (.remembering id c outgoing) := hcall
    obtain ⟨hs', hgrows, -⟩ := hs.begins hadmits h
    exact ⟨hs', hgrows, by rintro _ ⟨⟩; exact fun _ => hgrows.admits hadmits⟩
  | refuses _ => exact ⟨hs, .refl s, by simp⟩
  | checks _ => exact ⟨hs, .refl s, by rintro _ ⟨⟩; trivial⟩
  | @confirms c state messages hstage hstate =>
    -- a comparison at the stage that is confirmed was let in before
    have hengaged : (s.flow.upstream.sasState c).engaged = true := by
      cases hsas : s.flow.upstream.sasState c with
      | keysExchanged emojis decimals => rfl
      | _ => rw [hsas] at hstage; cases hstage
    have hadmits := hs.upstream.comparison c hengaged
    obtain ⟨hs', hgrows⟩ := hs.moves (u := s.flow.upstream.setSas c state) rfl
      (hs.upstream.setSas fun _ => hadmits)
    exact ⟨hs', hgrows, by rintro _ ⟨⟩; exact fun _ => hgrows.admits hadmits⟩
  | confirmsNothing _ =>
    exact ⟨hs, .refl s, by rintro _ ⟨⟩; exact fun hne => absurd rfl hne⟩
  | confirmFails _ => exact ⟨hs, .refl s, by simp⟩
  | @scans handles q outgoing hcode hstate =>
    have hadmits := hs.upstream.code q (by rw [hstate]; rfl)
    obtain ⟨hs', hgrows⟩ := hs.moves (u := s.flow.upstream.setCode q .confirmed) rfl
      (hs.upstream.setCode fun _ => hadmits)
    exact ⟨hs', hgrows, by rintro _ ⟨⟩; exact fun _ => hgrows.admits hadmits⟩
  | scansNone _ => exact ⟨hs, .refl s, by simp⟩
  | @queues user id r rest =>
    obtain ⟨hs', hgrows⟩ := hs.requests (s.flow.requests.queueActionRequest r)
      fun h => by rw [RequestState.queueActionRequest_accountKeysAnswered]; exact h
    exact ⟨hs', hgrows, by rintro _ ⟨⟩; exact fun _ => hgrows.admits (hcall (by simp))⟩
  | returns => exact ⟨hs, .refl s, by simp⟩

/-! ### One move of the rest -/

/-- No write to the registry takes the account's answer back. -/
theorem RegistryWrite.answered {account : String} {s t : RequestState}
    (h : RegistryWrite account s t) (hs : s.accountKeysAnswered = true) :
    t.accountKeysAnswered = true := by
  cases h with
  | queues h => rw [answered_of_queueing h, hs]
  | takes prepared =>
    unfold RequestState.takeSection
    split
    · exact hs
    · exact hs
  | settles id answer => cases answer <;> first | exact hs | rfl

theorem answered_createIdentity {p : Process} (trip : Option Publishing)
    (hp : p.requests.accountKeysAnswered = true) :
    (createIdentity p trip).2.requests.accountKeysAnswered = true := by
  rcases createIdentity_requests p trip with h | ⟨id, r, h⟩ | ⟨up, requests, h⟩ <;> rw [h]
  · exact hp
  · exact hp
  · show (p.requests.queuePublication up requests).accountKeysAnswered = true
    rw [answered_queuePublication, hp]

/-- Every write to the registry of flows keeps its records sound. -/
theorem Settled.flowsWrite {s : OwnState} (hs : Settled s) {flows : Registry}
    (h : s.flow.FlowsWrite flows) : flows.All fun _ => s.Sound := by
  have hclosed : ∀ _ : String, FillClosed s.flow.upstream s.Sound := fun _ => hs.fillClosed
  cases h with
  | registersRequest id r =>
    exact hs.records.registerIfAbsent hclosed fun _ _ _ hc => by cases hc
  | registersStart id c => exact hs.records.registerIfAbsent hclosed fun _ _ hr => by cases hr
  | queries => exact hs.records.mapValues hclosed fun _ => FlowRecord.filledFrom_afterQuerying
  | announces => exact hs.records.mapValues hclosed fun _ => FlowRecord.filledFrom_afterAnnouncing
  | forgets id => exact hs.records.forgetFlow id
  | looks id => exact hs.records.cached hclosed id
  | remembersCode id q => exact hs.records.rememberCode fun _ hsound => hsound

theorem OwnMoves.settled {s t : OwnState} {e : OwnMove} (hs : Settled s) (h : OwnMoves s e t) :
    Settled t ∧ s.Grows t := by
  cases h with
  | @creates trip =>
    obtain ⟨hs', hgrows⟩ := hs.requests (createIdentity s.process trip).2.requests
      fun h => answered_createIdentity (p := s.process) trip h
    have hwrites := OwnState.grows_write
      { s with flow := { s.flow with requests := (createIdentity s.process trip).2.requests } }
      (createIdentity s.process trip).2.store
    exact ⟨hs'.grow hwrites rfl hs'.upstream hs'.records, hgrows.trans hwrites⟩
  | writes h => exact hs.requests _ h.answered
  | @forgets reads =>
    have hgrows := OwnState.grows_forgets s reads
    exact ⟨hs.grow hgrows rfl hs.upstream hs.records, hgrows⟩
  | @stores store =>
    have hgrows := OwnState.grows_write s store
    exact ⟨hs.grow hgrows rfl hs.upstream hs.records, hgrows⟩
  | flows h => exact hs.flows (hs.flowsWrite h)
  | upstream h => exact hs.moves h.account (hs.upstream.follows h)
  | @observes observed =>
    have hgrows : s.Grows { s with flow := { s.flow with observed := observed } } :=
      OwnState.grows_flow rfl fun h => h
    exact ⟨hs.grow hgrows rfl hs.upstream hs.records, hgrows⟩

/-! ### Whole runs -/

/-- The invariant, and what every call knows, survive every interleaving. -/
theorem settled_stable :
    ownFlows.Stable (fun _ _ => True) Settled (fun s call => call.Of s) where
  start := by
    intro p call _ _ hbegins
    cases call with
    | requesting toSelf user gate =>
      obtain ⟨rfl, -⟩ := hbegins
      exact rfl
    | finding call l =>
      obtain ⟨id, rfl⟩ := hbegins
      trivial
    | beginning call =>
      obtain ⟨id, rfl⟩ := hbegins
      trivial
    | _ => exact hbegins.elim
  own := by
    intro p call t res _ _ hs hcall hnext
    obtain ⟨hs', -, hgoes⟩ := OwnNext.settled hs hcall hnext
    exact ⟨hs', hgoes⟩
  other := by
    intro p call t res m _ _ hs hcall hm hnext
    exact (OwnNext.settled hs hcall hnext).2.1.call hm
  world := by
    intro p e t _ hs hmove
    obtain ⟨hs', hgrows⟩ := OwnMoves.settled hs hmove
    exact ⟨hs', fun m hm => hgrows.call hm⟩

theorem OwnState.Starting.settled {s : OwnState} (h : s.Starting) : Settled s where
  upstream := by
    refine ⟨h.coherent, fun r hr huser => ?_, fun c hc huser => ?_, fun q hq huser => ?_⟩
    · exact absurd huser (h.request r hr)
    · exact absurd huser (h.comparison c hc)
    · exact absurd huser (h.code q hq)
  answered := by
    rw [h.admitted]
    simp
  valid := by
    rw [h.admitted]
    simp
  records := by
    intro id record hget
    rw [h.flows] at hget
    cases hget

/-- **A call queues for a flow with the machine's own account only behind a gate
that let the flow in**, in every run from the start of a process:
`account_keys_answered` is up, and the identity held is recorded as unpublished only
if an access of the gate failed, or the identity or its record was written since. -/
theorem own_step_settled {s₀ : OwnState} {es : List OwnEvent} {q : Pool OwnState OwnCall}
    {user flowId : String} {r : UpstreamOutgoingRequest} {rest : List UpstreamOutgoingRequest}
    (hstart : s₀.Starting) (hrun : ownRuns.Run ⟨s₀, []⟩ es q)
    (hcall : .queueing user flowId (r :: rest) ∈ q.calls) (huser : user = q.shared.account) :
    q.shared.flow.requests.accountKeysAnswered = true ∧
      ∃ reading, (flowId, reading) ∈ q.shared.admitted ∧
        (reading.Clean → q.shared.store.HoldsUnpublished → reading.writes < q.shared.writes) := by
  obtain ⟨hs, hcalls⟩ := settled_stable.run
    (hrun.restrict_of (G := fun _ _ => True) fun _ _ => trivial) ⟨hstart.settled, by simp⟩
  obtain ⟨reading, hmem⟩ := hcalls _ hcall (by simp) huser
  have hvalid : reading.Valid q.shared := hs.valid _ hmem
  refine ⟨hs.answered _ hmem, reading, hmem, fun hclean hholds => ?_⟩
  have hle := hvalid.writes
  have hne : reading.writes ≠ q.shared.writes := fun heq => hvalid.unwritten hclean heq hholds
  omega

/-! ### A flow that outlives what its gate read

The account has no identity.  A flow with another device of it is opened behind the
gate; then an identity is created here, and nobody has seen it accepted when the
strings are confirmed. -/

/-- The request to the other device. -/
def phonesRequest : VerificationRequest := ⟨0, "f1", "@alice:example.org"⟩

/-- The comparison it becomes. -/
def phonesComparison : Sas := ⟨0, "f1", "@alice:example.org", "PHONE"⟩

/-- A message of the flow. -/
def phonesMessage (eventType id : String) : UpstreamOutgoingRequest :=
  ⟨id, .toDeviceRequest ⟨eventType, id, some (.obj [])⟩⟩

/-- Upstream with no flow. -/
def noFlows : Upstream where
  userId := "@alice:example.org"
  deviceId := "LAPTOP"
  trackedUsers := []
  requestState := fun _ => .cancelled
  sasState := fun _ => .cancelled
  codeState := fun _ => .cancelled
  getVerificationRequest := fun _ _ => none
  negotiated := fun _ => ([], [])
  hasCodeKeys := fun _ => true
  scanError := fun _ _ => none
  verifications := fun _ => ∅
  getVerificationRequests := fun _ => []

/-- A process that has just started over a store with no identity. -/
def noFlowState : OwnState := ⟨⟨OrdMap.empty, noFlows, .initial, false⟩, noIdentityStore, 0, []⟩

theorem noFlowState_starting : noFlowState.Starting where
  requests := rfl
  flows := rfl
  admitted := rfl
  coherent := by
    refine ⟨fun _ _ _ h => ?_, fun _ _ h => ?_, fun user id c h => ?_, fun _ _ h => ?_,
      fun _ _ h => ?_⟩
    case refine_3 =>
      rw [Upstream.getVerification_of_empty _ user id rfl] at h
      cases h
    all_goals cases h
  request := fun _ h => by cases h
  comparison := fun _ h => by cases h
  code := fun _ h => by cases h

/-- The query about the account, as a take prepares it. -/
def preparedQuery : List Fresh :=
  (prepare "@alice:example.org" ⟨.ok [⟨"q1", .keysQuery aliceQuery⟩], none⟩).toOption.getD []

/-- It is handed out and answered. -/
def queriedOwnState : OwnState :=
  { noFlowState with flow := { noFlowState.flow with
    requests := (RequestState.initial.takeSection "@alice:example.org" preparedQuery).2 } }

def answeredOwnState : OwnState :=
  { queriedOwnState with flow := { queriedOwnState.flow with
    requests := queriedOwnState.flow.requests.settle "q1" .settled } }

/-- What the gate reads: there is no identity. -/
def phonesReading : Reading := ⟨{}, noIdentityStore, 0, rfl⟩

/-- The flow is opened. -/
def openState : OwnState :=
  OwnState.admitFlow { answeredOwnState with flow := { answeredOwnState.flow with
    upstream := noFlows.opened phonesRequest } } "@alice:example.org" "f1" (some phonesReading)

def registeredState : OwnState :=
  { openState with flow := { openState.flow with flows := (openState.flow.flows.register
    openState.flow.upstream false "f1" (.fromRequest phonesRequest)).2 } }

/-- A section of the one call in flight. -/
theorem own_section {s t : OwnState} {call : OwnCall} {res : OwnCall ⊕ Except MachineError Unit}
    (h : OwnNext s call t res) :
    ownRuns.step ⟨s, [call]⟩ (.section call res) ⟨t, remaining res ++ []⟩ :=
  Calls.step_section ownFlows [] [] h

theorem own_move {s t : OwnState} {e : OwnMove} (h : OwnMoves s e t) :
    ownRuns.step ⟨s, []⟩ (.world e) ⟨t, []⟩ := ⟨h, rfl⟩

/-- The flow is opened behind the gate, and its invitation is about to be queued. -/
theorem run_registeredState : ∃ es, ownRuns.Run ⟨noFlowState, []⟩ es ⟨registeredState,
    [.queueing "@alice:example.org" "f1" [phonesMessage "m.key.verification.request" "v1"]]⟩ := by
  have hqueries : OwnMoves noFlowState (.writes _) queriedOwnState := .writes (.takes preparedQuery)
  have hsettles : OwnMoves queriedOwnState (.writes _) answeredOwnState :=
    .writes (.settles "q1" .settled)
  have hstart : ownRuns.step ⟨answeredOwnState, []⟩
      (.start (.requesting false "@alice:example.org" (.begins "@alice:example.org"))) _ :=
    Calls.step_start ownFlows ⟨rfl, by simp⟩
  have hasks : OwnNext answeredOwnState (.requesting false "@alice:example.org"
      (.begins "@alice:example.org")) answeredOwnState _ := .requests (.own rfl)
  have hanswered : OwnNext answeredOwnState (.requesting false "@alice:example.org" .asked)
      answeredOwnState _ := .requests (.answered rfl)
  have hpasses : OwnNext answeredOwnState (.requesting false "@alice:example.org" .reading)
      answeredOwnState (.inl (.opening false "@alice:example.org" (some phonesReading))) :=
    .requestPasses (.passes rfl)
  have hopens : OwnNext answeredOwnState (.opening false "@alice:example.org" (some phonesReading))
      openState (.inl (.opened phonesRequest (phonesMessage "m.key.verification.request" "v1"))) :=
    .opens rfl rfl (by simp)
  have hregisters : OwnNext openState
      (.opened phonesRequest (phonesMessage "m.key.verification.request" "v1"))
      registeredState _ := .registers
  exact ⟨_, .cons (own_move hqueries) (.cons (own_move hsettles) (.cons hstart
    (.cons (own_section hasks) (.cons (own_section hanswered) (.cons (own_section hpasses)
      (.cons (own_section hopens) (.single (own_section hregisters))))))))⟩

/-- The invitation is queued behind the reading of its own gate. -/
theorem own_step_settled_registeredState :
    registeredState.flow.requests.accountKeysAnswered = true ∧
      ∃ reading, ("f1", reading) ∈ registeredState.admitted ∧
        (reading.Clean → registeredState.store.HoldsUnpublished →
          reading.writes < registeredState.writes) := by
  obtain ⟨es, hrun⟩ := run_registeredState
  exact own_step_settled noFlowState_starting hrun (List.mem_singleton_self _) rfl

/-- The invitation is queued. -/
def invitedState : OwnState :=
  { registeredState with flow := { registeredState.flow with
    requests := registeredState.flow.requests.queueActionRequest
      (phonesMessage "m.key.verification.request" "v1") } }

/-- The strings of the comparison are on screen. -/
def screenUpstream : Upstream :=
  ((noFlows.opened phonesRequest).setSas phonesComparison
    (.keysExchanged none (1, 2, 3))).setRequest phonesRequest
      (.transitioned (.sas phonesComparison))

def screenState : OwnState :=
  { invitedState with flow := { invitedState.flow with upstream := screenUpstream } }

/-- An identity is created. -/
def mintedState : OwnState :=
  OwnState.write
    { screenState with flow := { screenState.flow with
      requests := (createIdentity screenState.process (some firstIdentity)).2.requests } }
    (createIdentity screenState.process (some firstIdentity)).2.store

/-- What `confirm_flow` finds. -/
def phonesHandles : Handles := ⟨some phonesRequest, some phonesComparison, none, none, Or.inl rfl⟩

def foundState : OwnState :=
  { mintedState with flow := { mintedState.flow with
    flows := (mintedState.flow.flows.cached screenUpstream "f1").2 } }

/-- Upstream has confirmed. -/
def confirmedOwnState : OwnState :=
  { foundState with flow := { foundState.flow with
    upstream := screenUpstream.setSas phonesComparison .confirmed } }

/-- Upstream's moves up to the strings go on with the flow that was opened. -/
theorem follows_screenUpstream :
    invitedState.flow.upstream.Follows invitedState.Admits screenUpstream := by
  have hadmits : invitedState.Admits phonesRequest.otherUser phonesRequest.flowId :=
    fun _ => ⟨phonesReading, List.mem_singleton_self _⟩
  have hnone : noFlows.LetIn invitedState.Admits := by
    refine ⟨noFlowState_starting.coherent, fun _ h => ?_, fun _ h => ?_, fun _ h => ?_⟩ <;> cases h
  have hscreen : screenUpstream.LetIn invitedState.Admits := by
    refine ((hnone.opened hadmits).setSas fun _ => hadmits).setRequest (fun _ => hadmits) ?_ ?_
    · rintro c ⟨⟩
      exact ⟨rfl, rfl⟩
    · rintro q ⟨⟩
  exact ⟨rfl, hscreen.coherent, fun r hr => Or.inr (hscreen.request r hr),
    fun c hc => Or.inr (hscreen.comparison c hc), fun q hq => Or.inr (hscreen.code q hq)⟩

/-- **The gate is not read again**: a confirmation for an own flow is queued, and its
call returns, while the identity is recorded as unpublished. -/
theorem own_step_unsettled : ∃ es q q', noFlowState.Starting ∧ ownRuns.Run ⟨noFlowState, []⟩ es q ∧
    ownRuns.step q (.section (.queueing q.shared.account "f1"
      [phonesMessage "m.key.verification.mac" "mac1"])
        (.inl (.queueing q.shared.account "f1" []))) q' ∧
    ownRuns.step q' (.section (.queueing q.shared.account "f1" []) (.inr (.ok ())))
      ⟨q'.shared, []⟩ ∧
    identityIsUnpublished {} q.shared.store = true := by
  obtain ⟨es, hprefix⟩ := run_registeredState
  have hqueues : OwnNext registeredState (.queueing "@alice:example.org" "f1"
      [phonesMessage "m.key.verification.request" "v1"]) invitedState _ := .queues
  have hscreen : OwnMoves invitedState (.upstream screenUpstream) screenState :=
    .upstream follows_screenUpstream
  have hmints : OwnMoves screenState (.creates (some firstIdentity)) mintedState := .creates
  have hstart : ownRuns.step ⟨mintedState, []⟩ (.start (.finding .confirmFlow (.begins "f1"))) _ :=
    Calls.step_start ownFlows ⟨"f1", rfl⟩
  have hlooks : LookupNext mintedState.flow (.begins "f1") foundState.flow
      (.inr (.ok phonesHandles)) :=
    @LookupNext.hit mintedState.flow "f1" (.fromRequest phonesRequest) rfl
  have hfound : OwnNext mintedState (.finding .confirmFlow (.begins "f1")) foundState _ :=
    .found hlooks
  have hchecks : OwnNext foundState (.checking phonesHandles) foundState
      (.inl (.confirming phonesComparison)) := .checks rfl
  have hconfirms : OwnNext foundState (.confirming phonesComparison) confirmedOwnState
      (.inl (.queueing "@alice:example.org" "f1"
        [phonesMessage "m.key.verification.mac" "mac1"])) :=
    .confirms rfl (Or.inl rfl)
  have hrun := hprefix.append (.cons (own_section hqueues) (.cons (own_section .returns)
    (.cons (own_move hscreen) (.cons (own_move hmints) (.cons hstart (.cons (own_section hfound)
      (.cons (own_section hchecks) (.single (own_section hconfirms)))))))))
  exact ⟨_, _, _, noFlowState_starting, hrun, own_section .queues, own_section .returns, by decide⟩

end MatrixCrypto
