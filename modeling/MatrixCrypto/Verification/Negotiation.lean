import MatrixCrypto.Lib.Passing
import MatrixCrypto.Verification.Code
import MatrixCrypto.Verification.Retention

/-!
# The negotiation in the registry

What the two sides announced about codes is read off a request while it is ready, into the
record that is looked at, and only where the record has none yet.  No section changes what
is there: it is lost with its record alone.

## Main definitions

* `FlowRecord.Reads` — a record is another of the same request, with what was read of it.
* `InviteCall.Drops` — the call is about to drop the flow from the registry.

## Main results

* `passes_register`, `passes_registerIfAbsent` and their siblings — one section each.
* `LookupNext.passesOn`, `InviteNext.passesOn`, `ReadNext.passesOn` — **a section passes every
  record on, drops it, or registers the record it was given.**
* `LookupNext.answered` — the handles a lookup answers with are those of the record it leaves.
-/

namespace MatrixCrypto

open Lib

namespace FlowRecord

/-- The record is of the same request, and its negotiation is the one there was, or was read
off the request where there was none. -/
structure Reads (u : Upstream) (record after : FlowRecord) : Prop where
  request : after.request = record.request
  negotiation : after.negotiation = record.negotiation ∨
    after.negotiation = record.negotiation.or (record.negotiated u)

variable {u : Upstream} {record after last : FlowRecord}

theorem reads_refl (record : FlowRecord) : Reads u record record := ⟨rfl, Or.inl rfl⟩

theorem Reads.negotiated (h : Reads u record after) : after.negotiated u = record.negotiated u := by
  unfold FlowRecord.negotiated
  rw [h.request]

theorem Reads.trans (h : Reads u record after) (h' : Reads u after last) : Reads u record last := by
  refine ⟨h'.request.trans h.request, ?_⟩
  rcases h'.negotiation with heq' | heq'
  · rw [heq']
    exact h.negotiation
  · rw [heq', h.negotiated]
    rcases h.negotiation with heq | heq
    · exact Or.inr (by rw [heq])
    · refine Or.inr ?_
      rw [heq, Option.or_assoc, Option.or_self]

/-- **A recorded negotiation stays as it is.** -/
theorem Reads.kept (h : Reads u record after) {n : CodeNegotiation}
    (hn : record.negotiation = some n) : after.negotiation = some n := by
  rcases h.negotiation with heq | heq
  · rw [heq, hn]
  · rw [heq, hn, Option.some_or]

theorem negotiation_lookedAt : (record.lookedAt u).negotiation = record.negotiation := by
  unfold lookedAt
  split
  · rfl
  · rfl

theorem reads_lookedAt : Reads u record (record.lookedAt u) :=
  ⟨request_lookedAt u record, Or.inl negotiation_lookedAt⟩

theorem reads_filled : Reads u record (record.filled u) := ⟨rfl, Or.inr rfl⟩

theorem reads_afterAnnouncing : Reads u record (record.afterAnnouncing u) := by
  unfold afterAnnouncing
  split
  · exact reads_refl record
  · split
    · exact reads_lookedAt
    · exact ⟨request_lookedAt u record, Or.inl negotiation_lookedAt⟩

theorem reads_afterQuerying : Reads u record (record.afterQuerying u) := by
  unfold afterQuerying
  split
  · exact reads_refl record
  · split
    · exact reads_lookedAt
    · exact ⟨request_lookedAt u record, Or.inl negotiation_lookedAt⟩

/-- A record that is looked at while its request is ready has a negotiation from then on. -/
theorem isSome_negotiation_filled {r : VerificationRequest} {ours theirs : List VerificationMethod}
    (hr : record.request = some r) (hready : u.requestState r = .ready ours theirs) :
    (record.filled u).negotiation.isSome = true := by
  have hfilled : (record.filled u).negotiation = record.negotiation.or (record.negotiated u) := rfl
  rw [hfilled]
  unfold FlowRecord.negotiated
  rw [hr, Option.map_some, hready]
  cases record.negotiation with
  | none => rfl
  | some n => rfl

end FlowRecord

/-! ### The sections under the registry lock -/

namespace Registry

variable {flows : Registry} {u : Upstream} {observed : Bool} {id : String}
  {given : FlowRecord} {dropped new : String → FlowRecord → Prop}

theorem passes_releaseFinished : OrdMap.Passes (FlowRecord.Reads u)
    (fun _ record => record.retained u observed = false) new flows
    (flows.releaseFinished u observed) :=
  .filter_mapValues fun _ _ => FlowRecord.reads_lookedAt

/-- **A registration drops what its sweep drops, and gives the record it was given.** -/
theorem passes_register : OrdMap.Passes (FlowRecord.Reads u)
    (fun _ record => record.retained u observed = false) (fun k record => k = id ∧ record = given)
    flows (flows.register u observed id given).2 := by
  refine OrdMap.Passes.drops_gives FlowRecord.Reads.trans passes_releaseFinished ?_
  show OrdMap.Passes _ _ _ _ ((flows.releaseFinished u observed).insert id
    ((((flows.releaseFinished u observed).get? id).getD given).filled u))
  cases hget : (flows.releaseFinished u observed).get? id with
  | none => exact .give FlowRecord.reads_refl hget FlowRecord.reads_filled
  | some record => exact .insert FlowRecord.reads_refl hget FlowRecord.reads_filled

theorem passes_registerIfAbsent : OrdMap.Passes (FlowRecord.Reads u)
    (fun _ record => record.retained u observed = false) (fun k record => k = id ∧ record = given)
    flows (flows.registerIfAbsent u observed id given).2 := by
  refine OrdMap.Passes.drops_gives FlowRecord.Reads.trans passes_releaseFinished ?_
  cases hget : (flows.releaseFinished u observed).get? id with
  | none =>
    rw [registerIfAbsent_of_none hget]
    exact .give FlowRecord.reads_refl hget (FlowRecord.reads_refl given)
  | some record =>
    rw [registerIfAbsent_of_some hget]
    exact .refl FlowRecord.reads_refl _

theorem passes_cached :
    OrdMap.Passes (FlowRecord.Reads u) dropped new flows (flows.cached u id).2 := by
  cases hget : flows.get? id with
  | none =>
    rw [cached_of_none hget]
    exact .refl FlowRecord.reads_refl _
  | some record =>
    rw [cached_of_some hget]
    exact .insert FlowRecord.reads_refl hget FlowRecord.reads_filled

theorem passes_rememberComparison (c : Sas) :
    OrdMap.Passes (FlowRecord.Reads u) dropped new flows (flows.rememberComparison id c) := by
  unfold rememberComparison
  cases hget : flows.get? id with
  | none => exact .refl FlowRecord.reads_refl _
  | some record => exact .insert FlowRecord.reads_refl hget ⟨rfl, Or.inl rfl⟩

theorem passes_rememberCode (q : QrVerification) :
    OrdMap.Passes (FlowRecord.Reads u) dropped new flows (flows.rememberCode id q) := by
  unfold rememberCode
  cases hget : flows.get? id with
  | none => exact .refl FlowRecord.reads_refl _
  | some record => exact .insert FlowRecord.reads_refl hget ⟨rfl, Or.inl rfl⟩

theorem passes_remember (v : Verification) :
    OrdMap.Passes (FlowRecord.Reads u) dropped new flows (flows.remember id v) := by
  cases v with
  | sas c => exact passes_rememberComparison c
  | qr q => exact passes_rememberCode q

theorem passes_peersOwedAKeyQuery : OrdMap.Passes (FlowRecord.Reads u) dropped new flows
    (flows.peersOwedAKeyQuery u).2 := by
  show OrdMap.Passes _ _ _ _ (OrdMap.mapValues flows fun _ record => record.afterQuerying u)
  exact .mapValues fun _ _ => FlowRecord.reads_afterQuerying

theorem passes_takePendingCompletions : OrdMap.Passes (FlowRecord.Reads u) dropped new flows
    (flows.takePendingCompletions u).2 := by
  show OrdMap.Passes _ _ _ _ (OrdMap.mapValues flows fun _ record => record.afterAnnouncing u)
  exact .mapValues fun _ _ => FlowRecord.reads_afterAnnouncing

end Registry

/-! ### The sections of the calls -/

/-- **A lookup passes every record on**, but for what the sweep of an adoption drops. -/
theorem LookupNext.passesOn {s t : FlowState} {l : Lookup}
    {res : Lookup ⊕ Except MachineError Handles} (h : LookupNext s l t res) :
    OrdMap.Passes (FlowRecord.Reads s.upstream)
      (fun _ record => (∃ id given, l = .adopting id given) ∧
        record.retained s.upstream s.observed = false)
      (fun k record => l = .adopting k record) s.flows t.flows := by
  cases h with
  | hit _ => exact Registry.passes_cached
  | register =>
    refine Registry.passes_register.mono ?_ ?_
    · intro k record hret
      exact ⟨⟨_, _, rfl⟩, hret⟩
    · rintro k record ⟨rfl, rfl⟩
      rfl
  | _ => exact .refl FlowRecord.reads_refl _

/-- What a lookup answers with are the handles of the record it leaves, which it looked at. -/
theorem LookupNext.answered {s t : FlowState} {l : Lookup} {handles : Handles}
    (h : LookupNext s l t (.inr (.ok handles))) : ∃ (id : String) (record : FlowRecord),
      t.flows.get? id = some (record.filled s.upstream) ∧
        handles = (record.filled s.upstream).handles := by
  generalize hr : (Sum.inr (.ok handles) : Lookup ⊕ Except MachineError Handles) = res at h
  cases h with
  | @hit id record hget =>
    refine ⟨id, record, ?_, Except.ok.inj (Sum.inr.inj hr)⟩
    show (s.flows.cached s.upstream id).2.get? id = _
    rw [Registry.cached_of_some hget, OrdMap.get?_insert_self]
  | @register id record =>
    refine ⟨id, ((s.flows.releaseFinished s.upstream s.observed).get? id).getD record, ?_,
      Except.ok.inj (Sum.inr.inj hr)⟩
    show (s.flows.register s.upstream s.observed id record).2.get? id = _
    rw [Registry.get?_register, if_pos rfl]
  | _ => cases hr

/-- The call is about to drop the flow from the registry: its sweep does, or an announcement
that reached nobody. -/
inductive InviteCall.Drops (s : FlowState) : InviteCall → String → FlowRecord → Prop
  | sweeps {call : InviteCall} {id k : String} {given record : FlowRecord}
      (h : call.Registers id given) (hret : record.retained s.upstream s.observed = false) :
      Drops s call k record
  | forgets {signal : String × String} {signals : List (String × String)} {record : FlowRecord}
      (h : s.observed = false) : Drops s (.announcing (signal :: signals)) signal.1 record

/-- **A section passes every record on**, drops it, or registers the record it was given. -/
theorem InviteNext.passesOn {s t : InviteState} {call : InviteCall}
    {res : InviteCall ⊕ Except MachineError Unit} (h : InviteNext s call t res) :
    OrdMap.Passes (FlowRecord.Reads s.flow.upstream) (call.Drops s.flow) call.Registers
      s.flow.flows t.flow.flows := by
  have hlookup : ∀ {f : String} {l : Lookup} {flow : FlowState}
      {res : Lookup ⊕ Except MachineError Handles}, LookupNext s.flow l flow res →
        OrdMap.Passes (FlowRecord.Reads s.flow.upstream) ((InviteCall.finding f l).Drops s.flow)
          (InviteCall.finding f l).Registers s.flow.flows flow.flows := by
    intro f l flow res h
    refine h.passesOn.mono ?_ ?_
    · rintro k record ⟨⟨id, given, rfl⟩, hret⟩
      exact .sweeps (.adopted f id given) hret
    · rintro k record rfl
      exact .adopted f k record
  cases h with
  | @registers request =>
    refine Registry.passes_register.mono ?_ ?_
    · intro k record hret
      exact .sweeps (.opened request) hret
    · rintro k record ⟨rfl, rfl⟩
      exact .opened request
  | @registersNew c left starts signals =>
    refine Registry.passes_registerIfAbsent.mono ?_ ?_
    · intro k record hret
      exact .sweeps (.announced c left starts signals) hret
    · rintro k record ⟨rfl, rfl⟩
      exact .announced c left starts signals
  | queries => exact Registry.passes_peersOwedAKeyQuery
  | takes => exact Registry.passes_takePendingCompletions
  | @forgets signal signals hobserved =>
    refine OrdMap.Passes.mono (.erase FlowRecord.reads_refl) ?_ (fun _ _ => id)
    rintro k record rfl
    exact .forgets hobserved
  | finds hl => exact hlookup hl
  | findsNone hl => exact hlookup hl
  | found hl => exact hlookup hl
  | remembers => exact Registry.passes_remember _
  | _ => exact .refl FlowRecord.reads_refl _

/-- **So does a section of `read_code`**, whose lookup may adopt a flow. -/
theorem ReadNext.passesOn {F : CodeFormat} {ids : Identities} {s t : FlowState} {call : ReadCall}
    {res : ReadCall ⊕ Except CodeError ScannableCode} (h : ReadNext F ids s call t res) :
    OrdMap.Passes (FlowRecord.Reads s.upstream)
      (fun _ record => (∃ f id given, call = .finding f (.adopting id given)) ∧
        record.retained s.upstream s.observed = false)
      (fun k record => ∃ f, call = .finding f (.adopting k record)) s.flows t.flows := by
  have hlookup : ∀ {f : String} {l : Lookup} {flow : FlowState}
      {res : Lookup ⊕ Except MachineError Handles}, LookupNext s l flow res →
        OrdMap.Passes (FlowRecord.Reads s.upstream)
          (fun _ record => (∃ g id given, ReadCall.finding f l = .finding g (.adopting id given)) ∧
            record.retained s.upstream s.observed = false)
          (fun k record => ∃ g, ReadCall.finding f l = .finding g (.adopting k record))
          s.flows flow.flows := by
    intro f l flow res h
    refine h.passesOn.mono ?_ ?_
    · rintro k record ⟨⟨id, given, rfl⟩, hret⟩
      exact ⟨⟨f, id, given, rfl⟩, hret⟩
    · rintro k record rfl
      exact ⟨f, rfl⟩
  cases h with
  | finds hl => exact hlookup hl
  | findsNone hl => exact hlookup hl
  | found hl _ => exact hlookup hl
  | requestless hl _ => exact hlookup hl
  | remembers => exact Registry.passes_rememberCode _
  | _ => exact .refl FlowRecord.reads_refl _

end MatrixCrypto
