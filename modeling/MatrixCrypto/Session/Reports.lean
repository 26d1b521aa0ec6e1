import MatrixCrypto.Handout.Sections
import MatrixCrypto.Session.Pump
import MatrixCrypto.Signing.Gate

/-!
# Reports that are refused

What `mark_request_sent` and `mark_request_failed` leave when they refuse, which bodies
never reach upstream, and what the two flags may do over a run.

## Main definitions

* `NoResponse` — a body that is no success response of a kind.
* `PumpCall.Reports` — a call in flight is a `mark_request_sent`.
* `RefusalsChangeNothing` — what a refused report leaves, and the law of the flags.

## Main results

* `refuseANonResponse_eq_error` — **what is refused before upstream sees it.**
* `reports_next` — only the section that returns a success writes the registry.
* `keptByWrites_answered`, `keptByWrites_apart` — the two laws of the flags.
* `refusals_change_nothing` — a refused report changes nothing.
-/

namespace MatrixCrypto

open Lib

/-! ### Bodies that are no response -/

/-- The body is no success response of the kind. -/
inductive NoResponse (P : Parsers) (kind : PendingKind) (body : String) : Prop
  | notJson (hbody : body.isEmpty = false) (h : P.fromStr body = none)
  | notAnObject {v : Json} (hbody : body.isEmpty = false) (h : P.fromStr body = some v)
      (hv : v.asObject? = none)
  /-- It carries a mark of an error at its top level. -/
  | marked {v : Json} {object : List (String × Json)} {mark : String}
      (hbody : body.isEmpty = false) (h : P.fromStr body = some v) (hv : v.asObject? = some object)
      (hmark : mark ∈ ["errcode", "error", "flows"]) (hin : Json.containsKey object mark = true)
  /-- It has fields, and none the kind's response declares. -/
  | undeclared {v : Json} {object : List (String × Json)}
      (hbody : body.isEmpty = false) (h : P.fromStr body = some v) (hv : v.asObject? = some object)
      (hne : object ≠ []) (hnone : ∀ f ∈ object, f.1 ∉ kind.declaredResponseFields)

/-- An object's fields carry a mark of an error. -/
theorem containsMark_iff {object : List (String × Json)} :
    (Json.containsKey object "errcode" || Json.containsKey object "error" ||
      Json.containsKey object "flows") = true ↔
        ∃ mark ∈ ["errcode", "error", "flows"], Json.containsKey object mark = true := by
  simp [Bool.or_eq_true, or_assoc]

/-- An object has fields, and none of them is declared. -/
theorem undeclared_iff {kind : PendingKind} {object : List (String × Json)} :
    (!object.isEmpty && !object.any (fun f => kind.declaredResponseFields.contains f.1)) = true ↔
      object ≠ [] ∧ ∀ f ∈ object, f.1 ∉ kind.declaredResponseFields := by
  simp

section

variable {P : Parsers} {kind : PendingKind} {body : String}

/-- **What is refused before upstream sees it**: exactly the bodies that are no success
response of the kind. -/
theorem refuseANonResponse_eq_error :
    refuseANonResponse P kind body = .error .malformedPayload ↔ NoResponse P kind body := by
  unfold refuseANonResponse
  constructor
  · intro h
    cases hbody : body.isEmpty with
    | true =>
      rw [if_pos hbody] at h
      cases h
    | false =>
      rw [if_neg (by simp [hbody])] at h
      cases hparse : P.fromStr body with
      | none => exact .notJson hbody hparse
      | some v =>
        cases hv : v.asObject? with
        | none => exact .notAnObject hbody hparse hv
        | some object =>
          simp only [hparse, hv] at h
          split at h
          · next hmarked =>
            obtain ⟨mark, hmark, hin⟩ := containsMark_iff.mp hmarked
            exact .marked hbody hparse hv hmark hin
          · split at h
            · next hundeclared =>
              obtain ⟨hne, hnone⟩ := undeclared_iff.mp hundeclared
              exact .undeclared hbody hparse hv hne hnone
            · cases h
  · intro h
    cases h with
    | notJson hbody hparse => simp only [hbody, hparse, Bool.false_eq_true, if_false]
    | notAnObject hbody hparse hv => simp only [hbody, hparse, hv, Bool.false_eq_true, if_false]
    | marked hbody hparse hv hmark hin =>
      simp only [hbody, hparse, hv, Bool.false_eq_true, if_false]
      rw [if_pos (containsMark_iff.mpr ⟨_, hmark, hin⟩)]
    | undeclared hbody hparse hv hne hnone =>
      simp only [hbody, hparse, hv, Bool.false_eq_true, if_false]
      rw [if_pos (undeclared_iff.mpr ⟨hne, hnone⟩), ite_self]

end

/-! ### The sections of a report -/

/-- The call is a `mark_request_sent` of the id. -/
inductive PumpCall.Reports (id : String) : PumpCall → Prop
  | mark (body : String) : Reports id (.mark id body)
  | marking (body : String) (kind : PendingKind) : Reports id (.marking id body kind)
  | settling (answer : AnswerAboutAccount) : Reports id (.settling id answer)

/-- **Only the section that returns a success writes the registry**: after any other the report
goes on or has failed, and the registry is as it was. -/
theorem reports_next {P : Parsers} {account id : String} {s t : PumpState} {c : PumpCall}
    {r : PumpCall ⊕ PumpResult} (hc : c.Reports id) (h : PumpNext P account s c t r) :
    r = .inr (.marked id (.ok ())) ∨
      t.requests = s.requests ∧
        ((∃ c', r = .inl c' ∧ c'.Reports id) ∨ ∃ e, r = .inr (.marked id (.error e))) := by
  cases hc with
  | mark body =>
    cases h with
    | markLookup hp hr => exact Or.inr ⟨rfl, Or.inl ⟨_, rfl, .marking _ _⟩⟩
    | markUnknown hp => exact Or.inr ⟨rfl, Or.inr ⟨_, rfl⟩⟩
    | markRefused hp hr => exact Or.inr ⟨rfl, Or.inr ⟨_, rfl⟩⟩
  | marking body kind =>
    cases h with
    | markTrip hm => exact Or.inr ⟨rfl, Or.inl ⟨_, rfl, .settling _⟩⟩
    | markTripFails hm => exact Or.inr ⟨rfl, Or.inr ⟨_, rfl⟩⟩
  | settling answer =>
    cases h with
    | markSection => exact Or.inl rfl

/-- A report of a body that is no response ends at its first section, which is no trip. -/
theorem refused_next {P : Parsers} {account id body : String} {s t : PumpState} {entry : Pending}
    {r : PumpCall ⊕ PumpResult} (hp : s.requests.pending.get? id = some entry)
    (hbody : NoResponse P entry.kind body) (h : PumpNext P account s (.mark id body) t r) :
    t = s ∧ r = .inr (.marked id (.error .malformedPayload)) := by
  have herror := refuseANonResponse_eq_error.mpr hbody
  cases h with
  | @markLookup _ _ entry' hp' hr =>
    have hentry : entry = entry' := Option.some.inj (hp.symm.trans hp')
    subst hentry
    rw [herror] at hr
    cases hr
  | markUnknown hp' =>
    rw [hp] at hp'
    cases hp'
  | @markRefused _ _ entry' e hp' hr =>
    have hentry : entry = entry' := Option.some.inj (hp.symm.trans hp')
    subst hentry
    rw [herror] at hr
    cases hr
    exact ⟨rfl, rfl⟩

/-- A pending id whose body is no response is refused whatever the trip would come to. -/
theorem markRequestSent_refused {P : Parsers} {account id body : String} {p : Process}
    {entry : Pending} (hp : p.requests.pending.get? id = some entry)
    (hbody : NoResponse P entry.kind body) (trip : Option Consumed) :
    markRequestSent P account p id body trip = (.error .malformedPayload, p) := by
  have herror := refuseANonResponse_eq_error.mpr hbody
  simp only [markRequestSent, hp, herror]

/-! ### The laws of the flags -/

theorem unsettled_of_queueing {s t : RequestState} (h : Queueing s t) :
    t.accountKeysAnswerUnsettled = s.accountKeysAnswerUnsettled := by
  cases h with
  | action r =>
    unfold RequestState.queueActionRequest
    split
    · rfl
    · rfl
  | toDevice rs => rw [RequestState.queueToDeviceRequests_eq]
  | claim c =>
    cases c with
    | none => rfl
    | some c => rfl
  | accountQuery id r => rfl
  | peerQuery id r => rfl

/-- **No write takes the answer back.** -/
theorem keptByWrites_answered : KeptByWrites fun s => s.accountKeysAnswered = true where
  queue := by
    intro s t hs hst
    rw [answered_of_queueing hst]
    exact hs
  keys := by
    intro s id r hs
    exact hs
  settle := by
    intro s id answer hs
    cases answer with
    | settled => rfl
    | _ => exact hs

/-- **No write sets both flags.** -/
theorem keptByWrites_apart : KeptByWrites fun s =>
    ¬ (s.accountKeysAnswered = true ∧ s.accountKeysAnswerUnsettled = true) where
  queue := by
    intro s t hs hst
    rw [answered_of_queueing hst, unsettled_of_queueing hst]
    exact hs
  keys := by
    intro s id r hs
    exact hs
  settle := by
    intro s id answer hs
    exact RequestState.settle_flags id answer hs

/-- What was answered stays answered, whatever sections come. -/
theorem registry_answered {account : String} {s t : RequestState} {cs : List RegistrySection}
    (hrun : (registry account).Run s cs t) (hs : s.accountKeysAnswered = true) :
    t.accountKeysAnswered = true := by
  refine hrun.invariant (I := fun s => s.accountKeysAnswered = true) ?_ hs
  intro s c t hs hstep
  subst hstep
  exact keptByWrites_answered.afterSection hs fun _ _ _ _ _ _ => hs

/-- No reachable registry has both flags. -/
theorem registry_apart {account : String} {s : RequestState}
    (hs : (registry account).Reachable s) :
    ¬ (s.accountKeysAnswered = true ∧ s.accountKeysAnswerUnsettled = true) := by
  refine hs.invariant (I := fun s =>
    ¬ (s.accountKeysAnswered = true ∧ s.accountKeysAnswerUnsettled = true)) ?_ ?_
  · intro s hinit
    rw [hinit]
    rintro ⟨h, -⟩
    cases h
  · intro s c t hs hstep
    subst hstep
    exact keptByWrites_apart.afterSection hs fun _ _ _ _ _ _ => hs

/-! ### A refused report -/

/-- What a refused report leaves, and the law of the flags. -/
structure RefusalsChangeNothing (P : Parsers) (account : String) : Prop where
  /-- A `mark_request_sent` that fails leaves the registry, and what was pending is still. -/
  sent : ∀ (p : Process) (id body : String) (trip : Option Consumed) (e : SessionError),
    (markRequestSent P account p id body trip).1 = .error e →
      (markRequestSent P account p id body trip).2.requests = p.requests
  /-- Among other calls: no section of one writes the registry, unless it returns a success. -/
  sections : ∀ (s t : PumpState) (id : String) (c : PumpCall) (r : PumpCall ⊕ PumpResult),
    c.Reports id → PumpNext P account s c t r →
      r = .inr (.marked id (.ok ())) ∨ t.requests = s.requests ∧
        ((∃ c', r = .inl c' ∧ c'.Reports id) ∨ ∃ e, r = .inr (.marked id (.error e)))
  /-- A body that is no response is refused, whatever the trip would come to. -/
  refused : ∀ (p : Process) (id body : String) (entry : Pending) (trip : Option Consumed),
    p.requests.pending.get? id = some entry → NoResponse P entry.kind body →
      markRequestSent P account p id body trip = (.error .malformedPayload, p)
  /-- It is refused before the trip: at the first section, with nothing changed anywhere. -/
  refusedFirst : ∀ (s t : PumpState) (id body : String) (entry : Pending)
    (r : PumpCall ⊕ PumpResult), s.requests.pending.get? id = some entry →
      NoResponse P entry.kind body → PumpNext P account s (.mark id body) t r →
        t = s ∧ r = .inr (.marked id (.error .malformedPayload))
  /-- A `mark_request_failed` changes nothing, whatever it returns. -/
  failed : ∀ (p : Process) (id : String) (status : ℕ), (markRequestFailed p id status).2 = p
  /-- What was answered stays answered. -/
  answered : ∀ (s t : RequestState) (cs : List RegistrySection),
    (registry account).Run s cs t → s.accountKeysAnswered = true → t.accountKeysAnswered = true
  /-- An answer that settled nothing is not remembered beside one that did. -/
  apart : ∀ s : RequestState, (registry account).Reachable s →
    ¬ (s.accountKeysAnswered = true ∧ s.accountKeysAnswerUnsettled = true)

/-- **A refused report changes nothing.** -/
theorem refusals_change_nothing (P : Parsers) (account : String) :
    RefusalsChangeNothing P account where
  sent := by
    intro p id body trip e h
    exact markRequestSent_error h
  sections := by
    intro s t id c r hc h
    exact reports_next hc h
  refused := by
    intro p id body entry trip hp hbody
    exact markRequestSent_refused hp hbody trip
  refusedFirst := by
    intro s t id body entry r hp hbody h
    exact refused_next hp hbody h
  failed := markRequestFailed_process
  answered := by
    intro s t cs hrun hs
    exact registry_answered hrun hs
  apart := by
    intro s hs
    exact registry_apart hs

/-- An object with an `errcode` beside a declared field is refused. -/
example : refuseANonResponse ⟨fun _ => some (.obj [("failures", .obj []),
    ("errcode", .str "M_UNKNOWN")]), fun _ _ => true, fun _ => none⟩ .keysClaim "body" =
      .error .malformedPayload := by decide

end MatrixCrypto
