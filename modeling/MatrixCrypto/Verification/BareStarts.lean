import MatrixCrypto.Lib.JsonText
import MatrixCrypto.Verification.Identifier

/-!
# The bare starts of a sync

A comparison nobody requested is known by its start event alone, which is looked for
among the to-device events a sync hands back.  An event's text is searched for the
event type before it is parsed, so that most events are not.

## Main definitions

* `ProcessedToDeviceEvent` — an event, as upstream hands it back.
* `bareStartCandidates` — the starts found, each by its sender and transaction id.
* `everyStart` — the same with every event parsed.
* `ProcessedToDeviceEvent.Starts`, `ProcessedToDeviceEvent.SpellsStart` — what makes an event a
  start once it is parsed, and what the search looks for.

## Main results

* `bareStartCandidates_sublist` — nothing is found that parsing would not find.
* `bareStartCandidates_eq_everyStart_iff` — **the search changes nothing just when every
  start spells its type out.**
* `bareStartCandidates_of_unescaped` — so it is where no text has an escape.
* `start_skipped` — a start whose type is spelled with an escape.
-/

namespace MatrixCrypto

open Lib

/-! ### Events -/

/-- A to-device event as upstream hands it back, with its JSON text; one that arrived
encrypted comes decrypted, where it could be. -/
inductive ProcessedToDeviceEvent
  | decrypted (raw : String)
  | unableToDecrypt (raw : String)
  | plainText (raw : String)
  | invalid (raw : String)
  deriving DecidableEq, Repr

/-- `as_raw`: the text of the event. -/
def ProcessedToDeviceEvent.asRaw : ProcessedToDeviceEvent → String
  | decrypted raw | unableToDecrypt raw | plainText raw | invalid raw => raw

/-- What reads the texts: JSON, and user identifiers. -/
structure EventParsers where
  fromStr : String → Option Json
  isUserId : String → Bool

/-- `START_EVENT_TYPE`: the to-device event that opens a comparison. -/
def startEventType : String := "m.key.verification.start"

/-- `contains`: the pattern stands somewhere in the text. -/
def containsText (text pattern : String) : Bool := decide (pattern.toList <:+: text.toList)

/-- The sender and the transaction id of an event that is a start, from its text. -/
def startOf (P : EventParsers) (raw : String) : Option (String × String) := do
  let event ← P.fromStr raw
  let eventType ← (event.field? "type").bind Json.asStr?
  if eventType ≠ startEventType then none
  else do
    let sender ← (event.field? "sender").bind Json.asStr?
    if !P.isUserId sender then none
    else do
      let content ← event.field? "content"
      let transaction ← (content.field? "transaction_id").bind Json.asStr?
      some (sender, transaction)

/-- `bare_start_candidates`. -/
def bareStartCandidates (P : EventParsers) (processed : List ProcessedToDeviceEvent) :
    List (String × String) :=
  processed.filterMap fun event =>
    let raw := event.asRaw
    -- before the parse, since most events are of other types
    if !containsText raw startEventType then none
    else startOf P raw

/-- The same with every event parsed. -/
def everyStart (P : EventParsers) (processed : List ProcessedToDeviceEvent) :
    List (String × String) :=
  processed.filterMap fun event => startOf P event.asRaw

/-! ### What a start is -/

/-- The event, once it is parsed, opens the comparison: its type says so, its sender is
that user, and it names that transaction. -/
def ProcessedToDeviceEvent.Starts (P : EventParsers) (event : ProcessedToDeviceEvent)
    (start : String × String) : Prop :=
  ∃ v content, P.fromStr event.asRaw = some v ∧ v.field? "type" = some (.str startEventType) ∧
    v.field? "sender" = some (.str start.1) ∧ P.isUserId start.1 = true ∧
    v.field? "content" = some content ∧ content.field? "transaction_id" = some (.str start.2)

/-- The event's text has the type of a start spelled out somewhere. -/
def ProcessedToDeviceEvent.SpellsStart (event : ProcessedToDeviceEvent) : Prop :=
  containsText event.asRaw startEventType = true

variable {P : EventParsers} {processed : List ProcessedToDeviceEvent}

theorem bind_asStr?_eq_some {v : Option Json} {s : String} :
    v.bind Json.asStr? = some s ↔ v = some (.str s) := by
  cases v with
  | none => simp
  | some v => cases v <;> simp [Json.asStr?]

/-- What is read of an event's text is the comparison it opens. -/
theorem startOf_eq_some {event : ProcessedToDeviceEvent} {start : String × String} :
    startOf P event.asRaw = some start ↔ event.Starts P start := by
  constructor
  · intro h
    unfold startOf at h
    obtain ⟨v, hv, h⟩ := Option.bind_eq_some_iff.mp h
    obtain ⟨eventType, htype, h⟩ := Option.bind_eq_some_iff.mp h
    split at h
    · cases h
    next hstart =>
    obtain rfl := not_ne_iff.mp hstart
    obtain ⟨sender, hsender, h⟩ := Option.bind_eq_some_iff.mp h
    split at h
    · cases h
    next huser =>
    obtain ⟨content, hcontent, h⟩ := Option.bind_eq_some_iff.mp h
    obtain ⟨transaction, htransaction, h⟩ := Option.bind_eq_some_iff.mp h
    cases h
    exact ⟨v, content, hv, bind_asStr?_eq_some.mp htype, bind_asStr?_eq_some.mp hsender,
      by simpa using huser, hcontent, bind_asStr?_eq_some.mp htransaction⟩
  · rintro ⟨v, content, hv, htype, hsender, huser, hcontent, htransaction⟩
    unfold startOf
    simp [hv, htype, hsender, huser, hcontent, htransaction, Json.asStr?]

/-! ### What the search leaves out -/

/-- Filtering a list first leaves what a partial function gives of it as it was just
when it gives nothing of what is dropped. -/
theorem filterMap_filter_eq_iff {α β : Type} {p : α → Bool} {f : α → Option β} {l : List α} :
    (l.filter p).filterMap f = l.filterMap f ↔ ∀ a ∈ l, (f a).isSome = true → p a = true := by
  induction l with
  | nil => simp
  | cons a l ih =>
    rw [List.forall_mem_cons, ← ih]
    cases hf : f a with
    | none => by_cases hp : p a = true <;> simp [hp, hf]
    | some b =>
      by_cases hp : p a = true
      · simp [hp, hf]
      · -- what is left is shorter, and cannot make up for the one dropped
        have hlength : ((l.filter p).filterMap f).length ≤ (l.filterMap f).length :=
          (List.filter_sublist.filterMap f).length_le
        rw [List.filter_cons_of_neg hp, List.filterMap_cons_some hf]
        constructor
        · intro h
          rw [h, List.length_cons] at hlength
          omega
        · intro h
          exact absurd (h.1 rfl) hp

/-- The search filters the events, and those left are parsed. -/
theorem bareStartCandidates_eq (P : EventParsers) (processed : List ProcessedToDeviceEvent) :
    bareStartCandidates P processed =
      everyStart P (processed.filter fun event => containsText event.asRaw startEventType) := by
  rw [bareStartCandidates, everyStart, List.filterMap_filter]
  congr 1
  funext event
  cases hcontains : containsText event.asRaw startEventType <;> simp [hcontains]

/-- **Nothing is found that parsing every event would not find.** -/
theorem bareStartCandidates_sublist (P : EventParsers) (processed : List ProcessedToDeviceEvent) :
    (bareStartCandidates P processed).Sublist (everyStart P processed) := by
  rw [bareStartCandidates_eq]
  exact List.filter_sublist.filterMap _

/-- **The search changes nothing just when every start spells its type out.** -/
theorem bareStartCandidates_eq_everyStart_iff (P : EventParsers)
    (processed : List ProcessedToDeviceEvent) :
    bareStartCandidates P processed = everyStart P processed ↔
      ∀ event ∈ processed, (∃ start, event.Starts P start) → event.SpellsStart := by
  rw [bareStartCandidates_eq, everyStart, everyStart, filterMap_filter_eq_iff]
  refine forall₂_congr fun event _ => ?_
  rw [Option.isSome_iff_exists]
  exact imp_congr_left (exists_congr fun start => startOf_eq_some)

/-! ### Texts without escapes -/

/-- The parsers whose JSON is read as its texts are defined. -/
def textParsers (fits : Int → Int → Bool) (isUserId : String → Bool) : EventParsers where
  fromStr := Json.readText fits
  isUserId := isUserId

/-- A start without a backslash in its text spells its type out. -/
theorem spellsStart_of_unescaped {fits : Int → Int → Bool} {isUserId : String → Bool}
    {event : ProcessedToDeviceEvent} {start : String × String}
    (h : event.Starts (textParsers fits isUserId) start) (ht : '\\' ∉ event.asRaw.toList) :
    event.SpellsStart := by
  obtain ⟨v, -, hv, htype, -⟩ := h
  exact decide_eq_true (Json.readText_spelled hv ht ((Json.Holds.str _).of_field? htype))

/-- **Where no text has an escape, the search changes nothing.** -/
theorem bareStartCandidates_of_unescaped (fits : Int → Int → Bool) (isUserId : String → Bool)
    {processed : List ProcessedToDeviceEvent}
    (h : ∀ event ∈ processed, '\\' ∉ event.asRaw.toList) :
    bareStartCandidates (textParsers fits isUserId) processed =
      everyStart (textParsers fits isUserId) processed := by
  rw [bareStartCandidates_eq, everyStart, everyStart, filterMap_filter_eq_iff]
  intro event hevent hsome
  obtain ⟨start, hstart⟩ := Option.isSome_iff_exists.mp hsome
  exact spellsStart_of_unescaped (startOf_eq_some.mp hstart) (h event hevent)

/-! ### What becomes of a start that is left out -/

/-- **A pass announces no flow whose every start was left out.** -/
theorem not_announced_of_left_out {u : Upstream} (hu : u.Coherent) {start : String × String}
    (h : start ∉ bareStartCandidates P processed) :
    ∀ c ∈ bareStarts u (bareStartCandidates P processed), (c.user, c.flowId) ≠ start := by
  intro c hc heq
  obtain ⟨start', hstart', hbare⟩ := List.mem_filterMap.mp hc
  obtain ⟨comparison, hcomparison, rfl⟩ := bareStart_eq_some hbare
  obtain ⟨hid, huser⟩ := hu.sas _ _ _ hcomparison
  obtain rfl : start' = start := by
    rw [← heq]
    exact Prod.ext huser.symm hid.symm
  exact h hstart'

/-- A start whose type is spelled with an escape, for an `s`. -/
def escapedStart : ProcessedToDeviceEvent := .decrypted
  ("\x7b\"type\":\"m.key.verification.\\u0073tart\",\"sender\":\"@bob:example.org\"," ++
    "\"content\":\x7b\"transaction_id\":\"t1\"\x7d\x7d")

/-- Parsers that take every number, and a user identifier by its first character. -/
def plainParsers : EventParsers :=
  textParsers (fun _ _ => true) fun id => id.toList.head? == some '@'

/-- **A start is left out**: the search for its type does not find it in the text. -/
theorem start_skipped : ¬ ∀ processed, bareStartCandidates plainParsers processed =
    everyStart plainParsers processed := by
  intro h
  have hskipped : bareStartCandidates plainParsers [escapedStart] = [] := by decide +kernel
  have hfound : everyStart plainParsers [escapedStart] = [("@bob:example.org", "t1")] := by
    decide +kernel
  rw [h, hfound] at hskipped
  cases hskipped

end MatrixCrypto
