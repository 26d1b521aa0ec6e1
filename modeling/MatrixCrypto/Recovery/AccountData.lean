import MatrixCrypto.Lib.Json
import Mathlib.Data.List.Basic

/-!
# Account data

The account's global account data, as the homeserver keeps it: contents by event
type.  A content is a JSON text, and a write replaces the content of its type.

## Main definitions

* `AccountDataEntry`, `entry` — one event, and the content of a type.
* `SecretName`, `secrets` — the three secrets a recovery carries.
* `defaultKeyEventType`, `keyEventType` — the types of the pointer and of a key
  description.
* `put`, `puts`, `withoutPointer` — writes, and the list without its pointer.

## Main results

* `entry_puts` — what a type holds after some writes.
* `keyEventType_injective`, `keyEventType_ne_asStr` — no key description is
  another's, or a secret.
-/

namespace MatrixCrypto

open Lib

/-- One global account data event. -/
structure AccountDataEntry (Text : Type) where
  eventType : String
  /-- The event's content object, as JSON. -/
  content : Text

/-- What an entry becomes when another is written. -/
def AccountDataEntry.overwrite {Text : Type} (e d : AccountDataEntry Text) :
    AccountDataEntry Text := if d.eventType = e.eventType then e else d

/-- Global account data, as a caller hands it over. -/
abbrev AccountData (Text : Type) := List (AccountDataEntry Text)

/-- The secrets a recovery carries. -/
inductive SecretName
  | crossSigningMasterKey
  | crossSigningSelfSigningKey
  | crossSigningUserSigningKey
  deriving DecidableEq, Repr

/-- `as_str`: the event type of a secret. -/
def SecretName.asStr : SecretName → String
  | crossSigningMasterKey => "m.cross_signing.master"
  | crossSigningSelfSigningKey => "m.cross_signing.self_signing"
  | crossSigningUserSigningKey => "m.cross_signing.user_signing"

/-- `SECRETS`: the order the secrets are written and read in. -/
def secrets : List SecretName :=
  [.crossSigningMasterKey, .crossSigningSelfSigningKey, .crossSigningUserSigningKey]

/-- The event type that names which key is the account's default. -/
def defaultKeyEventType : String := "m.secret_storage.default_key"

/-- The event type of the description of a key. -/
def keyEventType (keyId : String) : String := "m.secret_storage.key." ++ keyId

namespace AccountData

variable {Text : Type}

/-- `entry`: the content of the first entry of a type. -/
def entry (data : AccountData Text) (eventType : String) : Option Text :=
  (data.find? fun e => e.eventType == eventType).map AccountDataEntry.content

/-- The server takes a write: the content of the type is replaced. -/
def put (data : AccountData Text) (e : AccountDataEntry Text) :
    AccountData Text :=
  if data.any fun d => d.eventType == e.eventType then data.map e.overwrite else data ++ [e]

/-- Writes, one by one. -/
def puts (data es : AccountData Text) : AccountData Text := es.foldl put data

/-- The list without its pointer. -/
def withoutPointer (data : AccountData Text) : AccountData Text :=
  data.filter fun e => e.eventType != defaultKeyEventType

section lookup

variable {data es : AccountData Text} {t : String}

theorem entry_cons (e : AccountDataEntry Text) (data : AccountData Text) (t : String) :
    entry (e :: data) t = if e.eventType = t then some e.content else entry data t := by
  unfold entry
  rw [List.find?_cons]
  by_cases h : e.eventType = t
  · rw [if_pos h, beq_iff_eq.mpr h]
    rfl
  · rw [if_neg h, beq_false_of_ne h]

theorem entry_eq_none_iff : entry data t = none ↔ ∀ e ∈ data, e.eventType ≠ t := by
  unfold entry
  rw [Option.map_eq_none_iff, List.find?_eq_none]
  simp

/-- Where the types all differ, every entry is the one of its type. -/
theorem entry_of_mem (hes : (es.map AccountDataEntry.eventType).Nodup) {e : AccountDataEntry Text}
    (he : e ∈ es) : entry es e.eventType = some e.content := by
  induction es with
  | nil => cases he
  | cons d es ih =>
    rw [List.map_cons, List.nodup_cons] at hes
    rw [entry_cons]
    rcases List.mem_cons.mp he with rfl | he
    · rw [if_pos rfl]
    · have hne : d.eventType ≠ e.eventType := fun h =>
        hes.1 (h ▸ List.mem_map_of_mem he)
      rw [if_neg hne]
      exact ih hes.2 he

theorem entry_map_overwrite_of_ne {e : AccountDataEntry Text} (h : e.eventType ≠ t) :
    entry (data.map e.overwrite) t = entry data t := by
  induction data with
  | nil => rfl
  | cons d data ih =>
    rw [List.map_cons, entry_cons, entry_cons, ih]
    by_cases hd : d.eventType = e.eventType
    · rw [AccountDataEntry.overwrite, if_pos hd, if_neg h,
        if_neg (fun hdt => h (hd.symm.trans hdt))]
    · rw [AccountDataEntry.overwrite, if_neg hd]

theorem entry_map_overwrite_self {e : AccountDataEntry Text}
    (h : ∃ d ∈ data, d.eventType = e.eventType) :
    entry (data.map e.overwrite) e.eventType = some e.content := by
  induction data with
  | nil =>
    obtain ⟨d, hd, -⟩ := h
    cases hd
  | cons d data ih =>
    rw [List.map_cons, entry_cons]
    by_cases hd : d.eventType = e.eventType
    · rw [AccountDataEntry.overwrite, if_pos hd, if_pos rfl]
    · rw [AccountDataEntry.overwrite, if_neg hd, if_neg hd]
      obtain ⟨d', hd', hdt⟩ := h
      rcases List.mem_cons.mp hd' with rfl | hd'
      · exact absurd hdt hd
      · exact ih ⟨d', hd', hdt⟩

/-- **What a type holds after one write.** -/
theorem entry_put (data : AccountData Text) (e : AccountDataEntry Text) (t : String) :
    entry (put data e) t = if e.eventType = t then some e.content else entry data t := by
  unfold put
  split
  · next hany =>
    by_cases ht : e.eventType = t
    · subst ht
      obtain ⟨d, hd, hdt⟩ := List.any_eq_true.mp hany
      rw [if_pos rfl, entry_map_overwrite_self ⟨d, hd, by simpa using hdt⟩]
    · rw [if_neg ht, entry_map_overwrite_of_ne ht]
  · next hany =>
    unfold entry
    rw [List.find?_append]
    by_cases ht : e.eventType = t
    · have hnone : data.find? (fun d => d.eventType == t) = none := by
        rw [List.find?_eq_none]
        intro d hd hdt
        refine hany (List.any_eq_true.mpr ⟨d, hd, ?_⟩)
        rw [ht]
        exact hdt
      rw [hnone, if_pos ht, List.find?_singleton, if_pos (by simpa using ht)]
      rfl
    · rw [if_neg ht, List.find?_singleton, if_neg (by simpa using ht), Option.or_none]

/-- **What a type holds after some writes** of types that all differ. -/
theorem entry_puts (hes : (es.map AccountDataEntry.eventType).Nodup) :
    ∀ data : AccountData Text,
      entry (puts data es) t = (entry es t).or (entry data t) := by
  induction es with
  | nil => intro data; rfl
  | cons e es ih =>
    intro data
    rw [List.map_cons, List.nodup_cons] at hes
    have hstep : puts data (e :: es) = puts (put data e) es := rfl
    rw [hstep, ih hes.2, entry_put, entry_cons]
    by_cases ht : e.eventType = t
    · have hnone : entry es t = none := by
        rw [entry_eq_none_iff]
        intro d hd hdt
        refine hes.1 (List.mem_map.mpr ⟨d, hd, ?_⟩)
        rw [hdt, ht]
      rw [if_pos ht, if_pos ht, hnone]
      rfl
    · rw [if_neg ht, if_neg ht]

theorem entry_withoutPointer (h : t ≠ defaultKeyEventType) :
    entry (withoutPointer data) t = entry data t := by
  induction data with
  | nil => rfl
  | cons e data ih =>
    unfold withoutPointer at ih ⊢
    rw [List.filter_cons, entry_cons]
    by_cases he : e.eventType = defaultKeyEventType
    · rw [if_neg (by simpa using he), ih, if_neg (fun ht => h (ht.symm.trans he))]
    · rw [if_pos (by simpa using he), entry_cons, ih]

end lookup

end AccountData

/-! ### No type is another -/

theorem keyEventType_injective {i j : String} (h : keyEventType i = keyEventType j) : i = j :=
  String.append_right_inj _ |>.mp h

/-- Two strings that differ within a prefix of one of them. -/
theorem append_ne_of_letter {front other : String} (rest : String) {n : ℕ}
    (hn : n < front.toList.length) (h : other.toList[n]? ≠ front.toList[n]?) :
    front ++ rest ≠ other := by
  rintro rfl
  refine h ?_
  rw [String.toList_append, List.getElem?_append_left hn]

theorem keyEventType_ne_defaultKeyEventType (keyId : String) :
    keyEventType keyId ≠ defaultKeyEventType :=
  append_ne_of_letter keyId (n := 17) (by decide) (by decide)

theorem keyEventType_ne_asStr (keyId : String) (name : SecretName) :
    keyEventType keyId ≠ name.asStr :=
  append_ne_of_letter keyId (n := 2) (by decide) (by cases name <;> decide)

theorem asStr_ne_defaultKeyEventType (name : SecretName) : name.asStr ≠ defaultKeyEventType := by
  cases name <;> decide

theorem asStr_injective {name name' : SecretName} (h : name.asStr = name'.asStr) :
    name = name' := by
  cases name <;> cases name' <;> first | rfl | simp [SecretName.asStr] at h

end MatrixCrypto
