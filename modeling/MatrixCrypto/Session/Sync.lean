import MatrixCrypto.Facade.Errors
import MatrixCrypto.Lib.JsonPrint
import Mathlib.Data.List.Nodup

/-!
# What a sync feeds the machine

`receive_sync_changes`, up to what it does with the machine: the five fields a payload may
have, each read on its own and each with a value when it is absent.

## Main definitions

* `structFields` — how a derived reader finds the fields of a struct.
* `SyncReaders` — the readers of ruma's types.
* `SyncChangesPayload`, `SyncChangesPayload.read` — the payload.
* `receiveSyncChanges` — the call.

## Main results

* `SyncChangesPayload.read_obj` — what is read of an object, field by field.
-/

namespace MatrixCrypto

open Lib Facade

/-- The fields a derived reader finds of a struct with these: of an object that repeats
none of them, by their names; of an array that is no longer, by their places. -/
def structFields (names : List String) : Json → Option (String → Option Json)
  | .obj fs =>
    if names.all fun name => (fs.filter fun f => f.1 == name).length ≤ 1 then
      some (Json.obj fs).field?
    else none
  | .arr vs =>
    if vs.length ≤ names.length then some fun name => (names.zip vs).lookup name else none
  | _ => none

/-- The readers of ruma's types, with what stands for an absent field. -/
structure SyncReaders where
  DeviceLists : Type
  Counts : Type
  Algorithm : Type
  deviceLists : Json → Option DeviceLists
  counts : Json → Option Counts
  algorithm : Json → Option Algorithm
  noLists : DeviceLists
  noCounts : Counts

/-- `SyncChangesPayload`.  An event stays as it was received. -/
structure SyncChangesPayload (R : SyncReaders) where
  toDeviceEvents : List Json
  changedDevices : R.DeviceLists
  oneTimeKeysCounts : R.Counts
  unusedFallbackKeys : Option (List R.Algorithm)
  nextBatchToken : Option String

/-- `SyncOutcome`. -/
structure SyncOutcome where
  toDeviceEventCount : ℕ
  newSessionCount : ℕ
  deriving DecidableEq, Repr

namespace SyncChangesPayload

/-- The fields of the payload, in the order it declares them. -/
def fieldNames : List String :=
  ["to_device_events", "changed_devices", "one_time_keys_counts", "unused_fallback_keys",
    "next_batch_token"]

/-- An array, whose elements stay as they are. -/
def readEvents : Json → Option (List Json)
  | .arr vs => some vs
  | _ => none

variable (R : SyncReaders)

/-- A list of algorithms, or none. -/
def readAlgorithms : Json → Option (Option (List R.Algorithm))
  | .null => some none
  | .arr vs => (vs.mapM R.algorithm).map some
  | _ => none

/-- A token, or none. -/
def readToken : Json → Option (Option String)
  | .null => some none
  | .str s => some (some s)
  | _ => none

/-- The payload of five fields, each of which may be absent. -/
def ofFields (field : String → Option Json) : Option (SyncChangesPayload R) := do
  let toDeviceEvents ← (field "to_device_events").elim (some []) readEvents
  let changedDevices ← (field "changed_devices").elim (some R.noLists) R.deviceLists
  let oneTimeKeysCounts ← (field "one_time_keys_counts").elim (some R.noCounts) R.counts
  let unusedFallbackKeys ← (field "unused_fallback_keys").elim (some none) (readAlgorithms R)
  let nextBatchToken ← (field "next_batch_token").elim (some none) readToken
  return { toDeviceEvents, changedDevices, oneTimeKeysCounts, unusedFallbackKeys, nextBatchToken }

/-- What a payload that has no field feeds the machine. -/
def nothing : SyncChangesPayload R := ⟨[], R.noLists, R.noCounts, none, none⟩

/-- The derived reader of the payload. -/
def read (v : Json) : Option (SyncChangesPayload R) := (structFields fieldNames v).bind (ofFields R)

/-- `serde_json::from_str`, into the payload.  What it keeps unread it goes through without a
limit to its depth or to its numbers. -/
def parse (text : String) : Option (SyncChangesPayload R) :=
  (Json.readDeepText (fun _ _ => true) text).bind (read R)

/-- **What is read of an object whose fields differ in name is what its five are read as.** -/
theorem read_obj {fs : List (String × Json)} (h : (fs.map Prod.fst).Nodup) :
    read R (.obj fs) = ofFields R (Json.obj fs).field? := by
  have honce : ∀ name, (fs.filter fun f => f.1 == name).length ≤ 1 := by
    intro name
    have hcount : (fs.filter fun f => f.1 == name).length = (fs.map Prod.fst).count name := by
      rw [List.count, List.countP_map, List.countP_eq_length_filter]
      rfl
    rw [hcount]
    exact List.nodup_iff_count_le_one.mp h name
  have hall : (fieldNames.all fun name => (fs.filter fun f => f.1 == name).length ≤ 1) = true := by
    rw [List.all_eq_true]
    intro name _
    exact decide_eq_true (honce name)
  have hfields : structFields fieldNames (.obj fs) = some (Json.obj fs).field? := if_pos hall
  rw [read, hfields, Option.bind_some]

end SyncChangesPayload

/-- `receive_sync_changes`: the machine makes of the payload the events it processed and the
room keys it gained, or it fails; it is `none` before one is created.  The flows a sync moves
and the queries it owes are queued after it. -/
def receiveSyncChanges (R : SyncReaders) (rawJson : String)
    (machine : Option (SyncChangesPayload R → Except Unit (ℕ × ℕ))) :
    Except SessionFfiError SyncOutcome :=
  match SyncChangesPayload.parse R rawJson with
  | none => .error .malformedPayload
  | some payload =>
    match machine with
    | none => .error .notInitialised
    | some receive =>
      match receive payload with
      | .error _ => .error .failed
      | .ok (events, roomKeys) => .ok ⟨events % 2 ^ 32, roomKeys % 2 ^ 32⟩

end MatrixCrypto
