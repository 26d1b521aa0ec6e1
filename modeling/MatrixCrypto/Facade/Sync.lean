import MatrixCrypto.Facade.Stringify
import MatrixCrypto.Session.Sync

/-!
# From a `/sync` response to the machine

A product maps a `/sync` response to the five fields the core reads, by `encryptionSlice`,
and hands them over by `receiveSyncChanges`, which refuses a payload that has some field but
none of the five.

## Main definitions

* `syncDeltaNamesNoRecognisedField`, `encryptionSlice`, `receiveSyncChanges` — the calls.
* `payloadOf`, `writtenFields` — the five fields, as the core reads them.

## Main results

* `receiveSyncChanges_eq` — **what the machine is fed of what a caller hands over.**
* `receiveSyncChanges_encryptionSlice` — **what the machine is fed of a `/sync` response.**
-/

namespace MatrixCrypto
namespace Facade

open Lib

namespace Payload

/-- `typeof v === 'object' && v !== null`. -/
def isObject : Payload → Bool
  | arr _ | obj _ => true
  | _ => false

/-- `Object.keys`, of an object. -/
def keys : Payload → List String
  | arr elements => (List.range elements.length).map toString
  | obj properties => properties.map Prod.fst
  | _ => []

end Payload

/-- `RECOGNISED_SYNC_FIELDS`. -/
def recognisedSyncFields : List String :=
  ["to_device_events", "changed_devices", "one_time_keys_counts", "unused_fallback_keys",
    "next_batch_token"]

/-- `syncDeltaNamesNoRecognisedField`. -/
def syncDeltaNamesNoRecognisedField (syncDelta : Payload) : Bool :=
  if !syncDelta.isObject then false
  else 0 < syncDelta.keys.length && !syncDelta.keys.any fun key => recognisedSyncFields.contains key

/-- The five fields of a `/sync` response, under the names the core has for them. -/
def renamedFields (sync : Payload) : List (String × Payload) :=
  let toDevice := sync.get "to_device"
  [("to_device_events", toDevice.get "events"),
    ("changed_devices", sync.get "device_lists"),
    ("one_time_keys_counts", sync.get "device_one_time_keys_count"),
    ("unused_fallback_keys", sync.get "device_unused_fallback_key_types"),
    ("next_batch_token", sync.get "next_batch")]

/-- `encryptionSlice`, of a response that is neither `null` nor `undefined`, on which it throws: of
the five fields, those that are there. -/
def encryptionSlice (sync : Payload) : Payload :=
  .obj ((renamedFields sync).filter fun p => p.2.isDefined)

section

variable (N : Json.Numerals fun _ _ => true) (R : SyncReaders)

/-- `receiveSyncChanges`, over the core's call. -/
def receiveSyncChanges (syncDelta : Payload)
    (machine : Option (SyncChangesPayload R → Except Unit (ℕ × ℕ))) : Except CryptoError Unit :=
  if syncDeltaNamesNoRecognisedField syncDelta then .error malformedPayload
  else
    match stringifyOrMalformed N syncDelta with
    | .error e => .error e
    | .ok syncDeltaJson =>
      match MatrixCrypto.receiveSyncChanges R syncDeltaJson machine with
      | .error e => .error (toCryptoError ((FfiError.session e).thrown none))
      | .ok _ => .ok ()

/-! ### What the machine is fed -/

/-- What a call comes to once its payload is read, or is not. -/
def feeds (machine : Option (SyncChangesPayload R → Except Unit (ℕ × ℕ))) :
    Option (SyncChangesPayload R) → Except CryptoError Unit
  | none => .error malformedPayload
  | some payload =>
    match machine with
    | none => .error (toCryptoError ((FfiError.session .notInitialised).thrown none))
    | some receive =>
      match receive payload with
      | .error _ => .error (toCryptoError ((FfiError.session .failed).thrown none))
      | .ok _ => .ok ()

/-- The payload of an object's five fields, when nothing of it throws. -/
def writtenFields (properties : List (String × Payload)) : Option (SyncChangesPayload R) :=
  if properties.all fun p => p.2.toJson.isOk then
    SyncChangesPayload.ofFields R fun name => ((Payload.obj properties).get name).json?
  else none

/-- The payload of what a caller hands over. -/
def payloadOf : Payload → Option (SyncChangesPayload R)
  | .arr [] => some (.nothing R)
  | .obj properties =>
    if properties = [] ∨ ∃ p ∈ properties, p.1 ∈ recognisedSyncFields then
      writtenFields R properties
    else none
  | _ => none

/-- What a call comes to whose text reads as a value. -/
theorem receiveSyncChanges_of_read (v : Handed N) {j : Json}
    (machine : Option (SyncChangesPayload R → Except Unit (ℕ × ℕ)))
    (hnames : syncDeltaNamesNoRecognisedField v.value = false)
    (hj : v.value.toJson = .ok (some j)) :
    receiveSyncChanges N R v.value machine = feeds R machine (SyncChangesPayload.read R j) := by
  have htext : stringifyOrMalformed N v.value = .ok (Json.printText N j) :=
    stringifyOrMalformed_eq_ok.mpr ⟨j, hj, rfl⟩
  have hparse : SyncChangesPayload.parse R (Json.printText N j) = SyncChangesPayload.read R j := by
    unfold SyncChangesPayload.parse
    rw [Json.readDeepText_printText (v.sound.written hj), Option.bind_some]
  unfold receiveSyncChanges MatrixCrypto.receiveSyncChanges
  simp only [hnames, htext, hparse]
  cases SyncChangesPayload.read R j with
  | none => rfl
  | some payload =>
    cases machine with
    | none => rfl
    | some receive =>
      simp only [feeds]
      cases receive payload <;> rfl

/-- A refused payload feeds the machine nothing. -/
theorem receiveSyncChanges_of_named (v : Payload)
    (machine : Option (SyncChangesPayload R → Except Unit (ℕ × ℕ)))
    (hnames : syncDeltaNamesNoRecognisedField v = true) :
    receiveSyncChanges N R v machine = .error malformedPayload := by
  unfold receiveSyncChanges
  rw [if_pos hnames]

theorem receiveSyncChanges_of_no_text (v : Payload)
    (machine : Option (SyncChangesPayload R → Except Unit (ℕ × ℕ)))
    (hj : ∀ j, v.toJson ≠ .ok (some j)) :
    receiveSyncChanges N R v machine = .error malformedPayload := by
  have htext : stringifyOrMalformed N v = .error malformedPayload := by
    unfold stringifyOrMalformed
    split
    · rfl
    · rfl
    · next j h => exact absurd h (hj j)
  unfold receiveSyncChanges
  split
  · rfl
  · rw [htext]

/-- An object is refused for its names when it has some, and none of the five. -/
theorem syncDeltaNamesNoRecognisedField_obj (ps : List (String × Payload)) :
    syncDeltaNamesNoRecognisedField (.obj ps) = false ↔
      ps = [] ∨ ∃ p ∈ ps, p.1 ∈ recognisedSyncFields := by
  simp only [syncDeltaNamesNoRecognisedField, Payload.isObject, Payload.keys]
  cases ps with
  | nil => simp
  | cons p ps => simpa using or_iff_not_imp_left.symm

/-- The keys of an array are numbers, and none of the five. -/
theorem syncDeltaNamesNoRecognisedField_arr (vs : List Payload) :
    syncDeltaNamesNoRecognisedField (.arr vs) = true ↔ vs ≠ [] := by
  have hname : ∀ name ∈ recognisedSyncFields, '_' ∈ name.toList := by
    intro name hmem
    simp only [recognisedSyncFields, List.mem_cons, List.not_mem_nil, or_false] at hmem
    rcases hmem with rfl | rfl | rfl | rfl | rfl <;> simp
  have hindex : ∀ k : ℕ, k.repr ∉ recognisedSyncFields := by
    intro k hk
    have hc := hname _ hk
    have htext : k.repr.toList = Nat.toDigits 10 k := by
      rw [← Nat.toString_eq_repr, Nat.toString_eq_ofList_toDigits, String.toList_ofList]
    rw [htext] at hc
    exact absurd (Nat.isDigit_of_mem_toDigits (by omega) (by omega) hc) (by decide)
  simp only [syncDeltaNamesNoRecognisedField, Payload.isObject, Payload.keys]
  cases vs with
  | nil => simp
  | cons v vs => simp [hindex]

theorem all_isOk_iff {ps : List (String × Payload)} :
    (ps.all fun p => p.2.toJson.isOk) = true ↔ ∃ fs, Payload.propertiesToJson ps = .ok fs := by
  rw [Payload.exists_propertiesToJson, List.all_eq_true]
  refine forall₂_congr fun p _ => ?_
  cases p.2.toJson <;> simp [Except.isOk, Except.toBool]

/-- What is read of an object whose properties do not throw. -/
theorem receiveSyncChanges_of_written {ps : List (String × Payload)}
    (hsound : (Payload.obj ps).Sound N)
    (machine : Option (SyncChangesPayload R → Except Unit (ℕ × ℕ)))
    (hnames : syncDeltaNamesNoRecognisedField (.obj ps) = false) :
    receiveSyncChanges N R (.obj ps) machine = feeds R machine (writtenFields R ps) := by
  unfold writtenFields
  split
  · next hall =>
    obtain ⟨fs, hfs⟩ := all_isOk_iff.mp hall
    have hj : (Payload.obj ps).toJson = .ok (some (.obj fs)) := by
      rw [Payload.toJson, hfs]
      rfl
    cases hsound with
    | obj hnodup hvalues =>
      have hfields := (Payload.sublist_propertiesToJson hfs).nodup hnodup
      rw [receiveSyncChanges_of_read N R ⟨.obj ps, .obj hnodup hvalues⟩ machine hnames hj,
        SyncChangesPayload.read_obj R hfields, funext (Payload.field?_toJson hnodup hfs)]
  · next hall =>
    refine receiveSyncChanges_of_no_text N R _ machine fun j hj => hall ?_
    rw [Payload.toJson, bind_eq_ok] at hj
    obtain ⟨fs, hfs, -⟩ := hj
    exact all_isOk_iff.mpr ⟨fs, hfs⟩

/-- **What the machine is fed of what a caller hands over**, whatever it is: an object that
has a field of the five, or none at all, feeds what is read of the five, and an array without
elements feeds nothing; everything else is refused. -/
theorem receiveSyncChanges_eq (v : Handed N)
    (machine : Option (SyncChangesPayload R → Except Unit (ℕ × ℕ))) :
    receiveSyncChanges N R v.value machine = feeds R machine (payloadOf R v.value) := by
  obtain ⟨value, hsound⟩ := v
  cases value with
  | undefined => exact receiveSyncChanges_of_no_text N R _ machine fun j hj => nomatch hj
  | noText => exact receiveSyncChanges_of_no_text N R _ machine fun j hj => nomatch hj
  | unwritable => exact receiveSyncChanges_of_no_text N R _ machine fun j hj => nomatch hj
  | null => exact receiveSyncChanges_of_read N R ⟨.null, hsound⟩ machine rfl rfl
  | notFinite => exact receiveSyncChanges_of_read N R ⟨.notFinite, hsound⟩ machine rfl rfl
  | bool b => exact receiveSyncChanges_of_read N R ⟨.bool b, hsound⟩ machine rfl rfl
  | num m e => exact receiveSyncChanges_of_read N R ⟨.num m e, hsound⟩ machine rfl rfl
  | str t => exact receiveSyncChanges_of_read N R ⟨.str t, hsound⟩ machine rfl rfl
  | arr vs =>
    cases vs with
    | nil => exact receiveSyncChanges_of_read N R ⟨.arr [], hsound⟩ machine rfl rfl
    | cons w vs =>
      refine receiveSyncChanges_of_named N R _ machine ?_
      exact (syncDeltaNamesNoRecognisedField_arr _).mpr (List.cons_ne_nil w vs)
  | obj ps =>
    by_cases hnamed : ps = [] ∨ ∃ p ∈ ps, p.1 ∈ recognisedSyncFields
    · rw [payloadOf, if_pos hnamed]
      exact receiveSyncChanges_of_written N R hsound machine
        ((syncDeltaNamesNoRecognisedField_obj ps).mpr hnamed)
    · rw [payloadOf, if_neg hnamed]
      refine receiveSyncChanges_of_named N R _ machine ?_
      rw [← Bool.not_eq_false, syncDeltaNamesNoRecognisedField_obj]
      exact hnamed

/-! ### What it is fed of a response -/

theorem Payload.Sound.get {v : Payload} (h : v.Sound N) (name : String) : (v.get name).Sound N := by
  cases h with
  | @obj ps hnodup hvalues =>
    cases hf : ps.find? (·.1 == name) with
    | none =>
      simp only [Payload.get, hf]
      exact .undefined
    | some p =>
      simp only [Payload.get, hf]
      exact hvalues p (List.mem_of_find?_eq_some hf)
  | _ => exact .undefined

/-- The properties that are not there are those that are read as not there. -/
theorem get_filter_isDefined (ps : List (String × Payload)) (hnodup : (ps.map Prod.fst).Nodup)
    (name : String) :
    (Payload.obj (ps.filter fun p => p.2.isDefined)).get name = (Payload.obj ps).get name := by
  induction ps with
  | nil => rfl
  | cons p ps ih =>
    rw [List.map_cons, List.nodup_cons] at hnodup
    have hrest := ih hnodup.2
    simp only [Payload.get] at hrest ⊢
    by_cases hdefined : p.2.isDefined = true
    · rw [List.filter_cons, if_pos hdefined]
      by_cases hname : p.1 = name
      · simp [hname]
      · have hne : (p.1 == name) = false := beq_false_of_ne hname
        rw [List.find?_cons, List.find?_cons, hne]
        exact hrest
    · rw [List.filter_cons, if_neg hdefined, hrest]
      by_cases hname : p.1 = name
      · -- nothing else has the name, so it is read as not there on either side
        have hnone : ps.find? (fun q => q.1 == name) = none := by
          rw [List.find?_eq_none]
          intro q hq heq
          have hqname : q.1 = p.1 := by
            rw [hname]
            simpa using heq
          exact hnodup.1 (hqname ▸ List.mem_map_of_mem hq)
        have hundefined : p.2 = .undefined := by
          cases hp : p.2 <;> simp [hp, Payload.isDefined] at hdefined
          rfl
        simp [hnone, hname, hundefined]
      · simp [hname]

theorem nodup_renamedFields (sync : Payload) : ((renamedFields sync).map Prod.fst).Nodup := by
  simp [renamedFields]

/-- What is not there throws nothing. -/
theorem writtenFields_filter_isDefined (ps : List (String × Payload))
    (hnodup : (ps.map Prod.fst).Nodup) :
    writtenFields R (ps.filter fun p => p.2.isDefined) = writtenFields R ps := by
  have hall : ((ps.filter fun p => p.2.isDefined).all fun p => p.2.toJson.isOk) =
      ps.all fun p => p.2.toJson.isOk := by
    rw [List.all_filter]
    refine List.all_congr rfl fun p => ?_
    cases p.2 <;> simp [Payload.isDefined, Payload.toJson, Except.isOk, Except.toBool]
  unfold writtenFields
  rw [hall, funext (get_filter_isDefined ps hnodup)]

theorem sound_encryptionSlice {sync : Payload} (h : sync.Sound N) :
    (encryptionSlice sync).Sound N := by
  refine .obj ?_ fun p hp => ?_
  · exact (List.filter_sublist.map Prod.fst).nodup (nodup_renamedFields sync)
  · have hmem := List.mem_of_mem_filter hp
    simp only [renamedFields, List.mem_cons, List.not_mem_nil, or_false] at hmem
    rcases hmem with rfl | rfl | rfl | rfl | rfl
    · exact (h.get N _).get N _
    all_goals exact h.get N _

/-- **What the machine is fed of a `/sync` response**: exactly the five fields the core reads,
each as the response has it; whatever else the response holds changes nothing, and a response
without any of them is served. -/
theorem receiveSyncChanges_encryptionSlice (sync : Handed N)
    (machine : Option (SyncChangesPayload R → Except Unit (ℕ × ℕ))) :
    receiveSyncChanges N R (encryptionSlice sync.value) machine =
      feeds R machine (writtenFields R (renamedFields sync.value)) := by
  have hnames : syncDeltaNamesNoRecognisedField (encryptionSlice sync.value) = false := by
    rw [encryptionSlice, syncDeltaNamesNoRecognisedField_obj]
    cases hps : (renamedFields sync.value).filter fun p => p.2.isDefined with
    | nil => exact Or.inl rfl
    | cons p ps =>
      refine Or.inr ⟨p, List.mem_cons_self, ?_⟩
      have hmem : p ∈ renamedFields sync.value := by
        refine List.mem_of_mem_filter (p := fun p => p.2.isDefined) ?_
        rw [hps]
        exact List.mem_cons_self
      simp only [renamedFields, List.mem_cons, List.not_mem_nil, or_false] at hmem
      rcases hmem with rfl | rfl | rfl | rfl | rfl <;> simp [recognisedSyncFields]
  have hslice := receiveSyncChanges_of_written N R (sound_encryptionSlice N sync.sound) machine
    hnames
  rw [writtenFields_filter_isDefined R _ (nodup_renamedFields sync.value)] at hslice
  exact hslice

end

end Facade
end MatrixCrypto
