import MatrixCrypto.Facade.Errors
import MatrixCrypto.Lib.Except
import MatrixCrypto.Lib.JsonPrint
import Mathlib.Data.List.Nodup

/-!
# Payloads a caller hands over

Several calls take any value at all and hand its JSON text on.  A value may have no text,
or a part of it none; what goes on is what is left, and the core reads it back.

## Main definitions

* `Payload` — what a caller may hand over.
* `Payload.toJson` — what `JSON.stringify` writes of it.
* `stringifyOrMalformed` — the text, or the refusal of a value that has none.
* `Payload.Sound`, `Handed` — the values there are.

## Main results

* `Handed.readDeepText_stringify` — **the core reads back what was written of a payload.**
* `Payload.field?_toJson` — a field of the object is what was written of the property.
-/

namespace MatrixCrypto
namespace Facade

open Lib

/-! ### Values -/

/-- A value of a caller's: data, whose properties run no code when they are read, and which has no
`toJSON` of its own. -/
inductive Payload
  | undefined
  /-- A function or a symbol. -/
  | noText
  /-- A big integer, or a reference back to an object around it, which has no properties here. -/
  | unwritable
  | null
  | bool (b : Bool)
  /-- A finite number, as the decimal it is written as. -/
  | num (mantissa exponent : Int)
  /-- An infinity, or what is not a number. -/
  | notFinite
  | str (s : String)
  | arr (elements : List Payload)
  /-- An object with its properties, in the order it lists them. -/
  | obj (properties : List (String × Payload))

namespace Payload

/-- A property, read off a value. -/
def get : Payload → String → Payload
  | obj properties, name => ((properties.find? (·.1 == name)).map Prod.snd).getD undefined
  | _, _ => undefined

/-- `v !== undefined`. -/
def isDefined : Payload → Bool
  | undefined => false
  | _ => true

mutual

/-- `JSON.stringify`, up to the spelling: it throws, or has no text, or a value. -/
def toJson : Payload → Except Unit (Option Json)
  | undefined | noText => .ok none
  | unwritable => .error ()
  | null | notFinite => .ok (some .null)
  | bool b => .ok (some (.bool b))
  | num m e => .ok (some (.num m e))
  | str s => .ok (some (.str s))
  | arr elements => do
    let vs ← elementsToJson elements
    return some (.arr vs)
  | obj properties => do
    let fs ← propertiesToJson properties
    return some (.obj fs)

/-- An element without a text is written as a null. -/
def elementsToJson : List Payload → Except Unit (List Json)
  | [] => .ok []
  | v :: vs => do
    let j ← v.toJson
    let js ← elementsToJson vs
    return j.getD .null :: js

/-- A property without a text is left out. -/
def propertiesToJson : List (String × Payload) → Except Unit (List (String × Json))
  | [] => .ok []
  | (name, v) :: ps => do
    let j ← v.toJson
    let fs ← propertiesToJson ps
    return (j.map fun j => (name, j)).toList ++ fs

end

/-- What is written of a value, if anything is. -/
def json? (v : Payload) : Option Json :=
  match v.toJson with
  | .ok j => j
  | .error _ => none

section

variable {fits : Int → Int → Bool} (N : Json.Numerals fits)

/-- The value is one there is: its numbers are, and no object has two properties of one
name. -/
inductive Sound : Payload → Prop
  | undefined : Sound undefined
  | noText : Sound noText
  | unwritable : Sound unwritable
  | null : Sound null
  | bool (b : Bool) : Sound (bool b)
  | num {m e : Int} (h : N.Has m e) : Sound (num m e)
  | notFinite : Sound notFinite
  | str (s : String) : Sound (str s)
  | arr {vs : List Payload} (h : ∀ v ∈ vs, Sound v) : Sound (arr vs)
  | obj {ps : List (String × Payload)} (names : (ps.map Prod.fst).Nodup)
      (h : ∀ p ∈ ps, Sound p.2) : Sound (obj ps)

end

/-! ### What is written -/

theorem mem_elementsToJson {vs : List Payload} : ∀ {js : List Json},
    elementsToJson vs = .ok js → ∀ j ∈ js, ∃ v ∈ vs, ∃ o, v.toJson = .ok o ∧ o.getD .null = j := by
  induction vs with
  | nil =>
    intro js h j hj
    cases h
    cases hj
  | cons v vs ih =>
    intro js h j hj
    simp only [elementsToJson, bind_eq_ok, pure_eq_ok] at h
    obtain ⟨o, ho, js', hjs', rfl⟩ := h
    rcases List.mem_cons.mp hj with rfl | hj
    · exact ⟨v, List.mem_cons_self, o, ho, rfl⟩
    · obtain ⟨w, hw, hwrite⟩ := ih hjs' j hj
      exact ⟨w, List.mem_cons_of_mem v hw, hwrite⟩

/-- The fields written are the properties that have a text. -/
theorem mem_propertiesToJson {ps : List (String × Payload)} : ∀ {fs : List (String × Json)},
    propertiesToJson ps = .ok fs → ∀ name j,
      (name, j) ∈ fs ↔ ∃ v, (name, v) ∈ ps ∧ v.toJson = .ok (some j) := by
  induction ps with
  | nil =>
    intro fs h name j
    cases h
    simp
  | cons p ps ih =>
    intro fs h name j
    obtain ⟨name', v'⟩ := p
    simp only [propertiesToJson, bind_eq_ok, pure_eq_ok] at h
    obtain ⟨o, ho, fs', hfs', rfl⟩ := h
    rw [List.mem_append, ih hfs' name j]
    constructor
    · intro hmem
      rcases hmem with hhead | ⟨v, hv, hwrite⟩
      · rw [Option.mem_toList, Option.map_eq_some_iff] at hhead
        obtain ⟨j', hj', heq⟩ := hhead
        cases heq
        exact ⟨v', List.mem_cons_self, by rw [ho, hj']⟩
      · exact ⟨v, List.mem_cons_of_mem _ hv, hwrite⟩
    · intro hmem
      obtain ⟨v, hv, hwrite⟩ := hmem
      rcases List.mem_cons.mp hv with heq | hv
      · cases heq
        rw [ho] at hwrite
        cases hwrite
        exact Or.inl (by simp)
      · exact Or.inr ⟨v, hv, hwrite⟩

/-- An object is written unless one of its properties throws. -/
theorem exists_propertiesToJson {ps : List (String × Payload)} :
    (∃ fs, propertiesToJson ps = .ok fs) ↔ ∀ p ∈ ps, ∃ o, p.2.toJson = .ok o := by
  induction ps with
  | nil => simp [propertiesToJson]
  | cons p ps ih =>
    obtain ⟨name, v⟩ := p
    simp only [propertiesToJson, bind_eq_ok, pure_eq_ok, List.forall_mem_cons, ← ih]
    constructor
    · intro h
      obtain ⟨fs, o, ho, fs', hfs', -⟩ := h
      exact ⟨⟨o, ho⟩, fs', hfs'⟩
    · intro h
      obtain ⟨⟨o, ho⟩, fs', hfs'⟩ := h
      exact ⟨_, o, ho, fs', hfs', rfl⟩

theorem sublist_propertiesToJson {ps : List (String × Payload)} : ∀ {fs : List (String × Json)},
    propertiesToJson ps = .ok fs → (fs.map Prod.fst).Sublist (ps.map Prod.fst) := by
  induction ps with
  | nil =>
    intro fs h
    cases h
    exact .slnil
  | cons p ps ih =>
    intro fs h
    obtain ⟨name, v⟩ := p
    simp only [propertiesToJson, bind_eq_ok, pure_eq_ok] at h
    obtain ⟨o, -, fs', hfs', rfl⟩ := h
    cases o with
    | none => exact (ih hfs').cons _
    | some j => exact (ih hfs').cons_cons _

/-- What is written of a value has numbers there are. -/
theorem Sound.written {fits : Int → Int → Bool} {N : Json.Numerals fits} {v : Payload}
    (h : v.Sound N) : ∀ {j : Json}, v.toJson = .ok (some j) → Json.Written N j := by
  induction h with
  | undefined => intro j hj; cases hj
  | noText => intro j hj; cases hj
  | unwritable => intro j hj; cases hj
  | null => intro j hj; cases hj; exact .null
  | notFinite => intro j hj; cases hj; exact .null
  | bool b => intro j hj; cases hj; exact .bool b
  | str s => intro j hj; cases hj; exact .str s
  | num h => intro j hj; cases hj; exact .num h
  | arr _ ih =>
    intro j hj
    simp only [toJson, bind_eq_ok, pure_eq_ok] at hj
    obtain ⟨js, hjs, heq⟩ := hj
    cases heq
    refine .arr fun w hw => ?_
    obtain ⟨v, hv, o, ho, rfl⟩ := mem_elementsToJson hjs w hw
    cases o with
    | none => exact .null
    | some j => exact ih v hv ho
  | obj _ _ ih =>
    intro j hj
    simp only [toJson, bind_eq_ok, pure_eq_ok] at hj
    obtain ⟨fs, hfs, heq⟩ := hj
    cases heq
    refine .obj fun f hf => ?_
    obtain ⟨v, hv, hwrite⟩ := (mem_propertiesToJson hfs f.1 f.2).mp hf
    exact ih _ hv hwrite

end Payload

namespace Payload

/-- **A field of the object written is what was written of the property.** -/
theorem field?_toJson {ps : List (String × Payload)} {fs : List (String × Json)}
    (hnames : (ps.map Prod.fst).Nodup) (h : propertiesToJson ps = .ok fs) (name : String) :
    (Json.obj fs).field? name = ((obj ps).get name).json? := by
  have hfs : (fs.map Prod.fst).Nodup := (sublist_propertiesToJson h).nodup hnames
  refine Option.ext fun j => ?_
  rw [Json.field?_eq_some_of_nodup hfs, mem_propertiesToJson h]
  have hget : ∀ v, (name, v) ∈ ps → (obj ps).get name = v := by
    intro v hv
    cases hf : ps.find? (·.1 == name) with
    | none =>
      have hno := List.find?_eq_none.mp hf (name, v) hv
      simp at hno
    | some p =>
      have hname : p.1 = name := by simpa using List.find?_some hf
      have heq := List.inj_on_of_nodup_map hnames (List.mem_of_find?_eq_some hf) hv hname
      simp [get, hf, heq]
  constructor
  · intro hmem
    obtain ⟨v, hv, hwrite⟩ := hmem
    rw [hget v hv, json?, hwrite]
  · intro hjson
    cases hf : ps.find? (·.1 == name) with
    | none =>
      simp [get, hf, json?, toJson] at hjson
    | some p =>
      have hname : p.1 = name := by simpa using List.find?_some hf
      have hmem := List.mem_of_find?_eq_some hf
      rw [← hname] at hget hjson ⊢
      refine ⟨p.2, hmem, ?_⟩
      rw [hget p.2 hmem, json?] at hjson
      split at hjson
      · next o ho => rw [ho, hjson]
      · cases hjson

end Payload

/-! ### Its text -/

/-- The error of a payload without a text. -/
def malformedPayload : CryptoError :=
  toCryptoError (.object .plain [] [("name", .string "MalformedPayload")])

section

variable {fits : Int → Int → Bool} (N : Json.Numerals fits)

/-- `stringifyOrMalformed`. -/
def stringifyOrMalformed (value : Payload) : Except CryptoError String :=
  match value.toJson with
  | .error _ => .error malformedPayload
  | .ok none => .error malformedPayload
  | .ok (some j) => .ok (Json.printText N j)

/-- A value there is. -/
structure Handed where
  value : Payload
  sound : value.Sound N

variable {N}

theorem stringifyOrMalformed_eq_ok {value : Payload} {text : String} :
    stringifyOrMalformed N value = .ok text ↔
      ∃ j, value.toJson = .ok (some j) ∧ Json.printText N j = text := by
  unfold stringifyOrMalformed
  split
  · next h => simp [h]
  · next h => simp [h]
  · next h => simp [h]

/-- **The core reads back what was written of a payload.** -/
theorem Handed.readDeepText_stringify (v : Handed N) {text : String}
    (h : stringifyOrMalformed N v.value = .ok text) :
    Json.readDeepText fits text = v.value.json? := by
  obtain ⟨j, hj, rfl⟩ := stringifyOrMalformed_eq_ok.mp h
  rw [Json.readDeepText_printText (v.sound.written hj), Payload.json?, hj]

end

end Facade
end MatrixCrypto
