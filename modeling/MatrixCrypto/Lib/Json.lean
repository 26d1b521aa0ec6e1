import Mathlib.Data.List.Nodup

/-!
# JSON values

The values a JSON text denotes.  Reading a text into a value is the business of
whoever uses them; here are only the values and what is asked of an object.

## Main definitions

* `Json` — the values.
* `Json.asObject?`, `Json.containsKey`, `Json.field?` — the questions about an object.
* `Json.setField` — an object's fields with one of them set, up to the order they stand in.
* `Json.Same` — the same value, up to the order of members and the spelling of numbers.

## Main results

* `Json.induction` — induction over a value, through its elements and members.
* `Json.field?_setField` — setting a field leaves every other as it was.
* `Json.Same.field?` — a field is read alike off values that are the same.
-/

namespace MatrixCrypto
namespace Lib

/-- A JSON value. -/
inductive Json
  | null
  | bool (b : Bool)
  /-- The number `mantissa * 10 ^ exponent`. -/
  | num (mantissa exponent : Int)
  | str (s : String)
  | arr (values : List Json)
  /-- An object, with its fields in the order they stand. -/
  | obj (fields : List (String × Json))
  deriving Inhabited

namespace Json

/-- The fields of a value that is an object. -/
def asObject? : Json → Option (List (String × Json))
  | obj fields => some fields
  | _ => none

/-- Whether an object's fields name `key`. -/
def containsKey (fields : List (String × Json)) (key : String) : Bool :=
  fields.any (fun f => f.1 == key)

/-- The field of a value, when it is an object that has it.  A repeated name
reads as its last occurrence. -/
def field? : Json → String → Option Json
  | obj fields, key => (fields.reverse.find? (fun f => f.1 == key)).map Prod.snd
  | _, _ => none

/-- The text of a value that is a string. -/
def asStr? : Json → Option String
  | str s => some s
  | _ => none

/-- The fields of an object with one of them set.  It stands last here; a map that keeps its keys
in order has it in its place. -/
def setField (fields : List (String × Json)) (key : String) (value : Json) :
    List (String × Json) := fields.filter (fun f => f.1 != key) ++ [(key, value)]

theorem field?_eq_find? (fields : List (String × Json)) (key : String) :
    (obj fields).field? key = (fields.reverse.find? (fun f => f.1 == key)).map Prod.snd := rfl

/-- **Setting a field leaves every other as it was.** -/
theorem field?_setField (fields : List (String × Json)) (key key' : String) (value : Json) :
    (obj (setField fields key value)).field? key' =
      if key' = key then some value else (obj fields).field? key' := by
  rw [field?_eq_find?, setField, List.reverse_append, List.reverse_singleton, List.singleton_append,
    List.find?_cons]
  by_cases h : key' = key
  · rw [if_pos h, h, beq_self_eq_true]
    rfl
  · have hbeq : (key == key') = false := beq_false_of_ne (Ne.symm h)
    rw [if_neg h, hbeq, field?_eq_find?, ← List.filter_reverse, List.find?_filter]
    have hpred : (fun f : String × Json => decide ((f.1 != key) = true ∧ (f.1 == key') = true)) =
        fun f => f.1 == key' := by
      funext f
      by_cases hf : f.1 = key'
      · simp [hf, h]
      · simp [hf]
    rw [hpred]

/-- An object of one field. -/
@[simp] theorem field?_singleton (key : String) (value : Json) :
    (obj [(key, value)]).field? key = some value := by
  simp [field?]

/-- Of fields that bear different names, one is read back by its name. -/
theorem field?_eq_some_of_nodup {fs : List (String × Json)} (h : (fs.map Prod.fst).Nodup)
    {name : String} {j : Json} : (obj fs).field? name = some j ↔ (name, j) ∈ fs := by
  rw [field?_eq_find?, Option.map_eq_some_iff]
  constructor
  · intro hfind
    obtain ⟨f, hf, rfl⟩ := hfind
    have hname : f.1 = name := by simpa using List.find?_some hf
    have hmem := List.mem_reverse.mp (List.mem_of_find?_eq_some hf)
    rw [← hname]
    exact hmem
  · intro hmem
    cases hf : fs.reverse.find? (fun f => f.1 == name) with
    | none =>
      have hno := List.find?_eq_none.mp hf (name, j) (List.mem_reverse.mpr hmem)
      simp at hno
    | some f =>
      refine ⟨f, rfl, ?_⟩
      have hname : f.1 = name := by simpa using List.find?_some hf
      have hfmem := List.mem_reverse.mp (List.mem_of_find?_eq_some hf)
      exact congrArg Prod.snd (List.inj_on_of_nodup_map h hfmem hmem hname)

/-! ### Induction over a value -/

/-- What passes from the elements of an array to the array, and from the members of an
object to the object, holds of every value. -/
@[elab_as_elim]
theorem induction {P : Json → Prop} (null : P null) (bool : ∀ b, P (bool b))
    (num : ∀ m e, P (num m e)) (str : ∀ s, P (str s))
    (arr : ∀ vs, (∀ v ∈ vs, P v) → P (arr vs))
    (obj : ∀ fs, (∀ f ∈ fs, P f.2) → P (obj fs)) : ∀ v, P v
  | .null => null
  | .bool b => bool b
  | .num m e => num m e
  | .str s => str s
  | .arr vs => arr vs fun v _ => induction null bool num str arr obj v
  | .obj fs => obj fs fun f _ => induction null bool num str arr obj f.2
termination_by v => sizeOf v
decreasing_by
  · have := List.sizeOf_lt_of_mem ‹v ∈ vs›
    simp only [Json.arr.sizeOf_spec]
    omega
  · have hmem := List.sizeOf_lt_of_mem ‹f ∈ fs›
    have hpair : sizeOf f = 1 + sizeOf f.1 + sizeOf f.2 := by cases f; rfl
    simp only [Json.obj.sizeOf_spec]
    omega

/-! ### The same value -/

/-- The same value: objects may list their members in another order, and a number may be spelled
with another exponent. -/
inductive Same : Json → Json → Prop
  | null : Same null null
  | bool (b : Bool) : Same (bool b) (bool b)
  | num {m e m' e' : Int}
      (h : m * Int.pow 10 (e - e').toNat = m' * Int.pow 10 (e' - e).toNat) :
      Same (num m e) (num m' e')
  | str (s : String) : Same (str s) (str s)
  | arr {vs ws : List Json} (h : List.Forall₂ Same vs ws) : Same (arr vs) (arr ws)
  | obj {fs gs hs : List (String × Json)} (names : fs.map Prod.fst = gs.map Prod.fst)
      (values : List.Forall₂ Same (fs.map Prod.snd) (gs.map Prod.snd)) (perm : gs.Perm hs) :
      Same (obj fs) (obj hs)

theorem Same.refl (v : Json) : Same v v := by
  induction v using induction with
  | null => exact .null
  | bool b => exact .bool b
  | num m e => exact .num rfl
  | str s => exact .str s
  | arr vs ih => exact .arr (List.forall₂_same.mpr ih)
  | obj fs ih =>
    refine .obj rfl (List.forall₂_same.mpr fun v hv => ?_) (.refl fs)
    obtain ⟨f, hf, rfl⟩ := List.mem_map.mp hv
    exact ih f hf

theorem Same.eq_str {v : Json} {s : String} (h : Same v (.str s)) : v = .str s := by
  cases h
  rfl

/-- A member of one object stands under its name in the other. -/
theorem exists_mem_of_forall₂ {fs : List (String × Json)} {key : String} {w : Json} :
    ∀ {gs : List (String × Json)}, fs.map Prod.fst = gs.map Prod.fst →
      List.Forall₂ Same (fs.map Prod.snd) (gs.map Prod.snd) → (key, w) ∈ gs →
        ∃ v, (key, v) ∈ fs ∧ Same v w := by
  induction fs with
  | nil =>
    intro gs hnames _ hw
    have hnil : gs = [] := by simpa using hnames.symm
    rw [hnil] at hw
    cases hw
  | cons f fs ih =>
    intro gs hnames hvalues hw
    cases gs with
    | nil => cases hw
    | cons g gs =>
      obtain ⟨hname, hnames⟩ := List.cons.inj hnames
      obtain ⟨hvalue, hvalues⟩ := List.forall₂_cons.mp hvalues
      rcases List.mem_cons.mp hw with rfl | hw
      · exact ⟨f.2, List.mem_cons.mpr (Or.inl (Prod.ext hname.symm rfl)), hvalue⟩
      · obtain ⟨v, hv, hsame⟩ := ih hnames hvalues hw
        exact ⟨v, List.mem_cons_of_mem f hv, hsame⟩

/-- **A field is read alike off values that are the same**, where no object bears a name twice. -/
theorem Same.field? {v : Json} {hs : List (String × Json)} (h : Same v (.obj hs))
    (hnodup : (hs.map Prod.fst).Nodup) {key : String} {w : Json}
    (hw : (Json.obj hs).field? key = some w) : ∃ w', v.field? key = some w' ∧ Same w' w := by
  cases h with
  | @obj fs gs _ names values perm =>
    have hgs : (gs.map Prod.fst).Nodup := (perm.map Prod.fst).nodup_iff.mpr hnodup
    have hmem : (key, w) ∈ gs := perm.mem_iff.mpr ((field?_eq_some_of_nodup hnodup).mp hw)
    obtain ⟨w', hw', hsame⟩ := exists_mem_of_forall₂ names values hmem
    exact ⟨w', (field?_eq_some_of_nodup (names ▸ hgs)).mpr hw', hsame⟩

end Json

end Lib
end MatrixCrypto
