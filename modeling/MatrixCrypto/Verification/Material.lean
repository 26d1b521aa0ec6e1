import Mathlib.Data.Rat.Defs
import MatrixCrypto.Verification.Lookup

/-!
# The short authentication string

What a comparison has to show, on its way to the product, and the check made of what
the product hands back with a confirmation.  That value may come from plain
JavaScript, and is read without trusting its type.

## Main definitions

* `SasMaterial`, `NativeSasMaterial` — the string, in the core and across the boundary.
* `readMaterial` — `read_material`, once it has the handles.
* `JsValue` — what a caller may hand over.
* `sameMaterial` — the check; `JsValue.Offers` — what it is for.

## Main results

* `sasMaterialOf_toNative` — the string crosses the boundary as it is.
* `readMaterial_eq_ok` — what is read is what the comparison shows.
* `sameMaterial_iff` — **what passes the check is that string, description aside.**
-/

namespace MatrixCrypto

/-! ### The string -/

structure SasEmoji where
  symbol : String
  description : String
  deriving DecidableEq, Repr

/-- The string: symbols where both sides can show them, and the decimals always. -/
structure SasMaterial where
  emoji : Option (List SasEmoji)
  decimals : ℕ × ℕ × ℕ
  deriving DecidableEq, Repr

/-- The string as it crosses the boundary, which has no tuples. -/
structure NativeSasMaterial where
  emoji : Option (List SasEmoji)
  decimalOne : ℕ
  decimalTwo : ℕ
  decimalThree : ℕ
  deriving DecidableEq, Repr

namespace SasMaterial

/-- `From<SasMaterial>`. -/
def toNative (m : SasMaterial) : NativeSasMaterial :=
  ⟨m.emoji, m.decimals.1, m.decimals.2.1, m.decimals.2.2⟩

/-- The decimals, as an array. -/
def digits (m : SasMaterial) : List ℕ := [m.decimals.1, m.decimals.2.1, m.decimals.2.2]

/-- The symbols, without their descriptions. -/
def symbols (m : SasMaterial) : Option (List String) := m.emoji.map fun es => es.map SasEmoji.symbol

end SasMaterial

/-- `sasMaterialOf`. -/
def sasMaterialOf (m : NativeSasMaterial) : SasMaterial :=
  ⟨m.emoji, m.decimalOne, m.decimalTwo, m.decimalThree⟩

/-- The string crosses the boundary as it is. -/
@[simp] theorem sasMaterialOf_toNative (m : SasMaterial) : sasMaterialOf m.toNative = m := rfl

/-- The string of a comparison whose keys are exchanged. -/
def materialOf (emojis : Option (List (String × String))) (decimals : ℕ × ℕ × ℕ) : SasMaterial where
  emoji := emojis.map fun es => es.map fun e => ⟨e.1, e.2⟩
  decimals := decimals

/-- `read_material`, once it has the handles. -/
def readMaterial (u : Upstream) (handles : Handles) : Except MachineError SasMaterial :=
  match handles.comparison with
  | none => .error .wrongStage
  | some comparison =>
    match u.sasState comparison with
    | .keysExchanged emojis decimals => .ok (materialOf emojis decimals)
    | .created | .started | .accepted => .error .materialNotReady
    | .confirmed | .done _ | .cancelled => .error .wrongStage

/-- What is read is what the comparison shows. -/
theorem readMaterial_eq_ok {u : Upstream} {handles : Handles} {m : SasMaterial} :
    readMaterial u handles = .ok m ↔ ∃ c emojis decimals, handles.comparison = some c ∧
      u.sasState c = .keysExchanged emojis decimals ∧ m = materialOf emojis decimals := by
  constructor
  · intro h
    unfold readMaterial at h
    cases hc : handles.comparison with
    | none =>
      rw [hc] at h
      cases h
    | some c =>
      simp only [hc] at h
      cases hstate : u.sasState c with
      | keysExchanged emojis decimals =>
        rw [hstate] at h
        exact ⟨c, emojis, decimals, rfl, hstate, (Except.ok.inj h).symm⟩
      | _ =>
        rw [hstate] at h
        cases h
  · rintro ⟨c, emojis, decimals, hc, hstate, rfl⟩
    unfold readMaterial
    simp [hc, hstate]

/-! ### What a caller hands back -/

/-- What an object is, besides its properties. -/
inductive ObjectKind
  | plain
  | array
  | function
  deriving DecidableEq, Repr

/-- A JavaScript value that holds data: reading a property of it runs no code. -/
inductive JsValue
  | undefined
  | null
  | boolean (b : Bool)
  /-- A number, or none of them: an infinity, or what is not a number. -/
  | number (x : Option ℚ)
  | string (s : String)
  /-- A symbol, or a big integer. -/
  | other
  /-- An object with its properties, and the elements of one that is an array. -/
  | object (kind : ObjectKind) (elements : List JsValue) (properties : List (String × JsValue))

namespace JsValue

/-- `typeof v === 'object' && v !== null`. -/
def isObject : JsValue → Bool
  | object kind _ _ => kind != .function
  | _ => false

/-- A property, read off an object. -/
def get (v : JsValue) (name : String) : JsValue :=
  match v with
  | object _ _ properties => ((properties.find? (·.1 == name)).map Prod.snd).getD undefined
  | _ => undefined

/-- The elements of a value that is an array. -/
def elements? : JsValue → Option (List JsValue)
  | object .array elements _ => some elements
  | _ => none

/-- A digit, as a value. -/
def digit (n : ℕ) : JsValue := number (some n)

/-- `digit === v`. -/
def isDigit (n : ℕ) : JsValue → Bool
  | number (some x) => x == n
  | _ => false

/-- `symbol === v`. -/
def isText (symbol : String) : JsValue → Bool
  | string s => s == symbol
  | _ => false

/-- `v === undefined`. -/
def isUndefined : JsValue → Bool
  | undefined => true
  | _ => false

theorem isDigit_iff {n : ℕ} {v : JsValue} : isDigit n v = true ↔ v = digit n := by
  cases v with
  | number x => cases x <;> simp [isDigit, digit]
  | _ => simp [isDigit, digit]

theorem isText_iff {symbol : String} {v : JsValue} :
    isText symbol v = true ↔ v = string symbol := by
  cases v <;> simp [isText]

theorem isUndefined_iff {v : JsValue} : v.isUndefined = true ↔ v = undefined := by
  cases v <;> simp [isUndefined]

/-- The value has the decimals of the string and its symbols, or none where there are
none; what describes the symbols may be anything. -/
structure Offers (data : JsValue) (m : SasMaterial) : Prop where
  decimals : (data.get "decimals").elements? = some (m.digits.map digit)
  noSymbols : m.symbols = none → data.get "emoji" = undefined
  symbols : ∀ ss, m.symbols = some ss → ∃ es, (data.get "emoji").elements? = some es ∧
    es.map (fun e => e.get "symbol") = ss.map string

end JsValue

/-- `sameMaterial`: whether what is offered is the string the flow is showing. -/
def sameMaterial (current : SasMaterial) (offered : JsValue) : Bool :=
  if !offered.isObject then false
  else
    let decimals := offered.get "decimals"
    let emoji := offered.get "emoji"
    match decimals.elements? with
    | none => false
    | some ds =>
      if ds.length != current.digits.length then false
      else if !(current.digits.zip ds).all fun p => p.2.isDigit p.1 then false
      else match current.symbols with
        | none => emoji.isUndefined
        | some currentSymbols =>
          match emoji.elements? with
          | none => false
          | some es =>
            if es.length != currentSymbols.length then false
            -- an element that is no object has no symbol
            else (currentSymbols.zip es).all fun p => (p.2.get "symbol").isText p.1

/-- Two lists of one length agree, element by element, just when what is read off the
second is what the first asks for. -/
theorem zip_all_iff {α β γ : Type} {f : α → γ} {g : β → γ} {agrees : α → β → Bool}
    (h : ∀ a b, agrees a b = true ↔ g b = f a) :
    ∀ {as : List α} {bs : List β}, bs.length = as.length →
      (((as.zip bs).all fun p => agrees p.1 p.2) = true ↔ bs.map g = as.map f) := by
  intro as
  induction as with
  | nil =>
    intro bs hlength
    obtain rfl := List.eq_nil_of_length_eq_zero hlength
    simp
  | cons a as ih =>
    intro bs hlength
    cases bs with
    | nil => simp at hlength
    | cons b bs =>
      simp only [List.zip_cons_cons, List.all_cons, Bool.and_eq_true, List.map_cons,
        List.cons.injEq]
      rw [h a b, ih (by simpa using hlength)]

/-- **What passes the check is an object that offers the string**, description aside. -/
theorem sameMaterial_iff {current : SasMaterial} {offered : JsValue} :
    sameMaterial current offered = true ↔
      offered.isObject = true ∧ offered.Offers current := by
  have hdigits : ∀ ds : List JsValue, ds.length = current.digits.length →
      (((current.digits.zip ds).all fun p => p.2.isDigit p.1) = true ↔
        ds = current.digits.map JsValue.digit) := by
    intro ds hlength
    rw [@zip_all_iff _ _ _ JsValue.digit id JsValue.isDigit (fun _ _ => JsValue.isDigit_iff) _ _
      hlength, List.map_id]
  have hsymbols : ∀ (ss : List String) (es : List JsValue), es.length = ss.length →
      (((ss.zip es).all fun p => (p.2.get "symbol").isText p.1) = true ↔
        es.map (fun e => e.get "symbol") = ss.map .string) := fun ss es hlength =>
    @zip_all_iff _ _ _ JsValue.string (fun e => e.get "symbol")
      (fun s e => (e.get "symbol").isText s) (fun _ _ => JsValue.isText_iff) _ _ hlength
  constructor
  · intro h
    unfold sameMaterial at h
    split at h
    · cases h
    next hobject =>
    have hobject : offered.isObject = true := by simpa using hobject
    dsimp only at h
    split at h
    · cases h
    next ds hds =>
    split at h
    · cases h
    next hlength =>
    split at h
    · cases h
    next hall =>
    -- the lengths agree, so the walk saw every digit
    have hall := (hdigits ds (by simpa using hlength)).mp (by simpa using hall)
    rw [hall] at hds
    split at h
    · next hnone =>
      exact ⟨hobject, hds, fun _ => JsValue.isUndefined_iff.mp h, fun ss hss => by
        rw [hnone] at hss
        cases hss⟩
    · next ss hss =>
      split at h
      · cases h
      next es hes =>
      split at h
      · cases h
      next hlength =>
      refine ⟨hobject, hds, fun hnone => ?_, fun ss' hss' => ⟨es, hes, ?_⟩⟩
      · rw [hss] at hnone
        cases hnone
      · obtain rfl := Option.some.inj (hss.symm.trans hss')
        exact (hsymbols ss es (by simpa using hlength)).mp h
  · rintro ⟨hobject, hdecimals, hnone, hoffered⟩
    unfold sameMaterial
    rw [if_neg (by simp [hobject])]
    simp only [hdecimals]
    rw [if_neg (by simp), if_neg (by simpa using (hdigits _ (by simp)).mpr rfl)]
    cases hss : current.symbols with
    | none => exact JsValue.isUndefined_iff.mpr (hnone hss)
    | some ss =>
      obtain ⟨es, hes, hmap⟩ := hoffered ss hss
      have hlength : es.length = ss.length := by simpa using congrArg List.length hmap
      simp only [hes]
      rw [if_neg (by simp [hlength])]
      exact (hsymbols ss es hlength).mpr hmap

end MatrixCrypto
