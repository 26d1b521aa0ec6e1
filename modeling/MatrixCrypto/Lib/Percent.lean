import MatrixCrypto.Lib.JsonPrint

/-!
# Percent encoding

A text written so that it can stand in one place of a path: the characters that need nothing stay,
and every byte of the others is written as its two digits behind a percent sign.

## Main definitions

* `keptInComponent` — the characters that stay.
* `encodeURIComponent` — the text, written.
* `decodeURIComponent` — a text, read back.

## Main results

* `decodeURIComponent_encodeURIComponent` — **what is written reads as it was.**
* `mem_encodeURIComponent` — no character of it parts a path, starts a query or a fragment.
-/

namespace MatrixCrypto
namespace Lib

/-! ### Bytes -/

/-- The digit of a number below sixteen. -/
def hexDigit (n : ℕ) : Char := if n < 10 then Char.ofNat (48 + n) else Char.ofNat (55 + n)

/-- One byte, written. -/
def escapeByte (b : UInt8) : List Char :=
  ['%', hexDigit (b.toNat / 16), hexDigit (b.toNat % 16)]

/-- The bytes of a text in which bytes are written. -/
def unescape : List Char → Option (List UInt8)
  | [] => some []
  | '%' :: high :: low :: rest => do
    let h ← hexValue high
    let l ← hexValue low
    let bytes ← unescape rest
    return UInt8.ofNat (16 * h + l) :: bytes
  | c :: rest =>
    if c = '%' then none
    else (unescape rest).map fun bytes => String.utf8EncodeChar c ++ bytes

theorem hexValue_hexDigit : ∀ n < 16, hexValue (hexDigit n) = some n := by decide

theorem unescape_escapeByte (b : UInt8) (rest : List Char) :
    unescape (escapeByte b ++ rest) = (unescape rest).map (b :: ·) := by
  have hb : b.toNat < 256 := b.toNat_lt
  have hhigh : b.toNat / 16 < 16 := by omega
  have hlow : b.toNat % 16 < 16 := Nat.mod_lt _ (by omega)
  have hsum : 16 * (b.toNat / 16) + b.toNat % 16 = b.toNat := Nat.div_add_mod _ _
  show unescape ('%' :: hexDigit (b.toNat / 16) :: hexDigit (b.toNat % 16) :: rest) = _
  rw [unescape, hexValue_hexDigit _ hhigh, hexValue_hexDigit _ hlow]
  cases unescape rest with
  | none => rfl
  | some bytes =>
    show some (UInt8.ofNat (16 * (b.toNat / 16) + b.toNat % 16) :: bytes) = some (b :: bytes)
    rw [hsum, UInt8.ofNat_toNat]

theorem unescape_escapeBytes (bs : List UInt8) (rest : List Char) :
    unescape (bs.flatMap escapeByte ++ rest) = (unescape rest).map (bs ++ ·) := by
  induction bs with
  | nil => simp
  | cons b bs ih =>
    rw [List.flatMap_cons, List.append_assoc, unescape_escapeByte, ih, Option.map_map]
    rfl

theorem unescape_cons_of_ne {c : Char} (h : c ≠ '%') (rest : List Char) :
    unescape (c :: rest) = (unescape rest).map fun bytes => String.utf8EncodeChar c ++ bytes := by
  rw [unescape, if_neg h]
  rintro _ _ _ rfl
  exact absurd rfl h

/-! ### Texts -/

/-- The characters that stay. -/
def keptInComponent (c : Char) : Bool :=
  c.isAlphanum || ['-', '_', '.', '!', '~', '*', '\'', '(', ')'].contains c

/-- One character, written. -/
def encodeComponentChar (c : Char) : List Char :=
  if keptInComponent c then [c] else (String.utf8EncodeChar c).flatMap escapeByte

/-- `encodeURIComponent`, of a text without lone surrogates. -/
def encodeURIComponent (s : String) : String := String.ofList (s.toList.flatMap encodeComponentChar)

/-- `decodeURIComponent`. -/
def decodeURIComponent (s : String) : Option String :=
  (unescape s.toList).bind fun bytes => String.fromUTF8? bytes.toByteArray

theorem unescape_encodeComponentChar (c : Char) (rest : List Char) :
    unescape (encodeComponentChar c ++ rest) =
      (unescape rest).map fun bytes => String.utf8EncodeChar c ++ bytes := by
  unfold encodeComponentChar
  split
  · next h =>
    refine unescape_cons_of_ne ?_ rest
    rintro rfl
    exact absurd h (by decide)
  · rw [unescape_escapeBytes]

/-- The bytes of what is written are the text's. -/
theorem unescape_encodeURIComponent (s : String) :
    unescape (encodeURIComponent s).toList = some (s.toList.flatMap String.utf8EncodeChar) := by
  rw [encodeURIComponent, String.toList_ofList]
  induction s.toList with
  | nil => rfl
  | cons c cs ih =>
    rw [List.flatMap_cons, unescape_encodeComponentChar, ih]
    rfl

/-- **What is written reads as it was.** -/
theorem decodeURIComponent_encodeURIComponent (s : String) :
    decodeURIComponent (encodeURIComponent s) = some s := by
  have hbytes : (s.toList.flatMap String.utf8EncodeChar).toByteArray = s.toUTF8 := by
    rw [← List.utf8Encode]
    exact String.utf8Encode_toList
  rw [decodeURIComponent, unescape_encodeURIComponent, Option.bind_some, hbytes, fromUTF8?_toUTF8]

/-- What is written has the characters that stay, and percent signs. -/
theorem mem_encodeURIComponent {s : String} {c : Char} (h : c ∈ (encodeURIComponent s).toList) :
    keptInComponent c = true ∨ c = '%' := by
  rw [encodeURIComponent, String.toList_ofList, List.mem_flatMap] at h
  obtain ⟨d, -, hc⟩ := h
  unfold encodeComponentChar at hc
  split at hc
  · next hd =>
    rw [List.mem_singleton] at hc
    exact Or.inl (hc ▸ hd)
  · obtain ⟨b, -, hb⟩ := List.mem_flatMap.mp hc
    have hdigit : ∀ n < 16, keptInComponent (hexDigit n) = true := by decide
    have hlt : b.toNat < 256 := b.toNat_lt
    simp only [escapeByte, List.mem_cons, List.not_mem_nil, or_false] at hb
    rcases hb with rfl | rfl | rfl
    · exact Or.inr rfl
    · exact Or.inl (hdigit _ (by omega))
    · exact Or.inl (hdigit _ (by omega))

theorem not_mem_encodeURIComponent {s : String} {c : Char} (h : keptInComponent c = false)
    (hc : c ≠ '%') : c ∉ (encodeURIComponent s).toList := by
  intro hmem
  rcases mem_encodeURIComponent hmem with hkept | hpercent
  · rw [h] at hkept
    cases hkept
  · exact hc hpercent

example : encodeURIComponent "a/b ç" = "a%2Fb%20%C3%A7" := by decide

end Lib
end MatrixCrypto
