import MatrixCrypto.Lib.JsonText

/-!
# Printed JSON texts

The one text `JSON.stringify` and `serde_json` write a value as: no space, and an escape
only where a character needs one.  How a number is written is a parameter, with the law
that the reader takes it for the number it was.

## Main definitions

* `escape`, `printString` — the strings, with their escapes.
* `Numerals` — the numbers there are, and how they are written.
* `print`, `printText` — the values.
* `nesting` — how deep arrays and objects stand in one another.
* `readDeepText` — a reader that goes down without a limit.

## Main results

* `readString_printString` — a printed string reads as the string it was.
* `readText_printText`, `readDeepText_printText` — **a printed value reads as the value it
  was.**
* `integers` — the whole numbers, as digits.
* `fromUTF8?_toUTF8` — the bytes of a text read as the text.
-/

namespace MatrixCrypto
namespace Lib
namespace Json

/-! ### Strings -/

/-- A hexadecimal digit, in lower case. -/
def hexChar (n : ℕ) : Char :=
  if n < 10 then Char.ofNat ('0'.toNat + n) else Char.ofNat ('a'.toNat + (n - 10))

/-- How a character is spelled in a string. -/
def escape (c : Char) : List Char :=
  if c = '"' then ['\\', '"']
  else if c = '\\' then ['\\', '\\']
  else if c = '\x08' then ['\\', 'b']
  else if c = '\x0c' then ['\\', 'f']
  else if c = '\n' then ['\\', 'n']
  else if c = '\r' then ['\\', 'r']
  else if c = '\t' then ['\\', 't']
  else if c.toNat < 0x20 then ['\\', 'u', '0', '0', hexChar (c.toNat / 16), hexChar (c.toNat % 16)]
  else [c]

/-- The characters of a string, and its closing quotation mark. -/
def printString : List Char → List Char
  | [] => ['"']
  | c :: s => escape c ++ printString s

theorem hexValue_hexChar : ∀ n < 16, hexValue (hexChar n) = some n := by
  decide

/-- An escape reads as the character it spells. -/
theorem readString_escape (n : ℕ) (c : Char) (rest : List Char) :
    readString (n + 1) (escape c ++ rest) =
      (readString n rest).bind fun r => some (c :: r.1, r.2) := by
  unfold escape
  by_cases hquote : c = '"'
  · subst hquote
    simp [readString, readEscape]
  rw [if_neg hquote]
  by_cases hback : c = '\\'
  · subst hback
    simp [readString, readEscape]
  rw [if_neg hback]
  split
  · next h => subst h; simp [readString, readEscape]
  split
  · next h => subst h; simp [readString, readEscape]
  split
  · next h => subst h; simp [readString, readEscape]
  split
  · next h => subst h; simp [readString, readEscape]
  split
  · next h => subst h; simp [readString, readEscape]
  split
  · next h =>
    have hhigh := hexValue_hexChar (c.toNat / 16) (by omega)
    have hlow := hexValue_hexChar (c.toNat % 16) (by omega)
    have hzero : hexValue '0' = some 0 := by decide
    have hcode : ((0 * 16 + 0) * 16 + c.toNat / 16) * 16 + c.toNat % 16 = c.toNat := by omega
    have hunicode : readUnicode ('0' :: '0' :: hexChar (c.toNat / 16) ::
        hexChar (c.toNat % 16) :: rest) = some (c, rest) := by
      simp only [readUnicode, readHex4, hhigh, hlow, hzero, Option.bind_eq_bind,
        Option.bind_some, hcode]
      rw [if_neg (by omega), if_neg (by omega), Char.ofNat_toNat]
    simp [readString, readEscape, hunicode]
  · next h =>
    simp [readString, hquote, hback, h]

/-- **A printed string reads as the string it was**, whatever follows it. -/
theorem readString_printString (s rest : List Char) :
    ∀ n, (printString s ++ rest).length ≤ n →
      readString n (printString s ++ rest) = some (s, rest) := by
  induction s with
  | nil =>
    intro n h
    cases n with
    | zero => simp [printString] at h
    | succ n => simp [printString, readString]
  | cons c s ih =>
    intro n h
    have hpos : 0 < (escape c).length := by
      unfold escape
      repeat' split
      all_goals simp
    simp only [printString, List.append_assoc, List.length_append] at h ih ⊢
    cases n with
    | zero => omega
    | succ n =>
      rw [readString_escape, ih n (by omega)]
      rfl

/-! ### Numbers -/

/-- The text goes on with nothing a number could take. -/
def EndsNumber (rest : List Char) : Prop :=
  ∀ c ∈ rest.head?, c.isDigit = false ∧ c ≠ '.' ∧ c ≠ 'e' ∧ c ≠ 'E'

/-- The numbers there are, and how they are written. -/
structure Numerals (fits : Int → Int → Bool) where
  Has : Int → Int → Prop
  spell : Int → Int → List Char
  /-- A number reads as what it was. -/
  readNumber_spell : ∀ {m e : Int} {rest : List Char}, Has m e → EndsNumber rest →
    readNumber fits (spell m e ++ rest) = some (num m e, rest)

theorem endsNumber_nil : EndsNumber [] := by
  intro c hc
  cases hc

theorem endsNumber_cons {c : Char} (rest : List Char)
    (h : c.isDigit = false ∧ c ≠ '.' ∧ c ≠ 'e' ∧ c ≠ 'E') : EndsNumber (c :: rest) := by
  intro c' hc'
  rw [← Option.some.inj hc']
  exact h

/-- A number begins with a digit or a minus. -/
theorem head_of_readNumber {fits : Int → Int → Bool} {text rest : List Char} {v : Json}
    (h : readNumber fits text = some (v, rest)) :
    ∃ c cs, text = c :: cs ∧ (c = '-' ∨ c.isDigit = true) := by
  cases text with
  | nil => simp [readNumber, readWhole, readDigits, List.dropPrefix?] at h
  | cons c cs =>
    refine ⟨c, cs, rfl, ?_⟩
    by_cases hminus : c = '-'
    · exact Or.inl hminus
    · refine Or.inr ?_
      by_contra hdigit
      have hdigits : readDigits (c :: cs) = none := by
        unfold readDigits
        rw [List.takeWhile_cons_of_neg hdigit]
        rfl
      have hunsigned : ((c :: cs).dropPrefix? ['-']).getD (c :: cs) = c :: cs := by
        simp [List.dropPrefix?, hminus]
      simp [readNumber, readWhole, hunsigned, hdigits] at h

/-- The digits of a number, ended. -/
theorem readDigits_append {digits rest : List Char} (h : ∀ c ∈ digits, c.isDigit = true)
    (hne : digits ≠ []) (hrest : EndsNumber rest) :
    readDigits (digits ++ rest) = some (digits, rest) := by
  have hend : rest.takeWhile Char.isDigit = [] ∧ rest.dropWhile Char.isDigit = rest := by
    cases rest with
    | nil => exact ⟨rfl, rfl⟩
    | cons c rest =>
      have hc := (hrest c rfl).1
      simp [hc]
  have htake : (digits ++ rest).takeWhile Char.isDigit = digits := by
    rw [List.takeWhile_append_of_pos h, hend.1, List.append_nil]
  have hdrop : (digits ++ rest).dropWhile Char.isDigit = rest := by
    rw [List.dropWhile_append_of_pos h, hend.2]
  unfold readDigits
  rw [htake, hdrop, if_neg (by simpa using hne)]

/-- A number of more than one digit does not begin with a zero. -/
theorem head_toDigits {n : ℕ} (hn : 0 < n) : (Nat.toDigits 10 n).head? ≠ some '0' := by
  induction n using Nat.strong_induction_on with
  | _ n ih =>
    by_cases hlt : n < 10
    · have hdigit : ∀ k < 10, 0 < k → [k.digitChar].head? ≠ some '0' := by
        decide
      rw [Nat.toDigits_of_lt_base hlt]
      exact hdigit n hlt hn
    · rw [Nat.toDigits_of_base_le (by omega) (by omega), List.head?_append_of_ne_nil _
        Nat.toDigits_ne_nil]
      exact ih (n / 10) (by omega) (by omega)

theorem natOf_toDigits (n : ℕ) : natOf (Nat.toDigits 10 n) = n := by
  have h := Nat.ofDigitChars_ten_toDigits (n := n)
  rw [Nat.ofDigitChars_eq_foldl] at h
  exact h

/-- A whole number, as digits. -/
def spellInt (m : Int) : List Char :=
  if m < 0 then '-' :: Nat.toDigits 10 m.natAbs else Nat.toDigits 10 m.natAbs

theorem readWhole_toDigits (n : ℕ) {rest : List Char} (hrest : EndsNumber rest) :
    readWhole (Nat.toDigits 10 n ++ rest) = some (Nat.toDigits 10 n, rest) := by
  have hdigits : ∀ c ∈ Nat.toDigits 10 n, c.isDigit = true :=
    fun c hc => Nat.isDigit_of_mem_toDigits (by omega) (by omega) hc
  have hread := readDigits_append hdigits Nat.toDigits_ne_nil hrest
  have hzero : ¬ ((Nat.toDigits 10 n).head? = some '0' ∧ Nat.toDigits 10 n ≠ ['0']) := by
    intro h
    rcases Nat.eq_zero_or_pos n with h0 | hpos
    · rw [h0] at h
      exact h.2 (Nat.toDigits_zero 10)
    · exact head_toDigits hpos h.1
  simp [readWhole, hread, hzero]

/-- **The whole numbers that fit**, as digits. -/
def integers (fits : Int → Int → Bool) : Numerals fits where
  Has := fun m e => e = 0 ∧ fits m 0 = true
  spell := fun m _ => spellInt m
  readNumber_spell := by
    intro m e rest h hrest
    obtain ⟨rfl, hfits⟩ := h
    have hfraction : readFraction rest = some ([], rest) := by
      cases rest with
      | nil => rfl
      | cons c rest => simp [readFraction, List.dropPrefix?, (hrest c rfl).2.1]
    have hexponent : readExponent rest = some (0, rest) := by
      cases rest with
      | nil => rfl
      | cons c rest => simp [readExponent, (hrest c rfl).2.2.1, (hrest c rfl).2.2.2]
    have hwhole := readWhole_toDigits m.natAbs hrest
    unfold spellInt
    by_cases hneg : m < 0
    · have hm : -(m.natAbs : Int) = m := by omega
      rw [if_pos hneg]
      generalize m.natAbs = k at hm hwhole
      subst hm
      simp [readNumber, List.dropPrefix?, hwhole, hfraction, hexponent, natOf_toDigits, hfits]
    · have hm : (m.natAbs : Int) = m := by omega
      obtain ⟨c, cs, hcs⟩ := List.exists_cons_of_ne_nil
        (Nat.toDigits_ne_nil (n := m.natAbs) (b := 10))
      have hc : c ≠ '-' := by
        intro heq
        have hdigit : c.isDigit = true := Nat.isDigit_of_mem_toDigits (b := 10) (n := m.natAbs)
          (by omega) (by omega) (by rw [hcs]; exact List.mem_cons_self)
        rw [heq] at hdigit
        exact absurd hdigit (by decide)
      rw [if_neg hneg]
      have hunsigned : ((Nat.toDigits 10 m.natAbs ++ rest).dropPrefix? ['-']).getD
          (Nat.toDigits 10 m.natAbs ++ rest) = Nat.toDigits 10 m.natAbs ++ rest := by
        rw [hcs]
        simp [List.dropPrefix?, hc]
      have hhead : (Nat.toDigits 10 m.natAbs).head? ≠ some '-' := by
        rw [hcs]
        simpa using hc
      simp [readNumber, hunsigned, hwhole, hfraction, hexponent, natOf_toDigits, hm, hfits, hhead]

/-! ### Values -/

section

variable {fits : Int → Int → Bool} (N : Numerals fits)

mutual

/-- A value. -/
def print : Json → List Char
  | null => ['n', 'u', 'l', 'l']
  | bool true => ['t', 'r', 'u', 'e']
  | bool false => ['f', 'a', 'l', 's', 'e']
  | num m e => N.spell m e
  | str s => '"' :: printString s.toList
  | arr [] => ['[', ']']
  | arr (v :: vs) => '[' :: (print v ++ printElements vs)
  | obj [] => ['\x7b', '\x7d']
  | obj ((key, v) :: fs) =>
    '\x7b' :: '"' :: (printString key.toList ++ ':' :: (print v ++ printMembers fs))

/-- The elements after the first, and the closing bracket. -/
def printElements : List Json → List Char
  | [] => [']']
  | v :: vs => ',' :: (print v ++ printElements vs)

/-- The members after the first, and the closing brace. -/
def printMembers : List (String × Json) → List Char
  | [] => ['\x7d']
  | (key, v) :: fs => ',' :: '"' :: (printString key.toList ++ ':' :: (print v ++ printMembers fs))

end

/-- A value, as a text. -/
def printText (v : Json) : String := String.ofList (print N v)

mutual

/-- How deep arrays and objects stand in one another. -/
def nesting : Json → ℕ
  | arr vs => nestingElements vs + 1
  | obj fs => nestingMembers fs + 1
  | _ => 0

def nestingElements : List Json → ℕ
  | [] => 0
  | v :: vs => max (nesting v) (nestingElements vs)

def nestingMembers : List (String × Json) → ℕ
  | [] => 0
  | (_, v) :: fs => max (nesting v) (nestingMembers fs)

end

/-- Every number of the value is one there is. -/
inductive Written : Json → Prop
  | null : Written null
  | bool (b : Bool) : Written (bool b)
  | num {m e : Int} (h : N.Has m e) : Written (num m e)
  | str (s : String) : Written (str s)
  | arr {vs : List Json} (h : ∀ v ∈ vs, Written v) : Written (arr vs)
  | obj {fs : List (String × Json)} (h : ∀ f ∈ fs, Written f.2) : Written (obj fs)

variable {N} {v : Json}

/-- The value reads as what it is, whatever follows it, where there is depth and fuel. -/
def Reads (N : Numerals fits) (v : Json) : Prop :=
  ∀ n depth rest, nesting v < depth → EndsNumber rest →
    2 * (print N v ++ rest).length + 1 ≤ n →
      readValue fits n depth (print N v ++ rest) = some (v, rest)

/-- A printed value begins with a character that closes nothing and is no space. -/
theorem head_print (hv : Written N v) :
    ∃ c cs, print N v = c :: cs ∧ isSpace c = false ∧ c ≠ ']' ∧ c ≠ '\x7d' := by
  cases hv with
  | null => exact ⟨_, _, rfl, by decide⟩
  | bool b => cases b <;> exact ⟨_, _, rfl, by decide⟩
  | str s => exact ⟨_, _, rfl, by decide⟩
  | @num m e h =>
    have hread := N.readNumber_spell h endsNumber_nil
    rw [List.append_nil] at hread
    obtain ⟨c, cs, hcs, hc⟩ := head_of_readNumber hread
    refine ⟨c, cs, hcs, ?_⟩
    rcases hc with rfl | hdigit
    · decide
    · refine ⟨?_, ?_, ?_⟩
      · by_contra hspace
        simp only [isSpace, Bool.not_eq_false, Bool.or_eq_true, beq_iff_eq] at hspace
        rcases hspace with ((rfl | rfl) | rfl) | rfl <;> exact absurd hdigit (by decide)
      · rintro rfl
        exact absurd hdigit (by decide)
      · rintro rfl
        exact absurd hdigit (by decide)
  | @arr vs h => cases vs <;> exact ⟨_, _, rfl, by decide⟩
  | @obj fs h => cases fs <;> exact ⟨_, _, rfl, by decide⟩

theorem skipSpace_of_head {c : Char} (rest : List Char) (h : isSpace c = false) :
    skipSpace (c :: rest) = c :: rest := by
  simp [skipSpace, h]

/-- Where a printed value stands, nothing closes. -/
theorem dropPrefix?_print (hv : Written N v) (rest : List Char) :
    (skipSpace (print N v ++ rest)).dropPrefix? [']'] = none ∧
      (skipSpace (print N v ++ rest)).dropPrefix? ['\x7d'] = none := by
  obtain ⟨c, cs, hcs, hspace, hbracket, hbrace⟩ := head_print hv
  rw [hcs, List.cons_append, skipSpace_of_head _ hspace]
  simp [List.dropPrefix?, hbracket, hbrace]

theorem endsNumber_printElements (vs : List Json) (rest : List Char) :
    EndsNumber (printElements N vs ++ rest) := by
  cases vs <;> exact endsNumber_cons _ (by decide)

theorem endsNumber_printMembers (fs : List (String × Json)) (rest : List Char) :
    EndsNumber (printMembers N fs ++ rest) := by
  cases fs <;> exact endsNumber_cons _ (by decide)

theorem nesting_le_of_mem {vs : List Json} (h : v ∈ vs) : nesting v ≤ nestingElements vs := by
  induction vs with
  | nil => cases h
  | cons w vs ih =>
    rw [nestingElements]
    rcases List.mem_cons.mp h with rfl | h
    · exact Nat.le_max_left _ _
    · exact Nat.le_trans (ih h) (Nat.le_max_right _ _)

theorem nestingElements_le {vs : List Json} {n : ℕ} (h : ∀ v ∈ vs, nesting v ≤ n) :
    nestingElements vs ≤ n := by
  induction vs with
  | nil => exact Nat.zero_le n
  | cons v vs ih =>
    rw [nestingElements]
    apply Nat.max_le.mpr
    exact ⟨h v List.mem_cons_self, ih fun w hw => h w (List.mem_cons_of_mem v hw)⟩

theorem nesting_le_of_mem_members {fs : List (String × Json)} {f : String × Json} (h : f ∈ fs) :
    nesting f.2 ≤ nestingMembers fs := by
  induction fs with
  | nil => cases h
  | cons g fs ih =>
    rw [nestingMembers]
    rcases List.mem_cons.mp h with rfl | h
    · exact Nat.le_max_left _ _
    · exact Nat.le_trans (ih h) (Nat.le_max_right _ _)

/-- A number is read past the words and the brackets. -/
theorem readValue_of_number {text rest : List Char} (n depth : ℕ)
    (h : readNumber fits text = some (v, rest)) :
    readValue fits (n + 1) depth text = some (v, rest) := by
  obtain ⟨c, cs, rfl, hc⟩ := head_of_readNumber h
  have hplain : isSpace c = false ∧ c ≠ '"' ∧ c ≠ '[' ∧ c ≠ '\x7b' ∧ c ≠ 'n' ∧ c ≠ 't' ∧
      c ≠ 'f' := by
    rcases hc with rfl | hdigit
    · decide
    · refine ⟨?_, ?_, ?_, ?_, ?_, ?_, ?_⟩
      · by_contra hspace
        simp only [isSpace, Bool.not_eq_false, Bool.or_eq_true, beq_iff_eq] at hspace
        rcases hspace with ((rfl | rfl) | rfl) | rfl <;> exact absurd hdigit (by decide)
      all_goals
        rintro rfl
        exact absurd hdigit (by decide)
  obtain ⟨hspace, hquote, hbracket, hbrace, hn, ht, hf⟩ := hplain
  rw [readValue, skipSpace_of_head _ hspace]
  simp only [hquote, hbracket, hbrace, hn, ht, hf, if_false]
  exact h

/-- The elements of an array, when each of them reads. -/
theorem readElements_print {vs : List Json} : ∀ {v : Json} {n depth : ℕ} {rest : List Char},
    (∀ w ∈ v :: vs, Reads N w ∧ Written N w ∧ nesting w < depth) →
    2 * (print N v ++ (printElements N vs ++ rest)).length + 2 ≤ n →
      readElements fits n depth (print N v ++ (printElements N vs ++ rest)) =
        some (v :: vs, rest) := by
  induction vs with
  | nil =>
    intro v n depth rest h hn
    obtain ⟨hreads, -, hdepth⟩ := h v List.mem_cons_self
    cases n with
    | zero => omega
    | succ n =>
      have hv := hreads n depth ([']'] ++ rest) hdepth (endsNumber_printElements (N := N) [] rest)
        (by simp only [printElements] at hn; omega)
      rw [printElements, readElements, hv]
      simp [skipSpace, isSpace]
  | cons w vs ih =>
    intro v n depth rest h hn
    obtain ⟨hreads, -, hdepth⟩ := h v List.mem_cons_self
    cases n with
    | zero => omega
    | succ n =>
      have hv := hreads n depth (printElements N (w :: vs) ++ rest) hdepth
        (endsNumber_printElements _ _) (by omega)
      have hrest := @ih w n depth rest
        (fun u hu => h u (List.mem_cons_of_mem _ hu)) (by
          simp only [printElements, List.length_append, List.length_cons] at hn ⊢
          omega)
      rw [readElements, hv]
      simp [printElements, skipSpace, isSpace, hrest]

/-- The members of an object, when each of their values reads. -/
theorem readMembers_print {fs : List (String × Json)} :
    ∀ {key : String} {v : Json} {n depth : ℕ} {rest : List Char},
    (∀ f ∈ (key, v) :: fs, Reads N f.2 ∧ nesting f.2 < depth) →
    2 * ('"' :: (printString key.toList ++
      ':' :: (print N v ++ (printMembers N fs ++ rest)))).length + 2 ≤ n →
      readMembers fits n depth ('"' :: (printString key.toList ++
        ':' :: (print N v ++ (printMembers N fs ++ rest)))) = some ((key, v) :: fs, rest) := by
  induction fs with
  | nil =>
    intro key v n depth rest h hn
    obtain ⟨hreads, hdepth⟩ := h (key, v) List.mem_cons_self
    simp only [List.length_cons, List.length_append] at hn
    cases n with
    | zero => omega
    | succ n =>
      have hkey := readString_printString key.toList
        (':' :: (print N v ++ (printMembers N [] ++ rest))) n (by
          simp only [List.length_cons, List.length_append]
          omega)
      have hv := hreads n depth (printMembers N [] ++ rest) hdepth
        (endsNumber_printMembers [] rest) (by
          simp only [List.length_append]
          omega)
      rw [readMembers]
      simp only [printMembers, List.cons_append, List.nil_append] at hkey hv ⊢
      simp [skipSpace, isSpace, List.dropPrefix?, hkey, hv]
  | cons g fs ih =>
    intro key v n depth rest h hn
    obtain ⟨key', w⟩ := g
    obtain ⟨hreads, hdepth⟩ := h (key, v) List.mem_cons_self
    simp only [List.length_cons, List.length_append] at hn
    cases n with
    | zero => omega
    | succ n =>
      have hkey := readString_printString key.toList
        (':' :: (print N v ++ (printMembers N ((key', w) :: fs) ++ rest))) n (by
          simp only [List.length_cons, List.length_append]
          omega)
      have hv := hreads n depth (printMembers N ((key', w) :: fs) ++ rest) hdepth
        (endsNumber_printMembers _ _) (by
          simp only [List.length_append]
          omega)
      have hrest := @ih key' w n depth rest
        (fun f hf => h f (List.mem_cons_of_mem _ hf)) (by
          simp only [printMembers, List.length_cons, List.length_append] at hn ⊢
          omega)
      rw [readMembers]
      simp only [printMembers, List.cons_append, List.append_assoc] at hkey hv ⊢
      simp [skipSpace, isSpace, List.dropPrefix?, hkey, hv, hrest]

/-- **A printed value reads as the value it was**, whatever follows it. -/
theorem reads_of_written (hv : Written N v) : Reads N v := by
  induction v using Json.induction with
  | null =>
    intro n depth rest _ _ hn
    cases n with
    | zero => omega
    | succ n => simp [readValue, print, skipSpace, isSpace, List.dropPrefix?]
  | bool b =>
    intro n depth rest _ _ hn
    cases n with
    | zero => omega
    | succ n => cases b <;> simp [readValue, print, skipSpace, isSpace, List.dropPrefix?]
  | num m e =>
    intro n depth rest _ hrest hn
    cases hv with
    | num h =>
      cases n with
      | zero => omega
      | succ n => exact readValue_of_number n depth (N.readNumber_spell h hrest)
  | str s =>
    intro n depth rest _ _ hn
    cases n with
    | zero => omega
    | succ n =>
      have hs := readString_printString s.toList rest n (by
        simp only [print, List.cons_append, List.length_cons, List.length_append] at hn
        simp only [List.length_append]
        omega)
      simp [readValue, print, skipSpace, isSpace, hs]
  | arr vs ih =>
    intro n depth rest hdepth hrest hn
    cases hv with
    | arr h =>
      cases n with
      | zero => omega
      | succ n =>
        rw [nesting] at hdepth
        cases vs with
        | nil =>
          simp [readValue, print, skipSpace, isSpace, List.dropPrefix?]
          omega
        | cons v vs =>
          have hclose := (dropPrefix?_print (h v List.mem_cons_self)
            (printElements N vs ++ rest)).1
          have helements : readElements fits n (depth - 1) (print N v ++
              (printElements N vs ++ rest)) = some (v :: vs, rest) := readElements_print
            (fun w hw => ⟨ih w hw (h w hw), h w hw, by
              have := nesting_le_of_mem hw
              omega⟩) (by
              simp only [print, List.cons_append, List.length_cons, List.length_append] at hn ⊢
              omega)
          have hnot : ¬ depth ≤ 1 := by omega
          simp [readValue, print, skipSpace_of_head, isSpace, hnot, hclose, helements]
  | obj fs ih =>
    intro n depth rest hdepth hrest hn
    cases hv with
    | obj h =>
      cases n with
      | zero => omega
      | succ n =>
        rw [nesting] at hdepth
        cases fs with
        | nil =>
          simp [readValue, print, skipSpace, isSpace, List.dropPrefix?]
          omega
        | cons f fs =>
          obtain ⟨key, v⟩ := f
          have hmembers : readMembers fits n (depth - 1) ('"' :: (printString key.toList ++
              ':' :: (print N v ++ (printMembers N fs ++ rest)))) = some ((key, v) :: fs, rest) :=
            readMembers_print (fun f hf => ⟨ih f hf (h f hf), by
              have := nesting_le_of_mem_members hf
              omega⟩) (by
              simp only [print, List.cons_append, List.length_cons, List.length_append] at hn ⊢
              omega)
          have hnot : ¬ depth ≤ 1 := by omega
          simp [readValue, print, skipSpace_of_head, isSpace, hnot, List.dropPrefix?, hmembers]

/-- **A printed text reads as the value it was**, where the reader goes deep enough. -/
theorem readText_printText (hv : Written N v) (hdepth : nesting v < depthLimit) :
    readText fits (printText N v) = some v := by
  have hread := reads_of_written hv (2 * (print N v).length + 2) depthLimit [] hdepth
    endsNumber_nil (by simp only [List.append_nil]; omega)
  rw [List.append_nil] at hread
  unfold readText readTextWith printText
  rw [String.toList_ofList, hread]
  rfl

theorem nesting_printElements {vs : List Json}
    (h : ∀ v ∈ vs, nesting v ≤ (print N v).length) :
    nestingElements vs ≤ (printElements N vs).length := by
  induction vs with
  | nil => simp [nestingElements]
  | cons v vs ih =>
    have hv := h v List.mem_cons_self
    have hvs := ih fun w hw => h w (List.mem_cons_of_mem v hw)
    simp only [nestingElements, printElements, List.length_cons, List.length_append]
    omega

theorem nesting_printMembers {fs : List (String × Json)}
    (h : ∀ f ∈ fs, nesting f.2 ≤ (print N f.2).length) :
    nestingMembers fs ≤ (printMembers N fs).length := by
  induction fs with
  | nil => simp [nestingMembers]
  | cons f fs ih =>
    obtain ⟨key, v⟩ := f
    have hv := h (key, v) List.mem_cons_self
    have hfs := ih fun g hg => h g (List.mem_cons_of_mem _ hg)
    simp only [nestingMembers, printMembers, List.length_cons, List.length_append] at hv ⊢
    omega

/-- A value is no deeper than its text is long. -/
theorem nesting_le_length (v : Json) : nesting v ≤ (print N v).length := by
  induction v using Json.induction with
  | null => simp [nesting]
  | bool b => simp [nesting]
  | num m e => simp [nesting]
  | str s => simp [nesting]
  | arr vs ih =>
    cases vs with
    | nil => simp [nesting, nestingElements, print]
    | cons v vs =>
      have hv := ih v List.mem_cons_self
      have hvs := nesting_printElements (N := N) fun w hw => ih w (List.mem_cons_of_mem v hw)
      simp only [nesting, nestingElements, print, List.length_cons, List.length_append]
      omega
  | obj fs ih =>
    cases fs with
    | nil => simp [nesting, nestingMembers, print]
    | cons f fs =>
      obtain ⟨key, v⟩ := f
      have hv := ih (key, v) List.mem_cons_self
      have hfs := nesting_printMembers (N := N) fun g hg => ih g (List.mem_cons_of_mem _ hg)
      simp only [nesting, nestingMembers, print, List.length_cons, List.length_append] at hv ⊢
      omega

/-- A text that is one value, however deep. -/
def readDeepText (fits : Int → Int → Bool) (text : String) : Option Json := do
  let (v, rest) ← readValue fits (2 * text.toList.length + 1) (text.toList.length + 1) text.toList
  if (skipSpace rest).isEmpty then some v else none

/-- **A printed text reads as the value it was**, by a reader that goes down without a limit. -/
theorem readDeepText_printText (hv : Written N v) :
    readDeepText fits (printText N v) = some v := by
  have hdepth := nesting_le_length (N := N) v
  have hread := reads_of_written hv (2 * (print N v).length + 1) ((print N v).length + 1) []
    (by omega) endsNumber_nil (by simp only [List.append_nil]; omega)
  rw [List.append_nil] at hread
  unfold readDeepText printText
  rw [String.toList_ofList, hread]
  rfl

end

end Json

/-- The bytes of a text read as the text. -/
theorem fromUTF8?_toUTF8 (s : String) : String.fromUTF8? s.toUTF8 = some s := by
  have hvalid : s.toUTF8.IsValidUTF8 := s.isValidUTF8
  rw [String.fromUTF8?, dif_pos hvalid]
  rfl

end Lib
end MatrixCrypto
