import MatrixCrypto.Lib.OrdMap

/-!
# Maps that keep the better of two values

Values are filed under a key of their own, and one that is offered takes the place of the one that
is filed there where it is better.  Nothing that is held is ever lost to a worse one.

## Main definitions

* `Filing` — where a value is filed, and when it is better than another.
* `Filing.takes`, `Filing.Holds` — the map takes a value; it holds one that is no worse.
* `Filing.Merges` — what offering a list of values makes of a map.
* `Filing.offerAll` — one by one.

## Main results

* `Merges.holds`, `Merges.holds_offered` — **what was held and what was offered is held.**
* `Merges.of_holds` — values that are all held change nothing, and none is taken.
* `merges_offerAll` — offering one by one does it.
-/

namespace MatrixCrypto
namespace Lib

universe u v

/-- Where a value is filed, and when it is better than another. -/
structure Filing (κ : Type u) (α : Type v) where
  key : α → κ
  better : α → α → Bool
  irrefl : ∀ a, better a a = false
  trans : ∀ {a b c}, better a b = true → better b c = true → better a c = true

namespace Filing

variable {κ : Type u} {α : Type v} [LinearOrder κ] (F : Filing κ α)

/-- The map has no value there, or a worse one. -/
def takes (m : OrdMap κ α) (a : α) : Bool :=
  match m.get? (F.key a) with
  | none => true
  | some b => F.better a b

/-- The map has a value there that is no worse. -/
def Holds (m : OrdMap κ α) (a : α) : Prop :=
  ∃ b, m.get? (F.key a) = some b ∧ F.better a b = false

theorem holds_iff {m : OrdMap κ α} {a : α} : F.Holds m a ↔ F.takes m a = false := by
  unfold Holds takes
  cases m.get? (F.key a) <;> simp

/-- What a list of values makes of a map, and how many were taken. -/
structure Merges (m : OrdMap κ α) (offered : List α) (count : ℕ) (m' : OrdMap κ α) : Prop where
  /-- What is there now was there, or was offered and taken. -/
  origin : ∀ k b, m'.get? k = some b →
    m.get? k = some b ∨ b ∈ offered ∧ F.key b = k ∧ F.takes m b = true
  /-- What was there is there, or a better one. -/
  kept : ∀ k a, m.get? k = some a → ∃ b, m'.get? k = some b ∧ (b = a ∨ F.better b a = true)
  /-- Where no two values are filed alike, every one that is taken is there now. -/
  taken : (offered.map F.key).Nodup → ∀ a ∈ offered, F.takes m a = true →
    m'.get? (F.key a) = some a
  count : (offered.map F.key).Nodup → count = offered.countP fun a => F.takes m a

variable {F} {m m' : OrdMap κ α} {offered : List α} {count : ℕ}

namespace Merges

/-- **What was held is held.** -/
theorem holds (h : F.Merges m offered count m') {a : α} (ha : F.Holds m a) : F.Holds m' a := by
  obtain ⟨b, hb, hworse⟩ := ha
  obtain ⟨c, hc, heq | hbetter⟩ := h.kept _ _ hb
  · exact ⟨c, hc, heq ▸ hworse⟩
  · refine ⟨c, hc, ?_⟩
    by_contra hne
    have hac : F.better a c = true := by simpa using hne
    rw [F.trans hac hbetter] at hworse
    cases hworse

/-- **What was offered is held.** -/
theorem holds_offered (h : F.Merges m offered count m') (hapart : (offered.map F.key).Nodup) {a : α}
    (ha : a ∈ offered) : F.Holds m' a := by
  cases htakes : F.takes m a with
  | true => exact ⟨a, h.taken hapart a ha htakes, F.irrefl a⟩
  | false => exact h.holds (F.holds_iff.mpr htakes)

/-- Values that are all held change nothing, and none is taken. -/
theorem of_holds (h : F.Merges m offered count m') (hheld : ∀ a ∈ offered, F.Holds m a) :
    (∀ k, m'.get? k = m.get? k) ∧ ((offered.map F.key).Nodup → count = 0) := by
  have hnot : ∀ a ∈ offered, F.takes m a = false := fun a ha => F.holds_iff.mp (hheld a ha)
  have hback : ∀ k b, m'.get? k = some b → m.get? k = some b := by
    intro k b hb
    rcases h.origin k b hb with hm | ⟨hmem, -, htakes⟩
    · exact hm
    · rw [hnot b hmem] at htakes
      cases htakes
  refine ⟨fun k => ?_, fun hapart => ?_⟩
  · cases hk : m.get? k with
    | none =>
      by_contra hne
      obtain ⟨b, hb⟩ := Option.ne_none_iff_exists'.mp hne
      rw [hback k b hb] at hk
      cases hk
    | some a =>
      obtain ⟨b, hb, -⟩ := h.kept k a hk
      rw [hb, ← hk, hback k b hb]
  · rw [h.count hapart, List.countP_eq_zero]
    intro a ha
    simp [hnot a ha]

end Merges

/-! ### One by one -/

/-- One value is offered. -/
def offer (F : Filing κ α) (m : OrdMap κ α) (a : α) : OrdMap κ α :=
  if F.takes m a then m.insert (F.key a) a else m

/-- The values are offered one by one, each beside the number that were taken. -/
def offerAll (F : Filing κ α) (m : OrdMap κ α) : List α → ℕ × OrdMap κ α
  | [] => (0, m)
  | a :: as =>
    let rest := F.offerAll (F.offer m a) as
    (if F.takes m a then rest.1 + 1 else rest.1, rest.2)

theorem get?_offer (m : OrdMap κ α) (a : α) (k : κ) :
    (F.offer m a).get? k = if k = F.key a ∧ F.takes m a = true then some a else m.get? k := by
  unfold offer
  cases htakes : F.takes m a with
  | false => simp
  | true =>
    rw [if_pos rfl, OrdMap.get?_insert]
    simp

/-- Whether a value is taken is decided by what is filed where it belongs. -/
theorem takes_offer {a b : α} (h : F.key b ≠ F.key a) :
    F.takes (F.offer m a) b = F.takes m b := by
  unfold takes
  rw [get?_offer, if_neg fun hk => h hk.1]

/-- A value that is taken after another was offered is taken before it. -/
theorem takes_of_takes_offer {a b : α} (h : F.takes (F.offer m a) b = true) :
    F.takes m b = true := by
  by_contra hne
  have hheld : F.Holds m b := F.holds_iff.mpr (by simpa using hne)
  obtain ⟨c, hc, hworse⟩ := hheld
  unfold takes at h
  rw [get?_offer] at h
  by_cases hcond : F.key b = F.key a ∧ F.takes m a = true
  · rw [if_pos hcond] at h
    have hac : F.better a c = true := by
      have htakes := hcond.2
      unfold takes at htakes
      rw [← hcond.1, hc] at htakes
      exact htakes
    rw [F.trans h hac] at hworse
    cases hworse
  · rw [if_neg hcond, hc] at h
    change F.better b c = true at h
    rw [hworse] at h
    cases h

/-- **Offering one by one keeps the better of two values.** -/
theorem merges_offerAll (offered : List α) : ∀ m : OrdMap κ α,
    F.Merges m offered (F.offerAll m offered).1 (F.offerAll m offered).2 := by
  induction offered with
  | nil =>
    intro m
    refine ⟨fun k b h => Or.inl h, fun k a h => ⟨a, h, Or.inl rfl⟩, fun _ a ha => ?_, fun _ => rfl⟩
    simp at ha
  | cons a as ih =>
    intro m
    obtain ⟨horigin, hkept, htaken, hcount⟩ := ih (F.offer m a)
    refine ⟨fun k b hb => ?_, fun k c hc => ?_, fun hapart b hb htakes => ?_, fun hapart => ?_⟩
    · rcases horigin k b hb with hm | ⟨hmem, hkey, htakes⟩
      · rw [get?_offer] at hm
        split at hm
        · next hcond =>
          rw [← Option.some.inj hm]
          exact Or.inr ⟨List.mem_cons_self, hcond.1.symm, hcond.2⟩
        · exact Or.inl hm
      · exact Or.inr ⟨List.mem_cons_of_mem _ hmem, hkey, takes_of_takes_offer htakes⟩
    · by_cases hcond : k = F.key a ∧ F.takes m a = true
      · -- the value filed there gave way to a better one
        have hbetter : F.better a c = true := by
          have htakes := hcond.2
          unfold takes at htakes
          rw [← hcond.1, hc] at htakes
          exact htakes
        obtain ⟨b, hb, hor⟩ := hkept k a (by rw [get?_offer, if_pos hcond])
        refine ⟨b, hb, Or.inr ?_⟩
        rcases hor with rfl | hba
        · exact hbetter
        · exact F.trans hba hbetter
      · exact hkept k c (by rw [get?_offer, if_neg hcond]; exact hc)
    · rw [List.map_cons, List.nodup_cons] at hapart
      rcases List.mem_cons.mp hb with rfl | hb
      · -- nothing that follows is filed there
        have hfiled : (F.offer m b).get? (F.key b) = some b := by
          rw [get?_offer, if_pos ⟨rfl, htakes⟩]
        obtain ⟨c, hc, -⟩ := hkept _ _ hfiled
        rcases horigin _ _ hc with hm | ⟨hmem, hkey, -⟩
        · rw [hfiled] at hm
          exact hm ▸ hc
        · exact absurd (List.mem_map.mpr ⟨c, hmem, hkey⟩) hapart.1
      · have hne : F.key b ≠ F.key a := fun heq =>
          hapart.1 (heq ▸ List.mem_map_of_mem hb)
        exact htaken hapart.2 b hb (by rw [takes_offer hne]; exact htakes)
    · rw [List.map_cons, List.nodup_cons] at hapart
      have hsame : as.countP (fun b => F.takes (F.offer m a) b) =
          as.countP fun b => F.takes m b := by
        refine List.countP_congr fun b hb => ?_
        have hne : F.key b ≠ F.key a := fun heq => hapart.1 (heq ▸ List.mem_map_of_mem hb)
        rw [takes_offer hne]
      rw [List.countP_cons, ← hsame, ← hcount hapart.2]
      show (if F.takes m a then (F.offerAll (F.offer m a) as).1 + 1
        else (F.offerAll (F.offer m a) as).1) = _
      cases F.takes m a <;> rfl

end Filing

end Lib
end MatrixCrypto
