import MatrixCrypto.Lib.OrdMap

/-!
# What is passed on from one map to the next

A step over a map passes some entries on, each under its own key and each changed as a
relation allows, drops others, and puts in what it was given.

## Main definitions

* `OrdMap.Passes` — what a step drops, what it was given, and how it changes the rest.

## Main results

* `Passes.refl`, `Passes.drops_gives` — the step that changes nothing, and a step that only
  drops followed by one that only gives.
* `Passes.filter_mapValues`, `Passes.mapValues`, `Passes.insert`, `Passes.give`,
  `Passes.erase` — the operations.
-/

namespace MatrixCrypto
namespace Lib

universe u v

namespace OrdMap

variable {κ : Type u} {α : Type v} [LinearOrder κ]

/-- Every entry of the first map is dropped or passed on, and every entry of the second was
passed on or given. -/
structure Passes (R : α → α → Prop) (dropped given : κ → α → Prop) (m m' : OrdMap κ α) :
    Prop where
  on : ∀ k a, m.get? k = some a → dropped k a ∨ ∃ a', m'.get? k = some a' ∧ R a a'
  only : ∀ k a', m'.get? k = some a' →
    (∃ a, m.get? k = some a ∧ R a a') ∨ ∃ a, given k a ∧ R a a'

namespace Passes

variable {R : α → α → Prop} {dropped given dropped' given' : κ → α → Prop} {m m' m'' : OrdMap κ α}

theorem refl (hR : ∀ a, R a a) (m : OrdMap κ α) : Passes R dropped given m m :=
  ⟨fun _ a h => Or.inr ⟨a, h, hR a⟩, fun _ a h => Or.inl ⟨a, h, hR a⟩⟩

theorem mono (h : Passes R dropped given m m') (hd : ∀ k a, dropped k a → dropped' k a)
    (hg : ∀ k a, given k a → given' k a) : Passes R dropped' given' m m' := by
  constructor
  · intro k a hget
    exact (h.on k a hget).imp (hd k a) id
  · intro k a' hget
    rcases h.only k a' hget with hon | ⟨a, hgiven, hR⟩
    · exact Or.inl hon
    · exact Or.inr ⟨a, hg k a hgiven, hR⟩

/-- A step that only drops, and then one that only gives. -/
theorem drops_gives (hR : ∀ {a b c}, R a b → R b c → R a c)
    (h₁ : Passes R dropped (fun _ _ => False) m m')
    (h₂ : Passes R (fun _ _ => False) given m' m'') : Passes R dropped given m m'' := by
  constructor
  · intro k a hget
    rcases h₁.on k a hget with hdropped | ⟨a', hget', haa'⟩
    · exact Or.inl hdropped
    · rcases h₂.on k a' hget' with hfalse | ⟨a'', hget'', ha'a''⟩
      · exact hfalse.elim
      · exact Or.inr ⟨a'', hget'', hR haa' ha'a''⟩
  · intro k a'' hget
    rcases h₂.only k a'' hget with ⟨a', hget', ha'a''⟩ | hgiven
    · rcases h₁.only k a' hget' with ⟨a, hget, haa'⟩ | ⟨a, hfalse, -⟩
      · exact Or.inl ⟨a, hget, hR haa' ha'a''⟩
      · exact hfalse.elim
    · exact Or.inr hgiven

/-- Filtering, and changing every value that is left. -/
theorem filter_mapValues {p : κ → α → Bool} {f : κ → α → α} (hR : ∀ k a, R a (f k a)) :
    Passes R (fun k a => p k a = false) given m ((m.filter p).mapValues f) := by
  constructor
  · intro k a hget
    cases hp : p k a with
    | false => exact Or.inl rfl
    | true =>
      refine Or.inr ⟨f k a, ?_, hR k a⟩
      rw [get?_mapValues, get?_filter, hget, Option.filter_some, if_pos hp, Option.map_some]
  · intro k a' hget
    rw [get?_mapValues, get?_filter, Option.map_eq_some_iff] at hget
    obtain ⟨a, ha, rfl⟩ := hget
    exact Or.inl ⟨a, (Option.filter_eq_some_iff.mp ha).1, hR k a⟩

theorem mapValues {f : κ → α → α} (hR : ∀ k a, R a (f k a)) :
    Passes R dropped given m (m.mapValues f) := by
  constructor
  · intro k a hget
    refine Or.inr ⟨f k a, ?_, hR k a⟩
    rw [get?_mapValues, hget, Option.map_some]
  · intro k a' hget
    rw [get?_mapValues, Option.map_eq_some_iff] at hget
    obtain ⟨a, ha, rfl⟩ := hget
    exact Or.inl ⟨a, ha, hR k a⟩

/-- Under one key there is something else than there was, and the rest is passed on. -/
theorem insert {k : κ} {a a' : α} (hrefl : ∀ a, R a a) (hget : m.get? k = some a) (hR : R a a') :
    Passes R dropped given m (m.insert k a') := by
  constructor
  · intro k' b hb
    rw [get?_insert]
    by_cases hk : k' = k
    · subst hk
      obtain rfl := Option.some.inj (hget.symm.trans hb)
      exact Or.inr ⟨a', if_pos rfl, hR⟩
    · exact Or.inr ⟨b, by rw [if_neg hk, hb], hrefl b⟩
  · intro k' b hb
    rw [get?_insert] at hb
    by_cases hk : k' = k
    · subst hk
      rw [if_pos rfl] at hb
      exact Or.inl ⟨a, hget, Option.some.inj hb ▸ hR⟩
    · rw [if_neg hk] at hb
      exact Or.inl ⟨b, hb, hrefl b⟩

/-- Where there was nothing, there is what was given. -/
theorem give {k : κ} {a a' : α} (hrefl : ∀ a, R a a) (hget : m.get? k = none) (hR : R a a') :
    Passes R dropped (fun k' b => k' = k ∧ b = a) m (m.insert k a') := by
  constructor
  · intro k' b hb
    rw [get?_insert]
    by_cases hk : k' = k
    · rw [hk, hget] at hb
      cases hb
    · exact Or.inr ⟨b, by rw [if_neg hk, hb], hrefl b⟩
  · intro k' b hb
    rw [get?_insert] at hb
    by_cases hk : k' = k
    · rw [if_pos hk] at hb
      exact Or.inr ⟨a, ⟨hk, rfl⟩, Option.some.inj hb ▸ hR⟩
    · rw [if_neg hk] at hb
      exact Or.inl ⟨b, hb, hrefl b⟩

theorem erase {k : κ} (hrefl : ∀ a, R a a) :
    Passes R (fun k' _ => k' = k) given m (m.erase k) := by
  constructor
  · intro k' a hget
    by_cases hk : k' = k
    · exact Or.inl hk
    · exact Or.inr ⟨a, by rw [get?_erase, if_neg hk, hget], hrefl a⟩
  · intro k' a hget
    rw [get?_erase] at hget
    split at hget
    · cases hget
    · exact Or.inl ⟨a, hget, hrefl a⟩

end Passes

end OrdMap

end Lib
end MatrixCrypto
