import Mathlib.Data.List.Induction

/-!
# Ledgers

A ledger lists what happened, in order.  What may be entered depends on what was entered before: a
ledger is justified if each of its entries is, by those in front of it.

## Main definitions

* `Justified J l` — every entry of `l` is justified by what stands in front of it.

## Main results

* `justified_append_singleton` — an entry is added to a justified ledger where it is justified.
* `Justified.countP_le` — what needs a credit of its own is entered no oftener than the credits.
-/

namespace MatrixCrypto
namespace Lib

universe u

variable {ε : Type u}

/-- Every entry is justified by what stands in front of it. -/
def Justified (J : List ε → ε → Prop) (l : List ε) : Prop :=
  ∀ l₁ e l₂, l = l₁ ++ e :: l₂ → J l₁ e

variable {J : List ε → ε → Prop} {l : List ε} {e : ε}

theorem justified_nil : Justified J [] := by
  intro l₁ e l₂ h
  simp at h

theorem justified_append_singleton : Justified J (l ++ [e]) ↔ Justified J l ∧ J l e := by
  constructor
  · intro h
    refine ⟨fun l₁ e' l₂ hl => h l₁ e' (l₂ ++ [e]) ?_, h l e [] rfl⟩
    rw [hl, List.append_assoc, List.cons_append]
  · rintro ⟨hl, he⟩ l₁ e' l₂ h
    induction l₂ using List.reverseRecOn with
    | nil =>
      obtain ⟨rfl, heq⟩ := List.append_inj' h rfl
      rwa [← List.singleton_inj.mp heq]
    | append_singleton l₂ e'' _ =>
      rw [← List.cons_append, ← List.append_assoc] at h
      exact hl l₁ e' l₂ (List.append_inj' h rfl).1

/-- Where each `p` needs more `q`s in front of it than `p`s, there are no more `p`s than `q`s. -/
theorem Justified.countP_le {p q : ε → Bool} (h : Justified J l)
    (hJ : ∀ l e, J l e → p e = true → l.countP p < l.countP q) : l.countP p ≤ l.countP q := by
  induction l using List.reverseRecOn with
  | nil => simp
  | append_singleton l e ih =>
    obtain ⟨hl, he⟩ := justified_append_singleton.mp h
    have hbefore := ih hl
    rw [List.countP_append, List.countP_append, List.countP_singleton, List.countP_singleton]
    cases hp : p e with
    | false =>
      simp only [Bool.false_eq_true, if_false]
      omega
    | true =>
      have hless := hJ l e he hp
      simp only [if_true]
      omega

end Lib
end MatrixCrypto
