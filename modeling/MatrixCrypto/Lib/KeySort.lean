import Mathlib.Data.List.Sort

/-!
# Stable sorting by a key, and order inside a list

Sorting a list by a numeric key, stably, and what can be said about the order
of two of its elements from their keys alone.

## Main definitions

* `sortByKey key l` — the stable sort of `l` by `key`.
* `Precedes x y l` — every occurrence of `y` in `l` has an `x` before it.
* `AllBefore P Q l` — every `P` of `l` stands before every `Q` of it.

## Main results

* `sublist_sortByKey_of_lt` — members with strictly increasing keys come out in
  that order, wherever they stood before.
* `key_le_of_sublist` — what comes first has the smaller key.
* `precedes_map_of_key_lt` — a member whose key is below the key of every `y`
  precedes `y`.
* `allBefore_sortByKey` — keys that put every `P` below every `Q` put it before.
-/

namespace MatrixCrypto
namespace Lib

universe u v

variable {α : Type u} {β : Type v}

/-- The stable sort of a list by a key. -/
def sortByKey (key : α → ℕ) (l : List α) : List α :=
  l.insertionSort (fun a b => key a ≤ key b)

@[simp] theorem mem_sortByKey {key : α → ℕ} {l : List α} {x : α} :
    x ∈ sortByKey key l ↔ x ∈ l :=
  List.mem_insertionSort _

theorem perm_sortByKey (key : α → ℕ) (l : List α) : (sortByKey key l).Perm l :=
  List.perm_insertionSort _ l

theorem pairwise_sortByKey (key : α → ℕ) (l : List α) :
    (sortByKey key l).Pairwise (fun a b => key a ≤ key b) := by
  have : Std.Total (fun a b : α => key a ≤ key b) := ⟨fun a b => Nat.le_total (key a) (key b)⟩
  have : IsTrans α (fun a b => key a ≤ key b) := ⟨fun _ _ _ => Nat.le_trans⟩
  exact List.pairwise_insertionSort _ l

/-- A list in key order holds, as a subsequence, every list of its members whose
keys strictly increase. -/
theorem sublist_of_pairwise_lt {key : α → ℕ} : ∀ {l c : List α},
    l.Pairwise (fun a b => key a ≤ key b) → c.Pairwise (fun a b => key a < key b) →
      (∀ x ∈ c, x ∈ l) → c.Sublist l := by
  classical
  intro l
  induction l with
  | nil =>
    intro c _ _ hmem
    cases c with
    | nil => exact List.Sublist.slnil
    | cons x c => simpa using hmem x
  | cons a l ih =>
    intro c hl hc hmem
    obtain ⟨ha, hl'⟩ := List.pairwise_cons.mp hl
    cases c with
    | nil => exact List.nil_sublist _
    | cons x c =>
      obtain ⟨hx, hc'⟩ := List.pairwise_cons.mp hc
      by_cases hxa : x = a
      · -- the head matches: the rest has larger keys, so it lies in the tail
        subst hxa
        refine List.Sublist.cons_cons x (ih hl' hc' fun y hy => ?_)
        rcases List.mem_cons.mp (hmem y (List.mem_cons_of_mem _ hy)) with rfl | h
        · exact absurd (hx _ hy) (Nat.lt_irrefl _)
        · exact h
      · -- the head is skipped: nothing in `c` can be it, its key being smallest
        have hxl : x ∈ l := by
          rcases List.mem_cons.mp (hmem x List.mem_cons_self) with h | h
          · exact absurd h hxa
          · exact h
        refine List.Sublist.cons a (ih hl' hc fun y hy => ?_)
        rcases List.mem_cons.mp hy with rfl | hy
        · exact hxl
        · rcases List.mem_cons.mp (hmem y (List.mem_cons_of_mem _ hy)) with rfl | h
          · exact absurd (hx _ hy) (Nat.not_lt.mpr (ha x hxl))
          · exact h

theorem sublist_sortByKey_of_lt {key : α → ℕ} {c l : List α}
    (hc : c.Pairwise (fun a b => key a < key b)) (hmem : ∀ x ∈ c, x ∈ l) :
    c.Sublist (sortByKey key l) :=
  sublist_of_pairwise_lt (pairwise_sortByKey key l) hc fun x hx => mem_sortByKey.mpr (hmem x hx)

/-- In key order, what comes first has the smaller key. -/
theorem key_le_of_sublist {key : α → ℕ} {l : List α} {x y : α}
    (hl : l.Pairwise (fun a b => key a ≤ key b)) (h : [x, y].Sublist l) : key x ≤ key y := by
  have := hl.sublist h
  simpa using this

/-! ### One element before another -/

/-- Every occurrence of `y` in `l` has an `x` before it. -/
def Precedes (x y : α) (l : List α) : Prop :=
  ∀ l₁ l₂, l = l₁ ++ y :: l₂ → x ∈ l₁

theorem Precedes.append_right {x y : α} {l m : List α} (h : Precedes x y l)
    (hm : y ∈ m → x ∈ l ∨ Precedes x y m) : Precedes x y (l ++ m) := by
  intro l₁ l₂ heq
  rcases List.append_eq_append_iff.mp heq with ⟨t, rfl, hm'⟩ | ⟨t, rfl, ht⟩
  · -- the occurrence lies in `m`
    have hy : y ∈ m := by rw [hm']; simp
    rcases hm hy with hx | hx
    · exact List.mem_append_left _ hx
    · exact List.mem_append_right _ (hx t l₂ hm')
  · -- the occurrence lies in `l`, or starts `m`
    cases t with
    | nil =>
      rw [List.nil_append] at ht
      have hy : y ∈ m := by rw [← ht]; simp
      rcases hm hy with hx | hx
      · simpa using hx
      · have := hx [] l₂ (by rw [← ht, List.nil_append])
        simp at this
    | cons z t =>
      rw [List.cons_append, List.cons.injEq] at ht
      exact h l₁ t (by rw [ht.1])

theorem precedes_of_not_mem {x y : α} {l : List α} (h : y ∉ l) : Precedes x y l := by
  intro l₁ l₂ heq
  exact absurd (heq ▸ by simp) h

/-- Dropping a first element other than `x` keeps the order. -/
theorem Precedes.tail {x y z : α} {l : List α} (h : Precedes x y (z :: l)) (hz : z ≠ x) :
    Precedes x y l := by
  intro l₁ l₂ heq
  rcases List.mem_cons.mp (h (z :: l₁) l₂ (by rw [heq, List.cons_append])) with hx | hx
  · exact absurd hx.symm hz
  · exact hx

theorem not_precedes_cons (x y : α) (l : List α) : ¬ Precedes x y (y :: l) := by
  intro h
  have hx := h [] l rfl
  cases hx

/-- In key order, a member whose key is below the key of every occurrence of `y`
precedes `y`. -/
theorem precedes_map_of_key_lt {key : α → ℕ} {f : α → β} {l : List α} {a : α} {y : β}
    (hl : l.Pairwise (fun a b => key a ≤ key b)) (ha : a ∈ l)
    (hlt : ∀ b ∈ l, f b = y → key a < key b) : Precedes (f a) y (l.map f) := by
  intro l₁ l₂ heq
  obtain ⟨m₁, m₂, rfl, rfl, hm₂⟩ := List.map_eq_append_iff.mp heq
  cases m₂ with
  | nil => simp at hm₂
  | cons b m₂ =>
    rw [List.map_cons, List.cons.injEq] at hm₂
    have hab : key a < key b := hlt b (by simp) hm₂.1
    rcases List.mem_append.mp ha with h | h
    · exact List.mem_map_of_mem h
    · -- `a` cannot stand at or after `b`
      have hge : key b ≤ key a := by
        rcases List.mem_cons.mp h with rfl | h
        · exact Nat.le_refl _
        · exact (List.pairwise_cons.mp (List.pairwise_append.mp hl).2.1).1 a h
      exact absurd hab (Nat.not_lt.mpr hge)

/-! ### One kind of element before another -/

/-- Every element of `l` with `P` stands before every one with `Q`. -/
def AllBefore (P Q : α → Prop) (l : List α) : Prop := l.Pairwise fun x y => ¬ (Q x ∧ P y)

/-- What is before a kind is before any part of it. -/
theorem AllBefore.imp {P P' Q : α → Prop} {l : List α} (h : AllBefore P Q l)
    (hP : ∀ x, P' x → P x) : AllBefore P' Q l :=
  List.Pairwise.imp (fun hxy h => hxy ⟨h.1, hP _ h.2⟩) h

/-- Keys that put every `P` below every `Q` put it before. -/
theorem allBefore_sortByKey {key : α → ℕ} {P Q : α → Prop} {l : List α}
    (h : ∀ x ∈ l, ∀ y ∈ l, P x → Q y → key x < key y) : AllBefore P Q (sortByKey key l) := by
  have hsorted := pairwise_sortByKey key l
  refine List.Pairwise.imp_of_mem ?_ hsorted
  rintro x y hx hy hle ⟨hQ, hP⟩
  have hlt := h y (mem_sortByKey.mp hy) x (mem_sortByKey.mp hx) hP hQ
  omega

end Lib
end MatrixCrypto
