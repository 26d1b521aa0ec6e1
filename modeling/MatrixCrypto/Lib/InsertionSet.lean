import Mathlib.Data.List.Nodup

/-!
# Sets that remember the order of insertion

A set that is walked in the order its elements were added: adding an element that is
there changes nothing, and one that was deleted and is added again goes to the end.

* `InsertionSet α` — the elements, in order and each once.
* `add`, `delete` — and what they leave, `mem_add` and `mem_delete`.
-/

namespace MatrixCrypto
namespace Lib

universe u

/-- A set that remembers the order its elements were added in. -/
structure InsertionSet (α : Type u) where
  elems : List α
  nodup : elems.Nodup

namespace InsertionSet

variable {α : Type u} [DecidableEq α]

/-- No elements. -/
def empty : InsertionSet α := ⟨[], List.nodup_nil⟩

instance : Membership α (InsertionSet α) := ⟨fun s a => a ∈ s.elems⟩

instance (s : InsertionSet α) (a : α) : Decidable (a ∈ s) :=
  inferInstanceAs (Decidable (a ∈ s.elems))

/-- Add an element at the end, unless it is there. -/
def add (s : InsertionSet α) (a : α) : InsertionSet α :=
  if h : a ∈ s.elems then s
  else ⟨s.elems ++ [a], by
    rw [List.nodup_append]
    refine ⟨s.nodup, List.nodup_singleton a, ?_⟩
    intro b hb c hc heq
    rw [List.mem_singleton] at hc
    exact h (hc ▸ heq ▸ hb)⟩

/-- Delete an element. -/
def delete (s : InsertionSet α) (a : α) : InsertionSet α := ⟨s.elems.erase a, s.nodup.erase a⟩

variable {s : InsertionSet α} {a b : α}

omit [DecidableEq α] in
@[simp] theorem not_mem_empty : a ∉ (empty : InsertionSet α) := List.not_mem_nil

@[simp] theorem mem_add : b ∈ s.add a ↔ b ∈ s ∨ b = a := by
  unfold add
  split
  · next h =>
    constructor
    · exact Or.inl
    · intro hb
      rcases hb with hb | rfl
      · exact hb
      · exact h
  · show b ∈ s.elems ++ [a] ↔ b ∈ s ∨ b = a
    rw [List.mem_append, List.mem_singleton]
    exact Iff.rfl

@[simp] theorem mem_delete : b ∈ s.delete a ↔ b ∈ s ∧ b ≠ a := by
  show b ∈ s.elems.erase a ↔ b ∈ s ∧ b ≠ a
  rw [s.nodup.mem_erase_iff, and_comm]
  exact Iff.rfl

omit [DecidableEq α] in
/-- Nothing is left of a set that has no element. -/
theorem elems_eq_nil : s.elems = [] ↔ ∀ a, a ∉ s := List.eq_nil_iff_forall_not_mem

end InsertionSet

end Lib
end MatrixCrypto
