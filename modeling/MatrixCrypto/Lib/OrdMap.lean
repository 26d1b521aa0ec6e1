import Mathlib.Data.List.Lemmas
import Mathlib.Order.Basic
import Mathlib.Order.Defs.LinearOrder

/-!
# Ordered maps

Finite maps whose entries are kept in strictly increasing key order, so that
iterating one visits the keys in order and each key once.  The order is a field
of the structure: no operation can build a map that has lost it.

## Main definitions

* `OrdMap κ α` — the entries, with the proof that their keys increase.
* `get?`, `contains`, `insert`, `erase`, `filter`, `mapValues` — the operations.
* `ofList` — the map of some entries, a repeated key with its last value.

## Main results

* `get?_eq_some` — looking a key up finds exactly its entry.
* `get?_insert`, `get?_erase`, `get?_filter`, `get?_mapValues` — how the
  operations compose with looking up.
* `get?_ofList_apart` — lists that differ in one value make maps that differ there.
-/

namespace MatrixCrypto
namespace Lib

universe u v w

/-- A finite map with its entries in strictly increasing key order. -/
structure OrdMap (κ : Type u) (α : Type v) [LinearOrder κ] where
  entries : List (κ × α)
  sorted : entries.Pairwise (fun a b => a.1 < b.1)

namespace OrdMap

variable {κ : Type u} {α : Type v} {β : Type w} [LinearOrder κ]

instance [DecidableEq α] : DecidableEq (OrdMap κ α) := fun m n =>
  decidable_of_iff (m.entries = n.entries)
    ⟨fun h => by cases m; cases n; congr, fun h => by rw [h]⟩

/-- The map with no entry. -/
def empty : OrdMap κ α := ⟨[], .nil⟩

instance : EmptyCollection (OrdMap κ α) := ⟨empty⟩

instance : Inhabited (OrdMap κ α) := ⟨empty⟩

/-- The value under a key. -/
def get? (m : OrdMap κ α) (k : κ) : Option α :=
  (m.entries.find? (fun e => e.1 = k)).map Prod.snd

/-- Whether a key has an entry. -/
def contains (m : OrdMap κ α) (k : κ) : Bool := (m.get? k).isSome

/-- Put an entry in its place, over the entry its key had. -/
def insertEntry (k : κ) (v : α) : List (κ × α) → List (κ × α)
  | [] => [(k, v)]
  | e :: l => if k < e.1 then (k, v) :: e :: l
    else if k = e.1 then (k, v) :: l
    else e :: insertEntry k v l

theorem mem_insertEntry_key {k : κ} {v : α} {x : κ × α} : ∀ {l : List (κ × α)},
    x ∈ insertEntry k v l → x = (k, v) ∨ x ∈ l := by
  intro l
  induction l with
  | nil => simp [insertEntry]
  | cons e l ih =>
    intro h
    simp only [insertEntry] at h
    split at h
    · simpa using h
    split at h
    · rcases List.mem_cons.mp h with h | h
      · exact Or.inl h
      · exact Or.inr (List.mem_cons_of_mem _ h)
    · rcases List.mem_cons.mp h with h | h
      · exact Or.inr (h ▸ List.mem_cons_self)
      · rcases ih h with h | h
        · exact Or.inl h
        · exact Or.inr (List.mem_cons_of_mem _ h)

theorem sorted_insertEntry {k : κ} {v : α} : ∀ {l : List (κ × α)},
    l.Pairwise (fun a b => a.1 < b.1) →
      (insertEntry k v l).Pairwise (fun a b => a.1 < b.1) := by
  intro l
  induction l with
  | nil => intro _; simp [insertEntry]
  | cons e l ih =>
    intro h
    obtain ⟨he, hl⟩ := List.pairwise_cons.mp h
    simp only [insertEntry]
    split
    · next hlt =>
      refine List.pairwise_cons.mpr ⟨fun x hx => ?_, h⟩
      rcases List.mem_cons.mp hx with rfl | hx
      · exact hlt
      · exact lt_trans hlt (he x hx)
    split
    · next heq =>
      exact List.pairwise_cons.mpr ⟨fun x hx => heq ▸ he x hx, hl⟩
    · next hnlt hne =>
      refine List.pairwise_cons.mpr ⟨fun x hx => ?_, ih hl⟩
      rcases mem_insertEntry_key hx with rfl | hx
      · exact lt_of_le_of_ne (not_lt.mp hnlt) (Ne.symm hne)
      · exact he x hx

/-- Insert an entry, over the entry its key had. -/
def insert (m : OrdMap κ α) (k : κ) (v : α) : OrdMap κ α :=
  ⟨insertEntry k v m.entries, sorted_insertEntry m.sorted⟩

/-- Drop the entries a test refuses. -/
def filter (m : OrdMap κ α) (p : κ → α → Bool) : OrdMap κ α :=
  ⟨m.entries.filter (fun e => p e.1 e.2), m.sorted.filter _⟩

/-- Drop the entry of a key. -/
def erase (m : OrdMap κ α) (k : κ) : OrdMap κ α := m.filter (fun k' _ => k' ≠ k)

/-- Rewrite every value in place. -/
def mapValues (m : OrdMap κ α) (f : κ → α → β) : OrdMap κ β :=
  ⟨m.entries.map (fun e => (e.1, f e.1 e.2)), by
    rw [List.pairwise_map]
    exact m.sorted⟩

/-! ### Looking up -/

/-- Two entries under one key are one entry. -/
theorem entry_unique (m : OrdMap κ α) {k : κ} {v v' : α} (h : (k, v) ∈ m.entries)
    (h' : (k, v') ∈ m.entries) : v = v' := by
  have key : ∀ {l : List (κ × α)}, l.Pairwise (fun a b => a.1 < b.1) →
      (k, v) ∈ l → (k, v') ∈ l → v = v' := by
    intro l hl
    induction hl with
    | nil => intro h; simp at h
    | @cons e l he _ ih =>
      intro h h'
      rcases List.mem_cons.mp h with h | h <;> rcases List.mem_cons.mp h' with h' | h'
      · rw [← h] at h'; exact (congrArg Prod.snd h').symm
      · have := he _ h'; rw [← h] at this; exact absurd this (lt_irrefl k)
      · have := he _ h; rw [← h'] at this; exact absurd this (lt_irrefl k)
      · exact ih h h'
  exact key m.sorted h h'

theorem get?_eq_some {m : OrdMap κ α} {k : κ} {v : α} :
    m.get? k = some v ↔ (k, v) ∈ m.entries := by
  constructor
  · intro h
    obtain ⟨e, he, rfl⟩ := Option.map_eq_some_iff.mp h
    have hk : e.1 = k := by simpa using List.find?_some he
    exact hk ▸ List.mem_of_find?_eq_some he
  · intro h
    cases hf : m.entries.find? (fun e => e.1 = k) with
    | none =>
      have := List.find?_eq_none.mp hf _ h
      simp at this
    | some e =>
      have hk : e.1 = k := by simpa using List.find?_some hf
      have he : (k, e.2) ∈ m.entries := hk ▸ List.mem_of_find?_eq_some hf
      simp [get?, hf, m.entry_unique he h]

theorem get?_eq_none {m : OrdMap κ α} {k : κ} :
    m.get? k = none ↔ ∀ v, (k, v) ∉ m.entries := by
  constructor
  · intro h v hv
    rw [get?_eq_some.mpr hv] at h
    exact absurd h (by simp)
  · intro h
    cases hg : m.get? k with
    | none => rfl
    | some v => exact absurd (get?_eq_some.mp hg) (h v)

/-- Lookups that find the same entries are equal. -/
theorem get?_eq_of_mem {m : OrdMap κ α} {k : κ} {o : Option α}
    (h : ∀ v, (k, v) ∈ m.entries ↔ o = some v) : m.get? k = o := by
  cases o with
  | none => exact get?_eq_none.mpr fun v hv => by simpa using (h v).mp hv
  | some v => exact get?_eq_some.mpr ((h v).mpr rfl)

@[simp] theorem get?_empty (k : κ) : (empty : OrdMap κ α).get? k = none := rfl

@[simp] theorem entries_empty : (empty : OrdMap κ α).entries = [] := rfl

theorem mem_insertEntry {k : κ} {v : α} {x : κ × α} : ∀ {l : List (κ × α)},
    l.Pairwise (fun a b => a.1 < b.1) →
      (x ∈ insertEntry k v l ↔ x = (k, v) ∨ (x.1 ≠ k ∧ x ∈ l)) := by
  intro l hl
  induction hl with
  | nil => simp [insertEntry]
  | @cons e l he hl ih =>
    simp only [insertEntry]
    split
    · next hlt =>
      have hne : ∀ y ∈ e :: l, y.1 ≠ k := by
        intro y hy
        rcases List.mem_cons.mp hy with rfl | hy
        · exact ne_of_gt hlt
        · exact ne_of_gt (lt_trans hlt (he y hy))
      rw [List.mem_cons]
      exact or_congr_right ⟨fun h => ⟨hne x h, h⟩, fun h => h.2⟩
    split
    · next heq =>
      have hne : ∀ y ∈ l, y.1 ≠ k := fun y hy => ne_of_gt (heq ▸ he y hy)
      rw [List.mem_cons, List.mem_cons]
      constructor
      · rintro (h | h)
        · exact Or.inl h
        · exact Or.inr ⟨hne x h, Or.inr h⟩
      · rintro (h | ⟨hk, h | h⟩)
        · exact Or.inl h
        · exact absurd (h ▸ heq.symm) hk
        · exact Or.inr h
    · next _ hne =>
      rw [List.mem_cons, ih, List.mem_cons]
      constructor
      · rintro (h | h | ⟨hk, h⟩)
        · exact Or.inr ⟨h ▸ Ne.symm hne, Or.inl h⟩
        · exact Or.inl h
        · exact Or.inr ⟨hk, Or.inr h⟩
      · rintro (h | ⟨hk, h | h⟩)
        · exact Or.inr (Or.inl h)
        · exact Or.inl h
        · exact Or.inr (Or.inr ⟨hk, h⟩)

theorem mem_insert {m : OrdMap κ α} {k : κ} {v : α} {x : κ × α} :
    x ∈ (m.insert k v).entries ↔ x = (k, v) ∨ (x.1 ≠ k ∧ x ∈ m.entries) :=
  mem_insertEntry m.sorted

theorem mem_filter {m : OrdMap κ α} {p : κ → α → Bool} {x : κ × α} :
    x ∈ (m.filter p).entries ↔ x ∈ m.entries ∧ p x.1 x.2 = true :=
  List.mem_filter

theorem get?_insert (m : OrdMap κ α) (k k' : κ) (v : α) :
    (m.insert k v).get? k' = if k' = k then some v else m.get? k' := by
  refine get?_eq_of_mem fun v' => ?_
  rw [mem_insert]
  by_cases h : k' = k
  · simp only [h, Prod.mk.injEq, true_and, ne_eq, not_true, false_and, or_false, if_true,
      Option.some.injEq]
    exact eq_comm
  · simp [h, get?_eq_some]

@[simp] theorem get?_insert_self (m : OrdMap κ α) (k : κ) (v : α) :
    (m.insert k v).get? k = some v := by
  rw [get?_insert, if_pos rfl]

theorem get?_insert_of_ne (m : OrdMap κ α) {k k' : κ} (v : α) (h : k' ≠ k) :
    (m.insert k v).get? k' = m.get? k' := by
  rw [get?_insert, if_neg h]

theorem get?_filter (m : OrdMap κ α) (p : κ → α → Bool) (k : κ) :
    (m.filter p).get? k = (m.get? k).filter (p k) := by
  refine get?_eq_of_mem fun v => ?_
  rw [mem_filter, Option.filter_eq_some_iff, get?_eq_some]

theorem get?_erase (m : OrdMap κ α) (k k' : κ) :
    (m.erase k).get? k' = if k' = k then none else m.get? k' := by
  rw [erase, get?_filter]
  by_cases h : k' = k
  · simp only [h, ne_eq, not_true_eq_false, decide_false, if_true]
    cases m.get? k <;> rfl
  · simp only [ne_eq, h, not_false_eq_true, decide_true, if_false]
    cases m.get? k' <;> rfl

theorem get?_mapValues (m : OrdMap κ α) (f : κ → α → β) (k : κ) :
    (m.mapValues f).get? k = (m.get? k).map (f k) := by
  refine get?_eq_of_mem fun v => ?_
  rw [Option.map_eq_some_iff]
  simp only [mapValues, List.mem_map, Prod.mk.injEq, get?_eq_some]
  constructor
  · rintro ⟨⟨k', v'⟩, he, rfl, rfl⟩
    exact ⟨v', he, rfl⟩
  · rintro ⟨v', he, rfl⟩
    exact ⟨(k, v'), he, rfl, rfl⟩

theorem contains_eq_true {m : OrdMap κ α} {k : κ} :
    m.contains k = true ↔ ∃ v, m.get? k = some v := by
  rw [contains, Option.isSome_iff_exists]

/-! ### Maps of lists -/

/-- Insert entries, one after another. -/
def insertAll (m : OrdMap κ α) (l : List (κ × α)) : OrdMap κ α :=
  l.foldl (fun m e => m.insert e.1 e.2) m

/-- The map of some entries. -/
def ofList (l : List (κ × α)) : OrdMap κ α := empty.insertAll l

/-- Maps that agree at a key, but for `a` in one being `b` in the other, still do
after the same insertion. -/
theorem get?_insert_apart {m m' : OrdMap κ α} {k k' : κ} {a b : α}
    (h : m.get? k' = m'.get? k' ∨ k' = k ∧ m.get? k' = some a ∧ m'.get? k' = some b) (e : κ × α) :
    (m.insert e.1 e.2).get? k' = (m'.insert e.1 e.2).get? k' ∨
      k' = k ∧ (m.insert e.1 e.2).get? k' = some a ∧ (m'.insert e.1 e.2).get? k' = some b := by
  rw [get?_insert, get?_insert]
  by_cases he : k' = e.1
  · rw [if_pos he, if_pos he]
    exact Or.inl rfl
  · rw [if_neg he, if_neg he]
    exact h

theorem get?_insertAll_apart {k k' : κ} {a b : α} : ∀ (l : List (κ × α)) {m m' : OrdMap κ α},
    (m.get? k' = m'.get? k' ∨ k' = k ∧ m.get? k' = some a ∧ m'.get? k' = some b) →
      (m.insertAll l).get? k' = (m'.insertAll l).get? k' ∨
        k' = k ∧ (m.insertAll l).get? k' = some a ∧ (m'.insertAll l).get? k' = some b := by
  intro l
  induction l with
  | nil => intro m m' h; exact h
  | cons e l ih => intro m m' h; exact ih (get?_insert_apart h e)

/-- **Lists that differ in one value make maps that agree at every key**, but for
that value. -/
theorem get?_ofList_apart (front back : List (κ × α)) (k k' : κ) (a b : α) :
    (ofList (front ++ (k, a) :: back)).get? k' = (ofList (front ++ (k, b) :: back)).get? k' ∨
      k' = k ∧ (ofList (front ++ (k, a) :: back)).get? k' = some a ∧
        (ofList (front ++ (k, b) :: back)).get? k' = some b := by
  unfold ofList insertAll
  rw [List.foldl_append, List.foldl_append, List.foldl_cons, List.foldl_cons]
  apply get?_insertAll_apart back
  rw [get?_insert, get?_insert]
  by_cases hk : k' = k
  · rw [if_pos hk, if_pos hk]
    exact Or.inr ⟨hk, rfl, rfl⟩
  · rw [if_neg hk, if_neg hk]
    exact Or.inl rfl

/-- The entries of one key are the one it has. -/
theorem filter_entries_key (m : OrdMap κ α) (k : κ) :
    m.entries.filter (fun e => decide (e.1 = k)) = (m.get? k).toList.map fun v => (k, v) := by
  obtain ⟨entries, hsorted⟩ := m
  show entries.filter _ = ((entries.find? fun e => decide (e.1 = k)).map Prod.snd).toList.map _
  induction entries with
  | nil => rfl
  | cons e l ih =>
    obtain ⟨hlt, hl⟩ := List.pairwise_cons.mp hsorted
    by_cases he : e.1 = k
    · -- every later key is greater
      have hrest : l.filter (fun e => decide (e.1 = k)) = [] := by
        rw [List.filter_eq_nil_iff]
        intro x hx
        have hne : k ≠ x.1 := he ▸ ne_of_lt (hlt x hx)
        simpa using Ne.symm hne
      rw [List.filter_cons_of_pos (by simpa using he), hrest,
        List.find?_cons_of_pos (by simpa using he), ← he]
      rfl
    · rw [List.filter_cons_of_neg (by simpa using he), List.find?_cons_of_neg (by simpa using he)]
      exact ih hl

end OrdMap

end Lib
end MatrixCrypto
