import Mathlib.Data.List.Forall2

/-!
# Computations that may fail

Inversion of a computation in `Except` that came out `ok`: what each of its
parts came to.

## Main definitions

* `okOr` — a missing value as an error.

## Main results

* `Except.bind_eq_ok` — a sequence that succeeds succeeds at both halves.
* `mapM_eq_ok` — mapping a fallible function over a list succeeds exactly when
  it succeeds at each member.
* `exists_error_of_mapM` — and it fails at a member.
-/

namespace MatrixCrypto
namespace Lib

universe u v w

variable {ε : Type u} {α : Type v} {β : Type v}

@[simp] theorem ok_bind {a : α} {f : α → Except ε β} : (Except.ok a >>= f) = f a := rfl

@[simp] theorem error_bind {e : ε} {f : α → Except ε β} : (Except.error e >>= f) = .error e := rfl

theorem bind_eq_ok {x : Except ε α} {f : α → Except ε β} {b : β} :
    (x >>= f) = .ok b ↔ ∃ a, x = .ok a ∧ f a = .ok b := by
  cases x with
  | error e => simp [bind, Except.bind]
  | ok a => simp [bind, Except.bind]

theorem map_eq_ok {x : Except ε α} {f : α → β} {b : β} :
    x.map f = .ok b ↔ ∃ a, x = .ok a ∧ f a = b := by
  cases x with
  | error e => simp [Except.map]
  | ok a => simp [Except.map]

/-- A missing value as an error. -/
def okOr (e : ε) : Option α → Except ε α
  | some a => .ok a
  | none => .error e

@[simp] theorem okOr_some {e : ε} {a : α} : okOr e (some a) = .ok a := rfl

@[simp] theorem okOr_none {e : ε} : okOr e (none : Option α) = .error e := rfl

@[simp] theorem okOr_eq_ok {e : ε} {x : Option α} {a : α} : okOr e x = .ok a ↔ x = some a := by
  cases x <;> simp [okOr]

@[simp] theorem okOr_eq_error {e e' : ε} {x : Option α} :
    okOr e x = .error e' ↔ x = none ∧ e = e' := by
  cases x <;> simp [okOr]

theorem mapError_eq_ok {δ : Type w} {f : ε → δ} {x : Except ε α} {a : α} :
    x.mapError f = .ok a ↔ x = .ok a := by
  cases x <;> simp [Except.mapError]

theorem bind_eq_error {x : Except ε α} {f : α → Except ε β} {e : ε} :
    (x >>= f) = .error e ↔ x = .error e ∨ ∃ a, x = .ok a ∧ f a = .error e := by
  cases x with
  | error e' => simp
  | ok a => simp

theorem mapError_eq_error {δ : Type w} {f : ε → δ} {x : Except ε α} {d : δ} :
    x.mapError f = .error d ↔ ∃ e, x = .error e ∧ f e = d := by
  cases x <;> simp [Except.mapError]

@[simp] theorem pure_eq_ok {a b : α} : (pure a : Except ε α) = .ok b ↔ a = b := by
  simp [pure, Except.pure]

theorem mapM_eq_ok {γ : Type w} {f : γ → Except ε α} : ∀ {l : List γ} {ys : List α},
    l.mapM f = .ok ys ↔ List.Forall₂ (fun x y => f x = .ok y) l ys := by
  intro l
  induction l with
  | nil =>
    intro ys
    rw [List.mapM_nil, pure_eq_ok]
    constructor
    · rintro rfl; exact .nil
    · intro h; cases h; rfl
  | cons x l ih =>
    intro ys
    rw [List.mapM_cons, bind_eq_ok]
    constructor
    · rintro ⟨y, hy, h⟩
      obtain ⟨zs, hzs, h⟩ := bind_eq_ok.mp h
      rw [pure_eq_ok] at h
      exact h ▸ .cons hy (ih.mp hzs)
    · intro h
      cases h with
      | cons hy hzs => exact ⟨_, hy, bind_eq_ok.mpr ⟨_, ih.mpr hzs, rfl⟩⟩

/-- The members come to the results, one by one. -/
theorem mapM_eq_ok_iff_map {γ : Type w} {f : γ → Except ε α} {l : List γ} {ys : List α} :
    l.mapM f = .ok ys ↔ l.map f = ys.map .ok := by
  rw [mapM_eq_ok, ← List.forall₂_eq_eq_eq, List.forall₂_map_left_iff, List.forall₂_map_right_iff]

/-- What fails fails at a member. -/
theorem exists_error_of_mapM {γ : Type w} {f : γ → Except ε α} {l : List γ} {e : ε}
    (h : l.mapM f = .error e) : ∃ x ∈ l, f x = .error e := by
  induction l with
  | nil => cases h
  | cons x l ih =>
    rw [List.mapM_cons, bind_eq_error] at h
    rcases h with h | ⟨y, -, h⟩
    · exact ⟨x, List.mem_cons_self, h⟩
    · rcases bind_eq_error.mp h with h | ⟨ys, -, h⟩
      · obtain ⟨x', hx', hf⟩ := ih h
        exact ⟨x', List.mem_cons_of_mem x hx', hf⟩
      · cases h

/-- What is written is read back. -/
theorem mapM_map_of_roundTrip {γ : Type w} {f : γ → Except ε α} {g : α → γ}
    (h : ∀ a, f (g a) = .ok a) (l : List α) : (l.map g).mapM f = .ok l := by
  rw [mapM_eq_ok, List.forall₂_map_left_iff, List.forall₂_same]
  intro a _
  exact h a

/-- Every result came from a member. -/
theorem mem_of_mapM {γ : Type w} {f : γ → Except ε α} {l : List γ} {ys : List α}
    (h : l.mapM f = .ok ys) {y : α} (hy : y ∈ ys) : ∃ x ∈ l, f x = .ok y := by
  have h := mapM_eq_ok.mp h
  induction h with
  | nil => simp at hy
  | cons hxy _ ih =>
    rcases List.mem_cons.mp hy with rfl | hy
    · exact ⟨_, List.mem_cons_self, hxy⟩
    · obtain ⟨x, hx, hf⟩ := ih (mapM_eq_ok.mpr ‹_›) hy
      exact ⟨x, List.mem_cons_of_mem _ hx, hf⟩

/-- Every member came to a result. -/
theorem exists_mem_of_mapM {γ : Type w} {f : γ → Except ε α} {l : List γ} {ys : List α}
    (h : l.mapM f = .ok ys) {x : γ} (hx : x ∈ l) : ∃ y ∈ ys, f x = .ok y := by
  have h := mapM_eq_ok.mp h
  induction h with
  | nil => simp at hx
  | cons hxy _ ih =>
    rcases List.mem_cons.mp hx with rfl | hx
    · exact ⟨_, List.mem_cons_self, hxy⟩
    · obtain ⟨y, hy, hf⟩ := ih (mapM_eq_ok.mpr ‹_›) hx
      exact ⟨y, List.mem_cons_of_mem _ hy, hf⟩

/-- What the results are read as is what the members are read as. -/
theorem map_of_mapM {γ : Type w} {δ : Type*} {f : γ → Except ε α} {l : List γ} {ys : List α}
    {g : α → δ} {k : γ → δ} (h : l.mapM f = .ok ys) (hf : ∀ x y, f x = .ok y → g y = k x) :
    ys.map g = l.map k := by
  have h := mapM_eq_ok.mp h
  induction h with
  | nil => rfl
  | cons hxy _ ih =>
    rw [List.map_cons, List.map_cons, hf _ _ hxy, ih (mapM_eq_ok.mpr ‹_›)]

end Lib
end MatrixCrypto
