import Mathlib.Data.List.Induction

/-!
# Transition systems and their runs

A labelled transition system and the finite runs it has.  A run keeps the list
of its labels, so a property of a whole run — *some earlier step did this*,
*from this step on that stays true* — is a statement about one `Run`.

## Main definitions

* `TransitionSystem σ α` — the initial states and the labelled steps.
* `Run s as t` — the labels `as` lead from `s` to `t`.
* `Earlier Q s as t` — some step of the run satisfies `Q`.
* `restrict G` — the same system with only the steps whose state and label
  meet `G`.
* `guard G` — the same system with only the steps `G` admits, by both their states.

## Main results

* `Run.invariant` — what every step preserves, every run preserves.
* `Run.earlier_of_turned` — a predicate false at the start and true at the end
  was turned on by some step of the run.
-/

namespace MatrixCrypto
namespace Lib

universe u v

/-- A labelled transition system. -/
structure TransitionSystem (σ : Type u) (α : Type v) where
  /-- The states a run may start in. -/
  init : σ → Prop
  /-- `step s a t`: the label `a` takes `s` to `t`. -/
  step : σ → α → σ → Prop

namespace TransitionSystem

variable {σ : Type u} {α : Type v} (S : TransitionSystem σ α)

/-- `S.Run s as t`: the labels `as`, in order, lead from `s` to `t`. -/
inductive Run : σ → List α → σ → Prop
  | nil (s : σ) : Run s [] s
  | snoc {s t u : σ} {as : List α} {a : α} :
      Run s as t → S.step t a u → Run s (as ++ [a]) u

/-- `S.Reachable s`: some run from an initial state ends in `s`. -/
def Reachable (s : σ) : Prop := ∃ s₀ as, S.init s₀ ∧ S.Run s₀ as s

/-- The system that takes only the steps meeting `G`. -/
def restrict (G : σ → α → Prop) : TransitionSystem σ α where
  init := S.init
  step := fun s a t => G s a ∧ S.step s a t

/-- The system that takes only the steps `G` admits. -/
def guard (G : σ → α → σ → Prop) : TransitionSystem σ α where
  init := S.init
  step := fun s a t => G s a t ∧ S.step s a t

/-- Some step of the run from `s` through `as` to `t` satisfies `Q`. -/
def Earlier (Q : σ → α → σ → Prop) (s : σ) (as : List α) (t : σ) : Prop :=
  ∃ as₁ a as₂ s₁ s₂, as = as₁ ++ a :: as₂ ∧ S.Run s as₁ s₁ ∧ S.step s₁ a s₂ ∧
    S.Run s₂ as₂ t ∧ Q s₁ a s₂

variable {S}

/-- A step that meets the guard is one of the restricted system. -/
theorem step_restrict {G : σ → α → Prop} {s t : σ} {a : α} (h : S.step s a t) (hG : G s a) :
    (S.restrict G).step s a t := ⟨hG, h⟩

namespace Run

theorem single {s t : σ} {a : α} (h : S.step s a t) : S.Run s [a] t := by
  have := (Run.nil (S := S) s).snoc h
  simpa using this

theorem append {s t u : σ} {as bs : List α} (h₁ : S.Run s as t) (h₂ : S.Run t bs u) :
    S.Run s (as ++ bs) u := by
  induction h₂ with
  | nil => simpa using h₁
  | snoc _ hstep ih =>
    rw [← List.append_assoc]
    exact ih.snoc hstep

theorem cons {s t u : σ} {a : α} {as : List α} (h₁ : S.step s a t) (h₂ : S.Run t as u) :
    S.Run s (a :: as) u :=
  (Run.single h₁).append h₂

/-- A run whose labels split at a point splits there. -/
theorem split {s u : σ} : ∀ {bs as : List α}, S.Run s (as ++ bs) u →
    ∃ t, S.Run s as t ∧ S.Run t bs u := by
  intro bs
  induction bs using List.reverseRecOn generalizing u with
  | nil =>
    intro as h
    exact ⟨u, by simpa using h, .nil u⟩
  | append_singleton bs b ih =>
    intro as h
    rw [← List.append_assoc] at h
    generalize hl : as ++ bs ++ [b] = ls at h
    cases h with
    | nil => simp at hl
    | snoc hrun hstep =>
      obtain ⟨hl, hb⟩ := List.append_inj' hl rfl
      simp only [List.cons.injEq, and_true] at hb
      subst hl hb
      obtain ⟨t, h₁, h₂⟩ := ih hrun
      exact ⟨t, h₁, h₂.snoc hstep⟩

theorem eq_of_nil {s t : σ} (h : S.Run s [] t) : t = s := by
  generalize hl : ([] : List α) = ls at h
  cases h with
  | nil => rfl
  | snoc => simp at hl

theorem step_of_singleton {s t : σ} {a : α} (h : S.Run s [a] t) : S.step s a t := by
  generalize hl : [a] = ls at h
  cases h with
  | nil => simp at hl
  | snoc hrun hstep =>
    rw [← List.nil_append [a]] at hl
    obtain ⟨hnil, ha⟩ := List.append_inj' hl rfl
    simp only [List.cons.injEq, and_true] at ha
    subst hnil ha
    rwa [eq_of_nil hrun] at hstep

/-- The first step of a nonempty run. -/
theorem uncons {s u : σ} {a : α} {as : List α} (h : S.Run s (a :: as) u) :
    ∃ t, S.step s a t ∧ S.Run t as u := by
  have h' : S.Run s ([a] ++ as) u := h
  obtain ⟨t, h₁, h₂⟩ := split h'
  exact ⟨t, step_of_singleton h₁, h₂⟩

/-- Where a label leads to one state, the labels of a run lead to one state. -/
theorem unique (hdet : ∀ s a t u, S.step s a t → S.step s a u → t = u) : ∀ {as : List α}
    {s t u : σ}, S.Run s as t → S.Run s as u → t = u := by
  intro as
  induction as with
  | nil => intro s t u h h'; rw [h.eq_of_nil, h'.eq_of_nil]
  | cons a as ih =>
    intro s t u h h'
    obtain ⟨v, hv, hrun⟩ := h.uncons
    obtain ⟨w, hw, hrun'⟩ := h'.uncons
    obtain rfl := hdet s a v w hv hw
    exact ih hrun hrun'

/-- **What every step preserves, every run preserves.** -/
theorem invariant {I : σ → Prop} (hstep : ∀ s a t, I s → S.step s a t → I t)
    {s t : σ} {as : List α} (h : S.Run s as t) (hs : I s) : I t := by
  induction h with
  | nil => exact hs
  | snoc _ hst ih => exact hstep _ _ _ ih hst

/-- The same rule for a predicate that also reads the labels so far. -/
theorem invariant_history {I : List α → σ → Prop}
    (hstep : ∀ as s a t, I as s → S.step s a t → I (as ++ [a]) t)
    {s t : σ} {as : List α} (h : S.Run s as t) (hs : I [] s) : I as t := by
  induction h with
  | nil => exact hs
  | snoc _ hst ih => exact hstep _ _ _ _ ih hst

theorem earlier_snoc {Q : σ → α → σ → Prop} {s t u : σ} {as : List α} {a : α}
    (h : S.Earlier Q s as t) (hstep : S.step t a u) : S.Earlier Q s (as ++ [a]) u := by
  obtain ⟨as₁, b, as₂, s₁, s₂, rfl, h₁, hb, h₂, hQ⟩ := h
  exact ⟨as₁, b, as₂ ++ [a], s₁, s₂, by simp, h₁, hb, h₂.snoc hstep, hQ⟩

/-- **A predicate that went from false to true was turned on by some step.**
The step that did it satisfies whatever every such step is known to satisfy. -/
theorem earlier_of_turned {F : σ → Prop} {Q : σ → α → σ → Prop}
    (hturn : ∀ s a t, S.step s a t → ¬ F s → F t → Q s a t)
    {s t : σ} {as : List α} (h : S.Run s as t) (hs : ¬ F s) (ht : F t) :
    S.Earlier Q s as t := by
  induction h with
  | nil => exact absurd ht hs
  | @snoc t u as a hrun hstep ih =>
    by_cases hF : F t
    · exact earlier_snoc (ih hF) hstep
    · exact ⟨as, a, [], t, u, rfl, hrun, hstep, .nil u, hturn _ _ _ hstep hF ht⟩

/-- A run of the restricted system is a run of the whole one. -/
theorem of_restrict {G : σ → α → Prop} {s t : σ} {as : List α}
    (h : (S.restrict G).Run s as t) : S.Run s as t := by
  induction h with
  | nil => exact .nil _
  | snoc _ hstep ih => exact ih.snoc hstep.2

/-- A run of the guarded system is a run of the whole one. -/
theorem of_guard {G : σ → α → σ → Prop} {s t : σ} {as : List α} (h : (S.guard G).Run s as t) :
    S.Run s as t := by
  induction h with
  | nil => exact .nil _
  | snoc _ hstep ih => exact ih.snoc hstep.2

/-- A run that meets a guard meets every weaker one. -/
theorem restrict_mono {G G' : σ → α → Prop} (hG : ∀ s a, G s a → G' s a) {s t : σ} {as : List α}
    (h : (S.restrict G).Run s as t) : (S.restrict G').Run s as t := by
  induction h with
  | nil => exact .nil _
  | snoc _ hstep ih => exact ih.snoc ⟨hG _ _ hstep.1, hstep.2⟩

/-- A run all of whose possible steps meet a guard meets it. -/
theorem restrict_of {G : σ → α → Prop} (hG : ∀ s a, G s a) {s t : σ} {as : List α}
    (h : S.Run s as t) : (S.restrict G).Run s as t := by
  induction h with
  | nil => exact .nil _
  | snoc _ hstep ih => exact ih.snoc ⟨hG _ _, hstep⟩

end Run

/-- Reachable states satisfy what holds initially and is preserved by every step. -/
theorem Reachable.invariant {I : σ → Prop} (hinit : ∀ s, S.init s → I s)
    (hstep : ∀ s a t, I s → S.step s a t → I t) {s : σ} (h : S.Reachable s) : I s := by
  obtain ⟨s₀, as, h₀, hrun⟩ := h
  exact hrun.invariant hstep (hinit s₀ h₀)

theorem Reachable.run {s t : σ} {as : List α} (h : S.Reachable s) (hrun : S.Run s as t) :
    S.Reachable t := by
  obtain ⟨s₀, bs, h₀, h₁⟩ := h
  exact ⟨s₀, bs ++ as, h₀, h₁.append hrun⟩

/-- What the restricted system reaches, the whole one reaches. -/
theorem Reachable.of_restrict {G : σ → α → Prop} {s : σ} (h : (S.restrict G).Reachable s) :
    S.Reachable s := by
  obtain ⟨s₀, as, h₀, hrun⟩ := h
  exact ⟨s₀, as, h₀, hrun.of_restrict⟩

end TransitionSystem

end Lib
end MatrixCrypto
