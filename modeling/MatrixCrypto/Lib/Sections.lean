import MatrixCrypto.Lib.Transition

/-!
# Interleaved calls

Any number of calls run at once over one shared state.  A call is a sequence of
atomic *sections*: each reads and writes the shared state in one step and either
leaves the call in a new local state or makes it return.  Between two sections
of one call, sections of every other call and moves of the outside world may
happen in any order.

## Main definitions

* `Calls σ ℓ ρ ε` — shared states `σ`, local states `ℓ`, returned values `ρ`
  and moves of the outside world `ε`.
* `Pool σ ℓ` — a shared state with the local states of the calls in flight.
* `Calls.system` — the transition system of all interleavings.
* `Calls.Stable G I A` — the shared invariant `I` and the assertion `A` every
  call carries survive each other's sections, for steps meeting `G`.

## Main results

* `Calls.Stable.step`, `Calls.Stable.run`, `Calls.Stable.results` — **the
  interference rule**: stable assertions hold through every interleaving, and so
  does what they give of the values returned.
* `Calls.step_calls` — what the calls in flight rely on, where a step breaks none of it.
* `Calls.started_add_length` — every call that began is in flight or has returned.
-/

namespace MatrixCrypto
namespace Lib

universe u v w x

/-- The atomic sections of a family of calls over a shared state. -/
structure Calls (σ : Type u) (ℓ : Type v) (ρ : Type w) (ε : Type x) where
  /-- A call may begin with this local state. -/
  start : σ → ℓ → Prop
  /-- One section: the call goes on with a local state, or returns. -/
  next : σ → ℓ → σ → ℓ ⊕ ρ → Prop
  /-- A move of the outside world. -/
  world : σ → ε → σ → Prop

/-- A shared state and the local states of the calls in flight. -/
structure Pool (σ : Type u) (ℓ : Type v) where
  shared : σ
  calls : List ℓ

/-- What happens in one step of an interleaving. -/
inductive Event (ℓ : Type v) (ρ : Type w) (ε : Type x)
  /-- A call begins. -/
  | start (l : ℓ)
  /-- A call in local state `l` runs one section, with what came of it. -/
  | section (l : ℓ) (r : ℓ ⊕ ρ)
  /-- The outside world moves. -/
  | world (e : ε)
  deriving DecidableEq

/-- The calls that are still in flight after a section. -/
def remaining {ℓ : Type v} {ρ : Type w} : ℓ ⊕ ρ → List ℓ
  | .inl l => [l]
  | .inr _ => []

@[simp] theorem remaining_inl {ℓ : Type v} {ρ : Type w} (l : ℓ) :
    remaining (.inl l : ℓ ⊕ ρ) = [l] := rfl

@[simp] theorem remaining_inr {ℓ : Type v} {ρ : Type w} (r : ρ) :
    remaining (.inr r : ℓ ⊕ ρ) = [] := rfl

/-- The one call that goes on. -/
theorem forall_mem_remaining_inl {ℓ : Type v} {ρ : Type w} {P : ℓ → Prop} {l : ℓ} :
    (∀ m ∈ remaining (.inl l : ℓ ⊕ ρ), P m) ↔ P l := by
  rw [remaining_inl, List.forall_mem_singleton]

/-- A call with a property is still in flight after a section, if the one that
goes on has it when the one that ran had it. -/
theorem exists_remaining {ℓ : Type v} {ρ : Type w} {P : ℓ → Prop} {before after : List ℓ} {l : ℓ}
    (r : ℓ ⊕ ρ) (h : ∃ m ∈ before ++ l :: after, P m) (hl : P l → ∃ m ∈ remaining r, P m) :
    ∃ m ∈ before ++ (remaining r ++ after), P m := by
  obtain ⟨m, hm, hP⟩ := h
  simp only [List.mem_append, List.mem_cons] at hm ⊢
  rcases hm with hm | rfl | hm
  · exact ⟨m, Or.inl hm, hP⟩
  · obtain ⟨m', hm', hP'⟩ := hl hP
    exact ⟨m', Or.inr (Or.inl hm'), hP'⟩
  · exact ⟨m, Or.inr (Or.inr hm), hP⟩

/-- What holds of every call in flight holds after a section, if it holds of the
one that goes on. -/
theorem forall_remaining {ℓ : Type v} {ρ : Type w} {P : ℓ → Prop} {before after : List ℓ} {l : ℓ}
    {r : ℓ ⊕ ρ} (h : ∀ m ∈ before ++ l :: after, P m) (hr : ∀ m ∈ remaining r, P m) :
    ∀ m ∈ before ++ (remaining r ++ after), P m := by
  intro m hm
  simp only [List.mem_append] at hm
  rcases hm with hm | hm | hm
  · exact h m (by simp [hm])
  · exact hr m hm
  · exact h m (by simp [hm])

namespace Calls

variable {σ : Type u} {ℓ : Type v} {ρ : Type w} {ε : Type x} (C : Calls σ ℓ ρ ε)

/-- One step of an interleaving. -/
def step (p : Pool σ ℓ) : Event ℓ ρ ε → Pool σ ℓ → Prop
  | .start l, q => C.start p.shared l ∧ q = ⟨p.shared, p.calls ++ [l]⟩
  | .section l r, q => ∃ before after, p.calls = before ++ l :: after ∧
      C.next p.shared l q.shared r ∧ q.calls = before ++ (remaining r ++ after)
  | .world e, q => C.world p.shared e q.shared ∧ q.calls = p.calls

theorem step_start {s : σ} {ls : List ℓ} {l : ℓ} (h : C.start s l) :
    C.step ⟨s, ls⟩ (.start l) ⟨s, ls ++ [l]⟩ := ⟨h, rfl⟩

/-- One section of a call, wherever it stands among the calls in flight. -/
theorem step_section {s t : σ} {l : ℓ} {r : ℓ ⊕ ρ} (before after : List ℓ)
    (h : C.next s l t r) :
    C.step ⟨s, before ++ l :: after⟩ (.section l r) ⟨t, before ++ (remaining r ++ after)⟩ :=
  ⟨before, after, rfl, h, rfl⟩

/-- All interleavings of the calls, from shared states meeting `init`. -/
def system (init : σ → Prop) : TransitionSystem (Pool σ ℓ) (Event ℓ ρ ε) where
  init := fun p => init p.shared ∧ p.calls = []
  step := C.step

/-- The shared invariant holds, and so does the assertion of every call. -/
def Asserted (I : σ → Prop) (A : σ → ℓ → Prop) (p : Pool σ ℓ) : Prop :=
  I p.shared ∧ ∀ l ∈ p.calls, A p.shared l

/-- `I` and the assertions `A` survive every step that meets `G`: a call's own
section re-establishes its assertion, and nobody else's breaks it. -/
structure Stable (G : Pool σ ℓ → Event ℓ ρ ε → Prop) (I : σ → Prop) (A : σ → ℓ → Prop) :
    Prop where
  start : ∀ p l, G p (.start l) → I p.shared → C.start p.shared l → A p.shared l
  own : ∀ p l t r, G p (.section l r) → l ∈ p.calls → I p.shared → A p.shared l →
    C.next p.shared l t r → I t ∧ ∀ l', r = .inl l' → A t l'
  other : ∀ p l t r m, G p (.section l r) → l ∈ p.calls → I p.shared → A p.shared l →
    A p.shared m → C.next p.shared l t r → A t m
  world : ∀ p e t, G p (.world e) → I p.shared → C.world p.shared e t →
    I t ∧ ∀ m, A p.shared m → A t m

variable {C} {G : Pool σ ℓ → Event ℓ ρ ε → Prop} {I : σ → Prop} {A : σ → ℓ → Prop}

theorem mem_of_split {p : Pool σ ℓ} {before after : List ℓ} {l : ℓ}
    (h : p.calls = before ++ l :: after) : l ∈ p.calls := by
  rw [h]; simp

/-- What is in flight after a section was in flight before, or goes on from it. -/
theorem mem_of_section {p q : Pool σ ℓ} {l m : ℓ} {r : ℓ ⊕ ρ} (hstep : C.step p (.section l r) q)
    (hm : m ∈ q.calls) : m ∈ p.calls ∨ m ∈ remaining r := by
  obtain ⟨before, after, hsplit, -, hcalls⟩ := hstep
  rw [hcalls] at hm
  simp only [List.mem_append] at hm
  rcases hm with hm | hm | hm
  · exact Or.inl (by simp [hsplit, hm])
  · exact Or.inr hm
  · exact Or.inl (by simp [hsplit, hm])

/-- What is in flight before a section is the call that runs, or still is in flight. -/
theorem mem_section {p q : Pool σ ℓ} {l m : ℓ} {r : ℓ ⊕ ρ} (hstep : C.step p (.section l r) q)
    (hm : m ∈ p.calls) : m = l ∨ m ∈ q.calls := by
  obtain ⟨before, after, hsplit, -, hcalls⟩ := hstep
  rw [hsplit] at hm
  rw [hcalls]
  simp only [List.mem_append, List.mem_cons] at hm ⊢
  rcases hm with hm | hm | hm
  · exact Or.inr (Or.inl hm)
  · exact Or.inl hm
  · exact Or.inr (Or.inr (Or.inr hm))

/-- **The interference rule**, one step. -/
theorem Stable.step (h : C.Stable G I A) {p q : Pool σ ℓ} {e : Event ℓ ρ ε} (hG : G p e)
    (hstep : C.step p e q) (hp : Asserted I A p) : Asserted I A q := by
  obtain ⟨hI, hA⟩ := hp
  cases e with
  | start l =>
    obtain ⟨hl, rfl⟩ := hstep
    refine ⟨hI, fun m hm => ?_⟩
    rcases List.mem_append.mp hm with hm | hm
    · exact hA m hm
    · rw [List.mem_singleton] at hm
      exact hm ▸ h.start p l hG hI hl
  | «section» l r =>
    have hcame : ∀ m ∈ q.calls, m ∈ p.calls ∨ m ∈ remaining r := fun _ => mem_of_section hstep
    obtain ⟨before, after, hsplit, hnext, -⟩ := hstep
    have hl : l ∈ p.calls := mem_of_split hsplit
    obtain ⟨hI', hown⟩ := h.own p l _ r hG hl hI (hA l hl) hnext
    refine ⟨hI', fun m hm => ?_⟩
    rcases hcame m hm with hm | hm
    · exact h.other p l _ r m hG hl hI (hA l hl) (hA m hm) hnext
    · cases r with
      | inl l' =>
        rw [remaining_inl, List.mem_singleton] at hm
        exact hown m (by rw [hm])
      | inr _ => simp at hm
  | world e =>
    obtain ⟨hw, hcalls⟩ := hstep
    obtain ⟨hI', hkeep⟩ := h.world p e _ hG hI hw
    exact ⟨hI', fun m hm => hkeep m (hA m (hcalls ▸ hm))⟩

/-- **The interference rule**, whole runs: from a pool whose assertions hold,
every run of steps meeting `G` keeps them. -/
theorem Stable.run (h : C.Stable G I A) {init : σ → Prop} {p q : Pool σ ℓ}
    {es : List (Event ℓ ρ ε)} (hrun : ((C.system init).restrict G).Run p es q)
    (hp : Asserted I A p) : Asserted I A q :=
  hrun.invariant (I := Asserted I A)
    (fun _ _ _ hs (hstep : G _ _ ∧ C.step _ _ _) => h.step hstep.1 hstep.2 hs) hp

/-- **The interference rule**, results: what every section establishes of the
value it returns holds of every value returned along a run. -/
theorem Stable.results (h : C.Stable G I A) {Q : ρ → Prop}
    (hQ : ∀ (p : Pool σ ℓ) l t out, l ∈ p.calls → I p.shared → A p.shared l →
      C.next p.shared l t (.inr out) → Q out)
    {init : σ → Prop} {p q : Pool σ ℓ} {es : List (Event ℓ ρ ε)}
    (hrun : ((C.system init).restrict G).Run p es q) (hp : Asserted I A p) :
    ∀ l out, Event.section l (.inr out) ∈ es → Q out := by
  induction hrun with
  | nil => intro l out hmem; simp at hmem
  | @snoc s t es e hrun' hstep ih =>
    intro l out hmem
    rcases List.mem_append.mp hmem with hmem | hmem
    · exact ih l out hmem
    · rw [List.mem_singleton] at hmem
      subst hmem
      obtain ⟨_, _, _, hsplit, hnext, _⟩ := hstep
      obtain ⟨hI, hA⟩ := h.run hrun' hp
      exact hQ _ l _ out (mem_of_split hsplit) hI (hA l (mem_of_split hsplit)) hnext

/-- What the calls in flight rely on holds after a step: a call that begins, or a section that
leads on, establishes its own, and the step breaks none of a call it leaves where it was. -/
theorem step_calls {p q : Pool σ ℓ} {e : Event ℓ ρ ε} (hstep : C.step p e q)
    (hstart : ∀ l, C.start p.shared l → A p.shared l)
    (hnext : ∀ l l', C.next p.shared l q.shared (.inl l') → A q.shared l')
    (hkept : ∀ l ∈ p.calls, l ∈ q.calls → A p.shared l → A q.shared l)
    (h : ∀ l ∈ p.calls, A p.shared l) : ∀ l ∈ q.calls, A q.shared l := by
  intro m hm
  cases e with
  | start l =>
    obtain ⟨hl, rfl⟩ := hstep
    rcases List.mem_append.mp hm with hm | hm
    · exact h m hm
    · rw [List.mem_singleton] at hm
      exact hm ▸ hstart l hl
  | «section» l r =>
    rcases mem_of_section hstep hm with hp | hr
    · exact hkept m hp hm (h m hp)
    · obtain ⟨-, -, -, hsection, -⟩ := hstep
      cases r with
      | inl l' =>
        rw [remaining_inl, List.mem_singleton] at hr
        exact hr ▸ hnext l l' hsection
      | inr _ => simp at hr
  | world e =>
    obtain ⟨-, hcalls⟩ := hstep
    have hp : m ∈ p.calls := hcalls ▸ hm
    exact hkept m hp hm (h m hp)

/-! ### What returns was begun -/

/-- The values the calls returned, in order. -/
def returned (es : List (Event ℓ ρ ε)) : List ρ :=
  es.filterMap fun
    | .section _ (.inr out) => some out
    | _ => none

/-- How many calls began. -/
def started (es : List (Event ℓ ρ ε)) : ℕ :=
  es.countP fun
    | .start _ => true
    | _ => false

@[simp] theorem returned_nil : returned ([] : List (Event ℓ ρ ε)) = [] := rfl

theorem returned_append (es fs : List (Event ℓ ρ ε)) :
    returned (es ++ fs) = returned es ++ returned fs := List.filterMap_append

@[simp] theorem returned_inl (l l' : ℓ) :
    returned [(.section l (.inl l') : Event ℓ ρ ε)] = [] := rfl

@[simp] theorem returned_inr (l : ℓ) (out : ρ) :
    returned [(.section l (.inr out) : Event ℓ ρ ε)] = [out] := rfl

@[simp] theorem returned_start (l : ℓ) : returned [(.start l : Event ℓ ρ ε)] = [] := rfl

@[simp] theorem returned_world (e : ε) : returned [(.world e : Event ℓ ρ ε)] = [] := rfl

theorem mem_returned {es : List (Event ℓ ρ ε)} {out : ρ} :
    out ∈ returned es ↔ ∃ l, .section l (.inr out) ∈ es := by
  unfold returned
  rw [List.mem_filterMap]
  constructor
  · rintro ⟨e, he, h⟩
    cases e with
    | «section» l r =>
      cases r with
      | inl l' => cases h
      | inr out' => exact ⟨l, Option.some.inj h ▸ he⟩
    | start l => cases h
    | world e => cases h
  · rintro ⟨l, h⟩
    exact ⟨_, h, rfl⟩

/-- **Every call that began is in flight or has returned.** -/
theorem started_add_length {init : σ → Prop} {p q : Pool σ ℓ} {es : List (Event ℓ ρ ε)}
    (hrun : (C.system init).Run p es q) :
    started es + p.calls.length = (returned es).length + q.calls.length := by
  induction hrun with
  | nil => rfl
  | @snoc q t es e _ hstep ih =>
    rw [returned_append, List.length_append, started, List.countP_append, ← started]
    cases e with
    | start l =>
      obtain ⟨-, rfl⟩ := hstep
      simp only [List.countP_singleton, if_true, returned_start, List.length_append,
        List.length_nil, List.length_singleton]
      omega
    | «section» l r =>
      obtain ⟨before, after, hsplit, -, hcalls⟩ := hstep
      rw [hsplit] at ih
      rw [hcalls]
      simp only [List.length_append, List.length_cons] at ih ⊢
      cases r with
      | inl l' => simp at ih ⊢; omega
      | inr out => simp at ih ⊢; omega
    | world e =>
      rw [hstep.2]
      simpa using ih

end Calls

end Lib
end MatrixCrypto
