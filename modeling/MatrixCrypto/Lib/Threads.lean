import MatrixCrypto.Lib.Sections

/-!
# The thread of one call

Calls that carry a name can be told apart in a run.  The events of a name that began
once are the thread of that call: it begins, runs its sections one after the other, and
is in flight where the last of them left it, or has returned.

## Main definitions

* `Event.Named` — the event is of a call with that name.
* `Calls.begun` — how often a call with that name began.
* `Calls.Thread` — the events of one call, with where it is now.
* `Calls.naming` — the same calls, each with a name.

## Main results

* `Calls.thread_of_run_apart`, `Calls.thread_of_run` — **the events of a name that began once
  are a thread.**
-/

namespace MatrixCrypto
namespace Lib

universe u v w x y

section

variable {ℓ : Type v} {ρ : Type w} {ε : Type x} {ν : Type y}

/-- The event is of a call with that name. -/
def Event.Named (name : ℓ → ν) (n : ν) : Event ℓ ρ ε → Prop
  | .start l => name l = n
  | .section l _ => name l = n
  | .world _ => False

instance [DecidableEq ν] (name : ℓ → ν) (n : ν) :
    DecidablePred (Event.Named (ρ := ρ) (ε := ε) name n) := fun e =>
  match e with
  | .start l => inferInstanceAs (Decidable (name l = n))
  | .section l _ => inferInstanceAs (Decidable (name l = n))
  | .world _ => inferInstanceAs (Decidable False)

end

namespace Calls

variable {σ : Type u} {ℓ : Type v} {ρ : Type w} {ε : Type x} {ν : Type y}
  (C : Calls σ ℓ ρ ε)

/-- The events of one call in order, and where it is: in flight, or returned. -/
inductive Thread : List (Event ℓ ρ ε) → Option ℓ → Prop
  | start {s : σ} {l : ℓ} (h : C.start s l) : Thread [.start l] (some l)
  | goes {es : List (Event ℓ ρ ε)} {s t : σ} {l l' : ℓ} (hes : Thread es (some l))
      (h : C.next s l t (.inl l')) : Thread (es ++ [.section l (.inl l')]) (some l')
  | returns {es : List (Event ℓ ρ ε)} {s t : σ} {l : ℓ} {out : ρ} (hes : Thread es (some l))
      (h : C.next s l t (.inr out)) : Thread (es ++ [.section l (.inr out)]) none

variable [DecidableEq ν] (name : ℓ → ν) (n : ν)

/-- How often a call with that name began. -/
def begun (es : List (Event ℓ ρ ε)) : ℕ :=
  es.countP fun
    | .start l => decide (name l = n)
    | _ => false

/-- The events of that name, in order. -/
def events (es : List (Event ℓ ρ ε)) : List (Event ℓ ρ ε) :=
  es.filter fun e => decide (e.Named name n)

variable {C name n}

@[simp] theorem begun_nil : begun name n ([] : List (Event ℓ ρ ε)) = 0 := rfl

theorem begun_append (es fs : List (Event ℓ ρ ε)) :
    begun name n (es ++ fs) = begun name n es + begun name n fs := List.countP_append

theorem begun_start {l : ℓ} (h : name l = n) :
    begun name n [(.start l : Event ℓ ρ ε)] = 1 := by
  simp [begun, h]

theorem events_append (es fs : List (Event ℓ ρ ε)) :
    events name n (es ++ fs) = events name n es ++ events name n fs := List.filter_append ..

theorem events_named {e : Event ℓ ρ ε} (h : e.Named name n) : events name n [e] = [e] := by
  simp [events, h]

theorem events_of_not {e : Event ℓ ρ ε} (h : ¬ e.Named name n) : events name n [e] = [] := by
  simp [events, h]

theorem mem_events {es : List (Event ℓ ρ ε)} {e : Event ℓ ρ ε} :
    e ∈ events name n es ↔ e ∈ es ∧ e.Named name n := by
  simp [events]

/-- A thread has begun. -/
theorem Thread.exists_start {es : List (Event ℓ ρ ε)} {cur : Option ℓ} (h : C.Thread es cur) :
    ∃ l, .start l ∈ es := by
  induction h with
  | @start s l _ => exact ⟨l, List.mem_singleton_self _⟩
  | goes _ _ ih =>
    obtain ⟨l, hl⟩ := ih
    exact ⟨l, List.mem_append_left _ hl⟩
  | returns _ _ ih =>
    obtain ⟨l, hl⟩ := ih
    exact ⟨l, List.mem_append_left _ hl⟩

/-- A call in flight has returned nothing. -/
theorem Thread.not_returned {es : List (Event ℓ ρ ε)} {l l' : ℓ} {out : ρ}
    (h : C.Thread es (some l)) : .section l' (.inr out) ∉ es := by
  generalize hcur : some l = cur at h
  induction h generalizing l with
  | start _ => simp
  | goes _ _ ih =>
    intro hmem
    rcases List.mem_append.mp hmem with hmem | hmem
    · exact ih rfl hmem
    · simp at hmem
  | returns _ _ _ => cases hcur

/-- Where the calls of a name are: nowhere before the call began, then on its thread. -/
inductive Threaded (C : Calls σ ℓ ρ ε) (name : ℓ → ν) (n : ν) (es : List (Event ℓ ρ ε))
    (calls : List ℓ) : Prop
  | apart (hes : events name n es = []) (hcalls : calls.filter (name · = n) = [])
  | thread {cur : Option ℓ} (hes : C.Thread (events name n es) cur)
      (hcalls : calls.filter (name · = n) = cur.toList)

/-- An event of another call leaves the calls of a name where they are. -/
theorem Threaded.frame {es : List (Event ℓ ρ ε)} {calls calls' : List ℓ} {e : Event ℓ ρ ε}
    (h : Threaded C name n es calls) (he : ¬ e.Named name n)
    (hcalls : calls'.filter (name · = n) = calls.filter (name · = n)) :
    Threaded C name n (es ++ [e]) calls' := by
  have hes : events name n (es ++ [e]) = events name n es := by
    rw [events_append, events_of_not he, List.append_nil]
  cases h with
  | apart hempty hnone => exact .apart (hes.trans hempty) (hcalls.trans hnone)
  | thread hthread hcur => exact .thread (hes ▸ hthread) (hcalls.trans hcur)

theorem Threaded.section {es : List (Event ℓ ρ ε)} {before after : List ℓ} {l : ℓ} {r : ℓ ⊕ ρ}
    {s t : σ} (h : Threaded C name n es (before ++ l :: after)) (hl : name l = n)
    (hkeeps : ∀ l', r = .inl l' → name l' = n) (hnext : C.next s l t r) :
    Threaded C name n (es ++ [.section l r]) (before ++ (remaining r ++ after)) := by
  have hmem : l ∈ (before ++ l :: after).filter (name · = n) := by simp [hl]
  have he : events name n (es ++ [.section l r]) = events name n es ++ [.section l r] := by
    rw [events_append, events_named (e := .section l r) hl]
  cases h with
  | apart _ hnone =>
    rw [hnone] at hmem
    cases hmem
  | @thread cur hthread hcur =>
    -- the call that ran is the one the thread had in flight
    rw [hcur, Option.mem_toList] at hmem
    subst hmem
    have halone : before.filter (name · = n) = [] ∧ after.filter (name · = n) = [] := by
      rw [List.filter_append, List.filter_cons_of_pos (by simp [hl])] at hcur
      have hlength := congrArg List.length hcur
      simp only [List.length_append, List.length_cons, Option.toList_some, List.length_nil]
        at hlength
      exact ⟨List.length_eq_zero_iff.mp (by omega), List.length_eq_zero_iff.mp (by omega)⟩
    cases r with
    | inl l' =>
      have hl' : name l' = n := hkeeps l' rfl
      exact .thread (he ▸ hthread.goes hnext) (by simp [halone.1, halone.2, hl'])
    | inr out => exact .thread (he ▸ hthread.returns hnext) (by simp [halone.1, halone.2])

/-- **The events of a name that began once are a thread**, where none was in flight before. -/
theorem thread_of_run_apart (hname : ∀ s l t l', C.next s l t (.inl l') → name l' = name l)
    {init : σ → Prop} {p q : Pool σ ℓ} {es : List (Event ℓ ρ ε)}
    (hrun : (C.system init).Run p es q) (hp : p.calls.filter (name · = n) = [])
    (honce : begun name n es ≤ 1) : Threaded C name n es q.calls := by
  induction hrun with
  | nil => exact .apart rfl hp
  | @snoc s t es e _ hstep ih =>
    rw [begun_append] at honce
    have h := ih (by omega)
    cases e with
    | start l =>
      obtain ⟨hstart, rfl⟩ := hstep
      by_cases hl : name l = n
      · -- it had not begun before
        have hnone : begun name n es = 0 := by
          rw [begun_start hl] at honce
          omega
        cases h with
        | apart hes hcalls =>
          have hthread : C.Thread (events name n (es ++ [.start l])) (some l) := by
            rw [events_append, hes, events_named (e := .start l) hl]
            exact .start hstart
          exact .thread hthread (by simp [hcalls, hl])
        | thread hthread _ =>
          obtain ⟨l', hl'⟩ := hthread.exists_start
          obtain ⟨hmem, hnamed⟩ := mem_events.mp hl'
          rw [begun, List.countP_eq_zero] at hnone
          exact absurd (decide_eq_true hnamed) (hnone _ hmem)
      · exact h.frame hl (by simp [hl])
    | «section» l r =>
      obtain ⟨before, after, hsplit, hnext, hcalls⟩ := hstep
      rw [hcalls]
      rw [hsplit] at h
      by_cases hl : name l = n
      · exact h.section hl (fun l' hr => (hname _ l _ l' (hr ▸ hnext)).trans hl) hnext
      · refine h.frame hl ?_
        cases r with
        | inl l' =>
          have hl' : ¬ name l' = n := fun heq => hl ((hname _ l _ l' hnext).symm.trans heq)
          simp [hl, hl']
        | inr out => simp [hl]
    | world e =>
      obtain ⟨-, hcalls⟩ := hstep
      exact h.frame (fun hfalse => hfalse) (by rw [hcalls])

/-- From no calls at all, every name is apart. -/
theorem thread_of_run (hname : ∀ s l t l', C.next s l t (.inl l') → name l' = name l)
    {init : σ → Prop} {p q : Pool σ ℓ} {es : List (Event ℓ ρ ε)}
    (hrun : (C.system init).Run p es q) (hp : p.calls = []) (honce : begun name n es ≤ 1) :
    Threaded C name n es q.calls :=
  thread_of_run_apart hname hrun (by rw [hp, List.filter_nil]) honce

/-! ### Naming calls -/

/-- The same calls, each with a name it keeps. -/
def naming (C : Calls σ ℓ ρ ε) (ν : Type y) : Calls σ (ν × ℓ) ρ ε where
  start := fun s l => C.start s l.2
  next := fun s l t r => ∃ r', C.next s l.2 t r' ∧ r = Sum.map (Prod.mk l.1) id r'
  world := C.world

theorem naming_keeps {ν : Type y} {s t : σ} {l l' : ν × ℓ}
    (h : (C.naming ν).next s l t (.inl l')) : l'.1 = l.1 := by
  obtain ⟨r', -, hr⟩ := h
  cases r' with
  | inl a =>
    have hl : l' = (l.1, a) := Sum.inl.inj hr
    rw [hl]
  | inr out => cases hr

/-- One section of a named call, wherever it stands among the calls in flight. -/
theorem naming_section {ν : Type y} {s t : σ} {l : ℓ} {r : ℓ ⊕ ρ} (n : ν)
    (before after : List (ν × ℓ)) (h : C.next s l t r) :
    (C.naming ν).step ⟨s, before ++ (n, l) :: after⟩
      (.section (n, l) (Sum.map (Prod.mk n) id r))
      ⟨t, before ++ (remaining (Sum.map (Prod.mk n) id r) ++ after)⟩ :=
  (C.naming ν).step_section before after ⟨r, h, rfl⟩

end Calls

end Lib
end MatrixCrypto
