import Mathlib.Data.List.Basic

/-!
# The arrival latch

`PRIVATE_KEYS_HELD` remembers whether the private signing keys were held the
last time anything looked, and `note_private_keys_held` answers whether a look
is news.

## Main definitions

* `notePrivateKeysHeld` — one look: the answer, and the latch after it.
* `reports` — the answers to a sequence of looks.
* `arrivals` — the looks that find the keys where the look before did not.

## Main results

* `reports_held` — a latch that is set answers `false` for ever.
* `reports_eq_arrivals_iff` — **the answers are the arrivals exactly while no
  loss of held keys is followed by another arrival.**
-/

namespace MatrixCrypto

/-- `seed_private_keys_held`: the latch of a machine just created or reopened. -/
def seedPrivateKeysHeld (held : Bool) : Bool := held

/-- `note_private_keys_held` on a latch: the answer, and the latch after it.
The `&&` short-circuits, so a look that finds nothing swaps nothing in. -/
def notePrivateKeysHeld (latch heldNow : Bool) : Bool × Bool :=
  if heldNow then (!latch, heldNow) else (false, latch)

/-- The answers to a sequence of looks. -/
def reports : Bool → List Bool → List Bool
  | _, [] => []
  | latch, heldNow :: looks =>
    (notePrivateKeysHeld latch heldNow).1 :: reports (notePrivateKeysHeld latch heldNow).2 looks

/-- Which looks find the keys held where the look before them did not. -/
def arrivals : Bool → List Bool → List Bool
  | _, [] => []
  | previous, heldNow :: looks => (heldNow && !previous) :: arrivals heldNow looks

@[simp] theorem reports_cons_true (latch : Bool) (looks : List Bool) :
    reports latch (true :: looks) = (!latch) :: reports true looks := rfl

@[simp] theorem reports_cons_false (latch : Bool) (looks : List Bool) :
    reports latch (false :: looks) = false :: reports latch looks := rfl

/-- A latch that is set answers `false` for ever: nothing unsets it. -/
theorem reports_held (looks : List Bool) : reports true looks = looks.map fun _ => false := by
  induction looks with
  | nil => rfl
  | cons heldNow looks ih =>
    cases heldNow
    · rw [reports_cons_false, ih, List.map_cons]
    · rw [reports_cons_true, ih, List.map_cons, Bool.not_true]

theorem loss_then_arrival_of_held (looks : List Bool) :
    [false, true].Sublist (true :: looks) ↔ [false, true].Sublist looks := by
  rw [List.cons_sublist_cons']
  simp

theorem loss_then_arrival_of_lost (looks : List Bool) :
    [false, true].Sublist (false :: looks) ↔ true ∈ looks := by
  rw [List.cons_sublist_cons', List.singleton_sublist]
  constructor
  · rintro (h | ⟨_, h⟩)
    · exact h.subset (by simp)
    · exact h
  · exact fun h => Or.inr ⟨rfl, h⟩

/-- A set latch misses exactly the arrivals that follow a look that found
nothing. -/
theorem reports_held_eq_arrivals_iff : ∀ (looks : List Bool) (previous : Bool),
    reports true looks = arrivals previous looks ↔
      ¬ [false, true].Sublist (previous :: looks) := by
  intro looks
  induction looks with
  | nil =>
    intro previous
    cases previous <;> simp [reports, arrivals]
  | cons heldNow looks ih =>
    intro previous
    have hih := ih heldNow
    cases heldNow with
    | false =>
      rw [reports_cons_false, arrivals, Bool.false_and, List.cons.injEq, hih,
        loss_then_arrival_of_lost]
      cases previous with
      | false => rw [loss_then_arrival_of_lost]; simp
      | true => rw [loss_then_arrival_of_held, loss_then_arrival_of_lost]; simp
    | true =>
      rw [reports_cons_true, arrivals, Bool.true_and, Bool.not_true, List.cons.injEq, hih,
        loss_then_arrival_of_held]
      cases previous with
      | false =>
        -- this look is an arrival, and the set latch misses it
        rw [loss_then_arrival_of_lost]
        simp
      | true => rw [loss_then_arrival_of_held, loss_then_arrival_of_held]; simp

theorem arrival_loss_arrival_of_held (looks : List Bool) :
    [true, false, true].Sublist (true :: looks) ↔ [false, true].Sublist looks := by
  rw [List.cons_sublist_cons']
  constructor
  · rintro (h | ⟨_, h⟩)
    · exact (List.sublist_cons_self true _).trans h
    · exact h
  · exact fun h => Or.inr ⟨rfl, h⟩

theorem arrival_loss_arrival_of_lost (looks : List Bool) :
    [true, false, true].Sublist (false :: looks) ↔ [true, false, true].Sublist looks := by
  rw [List.cons_sublist_cons']
  simp

/-- **The answers are the arrivals exactly while no loss of held keys is
followed by another arrival.** -/
theorem reports_eq_arrivals_iff (seed : Bool) (looks : List Bool) :
    reports (seedPrivateKeysHeld seed) looks = arrivals seed looks ↔
      ¬ [true, false, true].Sublist (seed :: looks) := by
  show reports seed looks = arrivals seed looks ↔ _
  cases seed with
  | true =>
    rw [reports_held_eq_arrivals_iff, loss_then_arrival_of_held, arrival_loss_arrival_of_held]
  | false =>
    rw [arrival_loss_arrival_of_lost]
    -- the latch is clear until the first look that finds the keys
    induction looks with
    | nil => simp [reports, arrivals]
    | cons heldNow looks ih =>
      cases heldNow with
      | false =>
        rw [reports_cons_false, arrivals, Bool.false_and, List.cons.injEq, ih,
          arrival_loss_arrival_of_lost]
        simp
      | true =>
        rw [reports_cons_true, arrivals, Bool.true_and, List.cons.injEq,
          reports_held_eq_arrivals_iff, loss_then_arrival_of_held, arrival_loss_arrival_of_held]
        simp

/-- Keys held, lost and held again: the second arrival is not reported. -/
theorem reports_ne_arrivals_after_loss :
    reports (seedPrivateKeysHeld true) [false, true] ≠ arrivals true [false, true] := by
  decide

end MatrixCrypto
