import MatrixCrypto.Facade.Errors
import MatrixCrypto.Lib.Sections

/-!
# Blinding and finalising a batch

`blindOprf` and `finalizeOprf`, over the buffers of one JavaScript process.  The product
may write to every buffer it can reach, at any time; the copies the inputs were blinded
from, and the client states, are kept where it cannot.

## Main definitions

* `ArrayBuffer`, `Uint8Array` — memory, and a view of it.
* `OprfState` — the buffers, and what `KEPT` holds.
* `OprfCall`, `OprfNext`, `OprfMove` — the two calls, section by section, and the product.
* `OprfState.Keeps` — what no step takes from the library.

## Main results

* `toArrayBuffer_eq_slice` — the native side is handed a view's bytes and no others.
* `VoprfCrate.oprf_keeps` — **nothing a product does reaches what was kept for a blinding.**
* `VoprfCrate.oprf_proceeds` — no call is ever stuck.
-/

namespace MatrixCrypto

open Lib Facade

/-! ### Errors -/

/-- The kind an error of the core arrives as. -/
def OprfError.kind (e : OprfError) : CryptoErrorKind :=
  (toCryptoError ((FfiError.oprf e).thrown none)).kind

theorem OprfError.kind_eq (e : OprfError) : e.kind = match e with
    | .rejected => .rejected
    | .malformedPayload => .malformedPayload
    | .proofRejected => .proofRejected := by
  have hkind : e.kind = (kindByName.lookup (FfiError.oprf e).variant).getD .unknown :=
    (FfiError.oprf e).kindOf_thrown none
  rw [hkind]
  cases e <;> rfl

/-- The kind of what is thrown for a blinding that is not known. -/
def unknownBlinding : CryptoErrorKind :=
  (toCryptoError (.object .plain [] [("name", .string "Rejected")])).kind

/-! ### Memory -/

/-- A buffer.  The product reaches those that are `shared`, and nothing else does but this
library. -/
structure ArrayBuffer where
  bytes : Bytes
  shared : Bool

/-- A view: `length` bytes of a buffer, from `offset` on. -/
structure Uint8Array where
  buffer : ℕ
  offset : ℕ
  length : ℕ

/-- An entry of `KEPT`: the buffers of the inputs as they were blinded, and of the states. -/
structure KeptBlinding where
  inputs : List ℕ
  clientStates : List ℕ

/-- The memory of the process. -/
structure OprfState where
  /-- The buffers, by identity. -/
  heap : List ArrayBuffer
  /-- `KEPT`, by the identity of the object `blindOprf` returned. -/
  kept : List KeptBlinding

namespace OprfState

/-- A buffer's bytes. -/
def bufferOf (s : OprfState) (i : ℕ) : Bytes := ((s.heap[i]?).map ArrayBuffer.bytes).getD []

/-- `slice` of a plain `Uint8Array`: the bytes of the view, which it copies into a buffer of their
own.  (A `Buffer` is a view whose own `slice` shares its memory, and is none of these.) -/
def slice (s : OprfState) (v : Uint8Array) : Bytes :=
  ((s.bufferOf v.buffer).drop v.offset).take v.length

/-- `toArrayBuffer`: the bytes of the buffer that is handed to the native side. -/
def toArrayBuffer (s : OprfState) (v : Uint8Array) : Bytes :=
  if v.offset = 0 ∧ v.length = (s.bufferOf v.buffer).length then s.bufferOf v.buffer else s.slice v

/-- Buffers of their own for these bytes. -/
def allocate (s : OprfState) (shared : Bool) (bs : List Bytes) : OprfState :=
  { s with heap := s.heap ++ bs.map fun b => ⟨b, shared⟩ }

/-- The identities the next buffers get. -/
def fresh (s : OprfState) (bs : List Bytes) : List ℕ := List.range' s.heap.length bs.length

/-- `new Uint8Array(buffer)`, for each of the next buffers. -/
def views (s : OprfState) (bs : List Bytes) : List Uint8Array :=
  List.zipWith (fun i b => ⟨i, 0, b.length⟩) (s.fresh bs) bs

/-- A blinding is returned: the product gets the elements, and `KEPT` the inputs and states. -/
def keep (s : OprfState) (copies : List ℕ) (blinding : OprfBlinding) : OprfState :=
  let t := s.allocate true blinding.blindedElements
  { t.allocate false blinding.clientStates with
    kept := s.kept ++ [⟨copies, t.fresh blinding.clientStates⟩] }

/-- The buffer holds these bytes, and is shared with the product or not. -/
def Stores (s : OprfState) (shared : Bool) (i : ℕ) (b : Bytes) : Prop :=
  s.heap[i]? = some ⟨b, shared⟩

/-- What no step takes from this library: the buffers only it can reach, and what it has kept. -/
structure Keeps (s t : OprfState) : Prop where
  buffers : ∀ i b, s.Stores false i b → t.Stores false i b
  kept : s.kept <+: t.kept

end OprfState

/-! ### The calls -/

/-- What `blindOprf` returns: an object of its own, with views of the blinded elements. -/
structure OprfBlindingObject where
  id : ℕ
  blindedElements : List Uint8Array

/-- A call, between two of its sections. -/
inductive OprfCall
  /-- `blindOprf`. -/
  | blindOprf (inputs : List Uint8Array)
  /-- The native call is under way, with the bytes it was handed. -/
  | blinding (copies : List ℕ) (inputs : List Bytes)
  /-- `finalizeOprf`. -/
  | finalizeOprf (blinding : ℕ) (evaluationElements : List Uint8Array) (proof : Uint8Array)
      (publicKey : Uint8Array)
  /-- The native call is under way, with the bytes it was handed. -/
  | finalizing (inputs clientStates evaluationElements : List Bytes) (proof publicKey : Bytes)

/-- What a call returns. -/
inductive OprfResult
  | blinded (out : Except CryptoErrorKind OprfBlindingObject)
  | finalized (out : Except CryptoErrorKind (List Uint8Array))

/-- What the product does to its memory. -/
inductive OprfMove
  /-- It makes a buffer. -/
  | allocates (b : Bytes)
  /-- It writes to a buffer. -/
  | writes (i : ℕ) (b : Bytes)

/-- The moves. -/
inductive OprfMoves (s : OprfState) : OprfMove → OprfState → Prop
  | allocates {b : Bytes} : OprfMoves s (.allocates b) (s.allocate true [b])
  | writes {i : ℕ} {b old : Bytes} (h : s.Stores true i old) :
      OprfMoves s (.writes i b) { s with heap := s.heap.set i ⟨b, true⟩ }

/-- A call begins before its first section. -/
def OprfCall.Begins : OprfCall → Prop
  | blindOprf _ | finalizeOprf _ _ _ _ => True
  | _ => False

section

variable {R Scalar Element Proof : Type} (U : VoprfCrate R Scalar Element Proof)

/-- One section of a call. -/
inductive OprfNext (s : OprfState) : OprfCall → OprfState → OprfCall ⊕ OprfResult → Prop
  | copies {inputs : List Uint8Array} {t : OprfState}
      (ht : t = s.allocate false (inputs.map s.slice)) :
      OprfNext s (.blindOprf inputs) t (.inl (.blinding (s.fresh (inputs.map s.slice))
        ((s.fresh (inputs.map s.slice)).map t.bufferOf)))
  | blinds {copies : List ℕ} {inputs : List Bytes} {rng : R} {blinding : OprfBlinding}
      (h : U.blindWith rng inputs = .ok blinding) :
      OprfNext s (.blinding copies inputs) (s.keep copies blinding)
        (.inr (.blinded (.ok ⟨s.kept.length, s.views blinding.blindedElements⟩)))
  | cannotBlind {copies : List ℕ} {inputs : List Bytes} {rng : R} {e : OprfError}
      (h : U.blindWith rng inputs = .error e) :
      OprfNext s (.blinding copies inputs) s (.inr (.blinded (.error e.kind)))
  | unknownBlinding {blinding : ℕ} {evaluationElements : List Uint8Array}
      {proof publicKey : Uint8Array} (h : s.kept[blinding]? = none) :
      OprfNext s (.finalizeOprf blinding evaluationElements proof publicKey) s
        (.inr (.finalized (.error unknownBlinding)))
  | hands {blinding : ℕ} {kept : KeptBlinding} {evaluationElements : List Uint8Array}
      {proof publicKey : Uint8Array} (h : s.kept[blinding]? = some kept) :
      OprfNext s (.finalizeOprf blinding evaluationElements proof publicKey) s
        (.inl (.finalizing (kept.inputs.map s.bufferOf) (kept.clientStates.map s.bufferOf)
          (evaluationElements.map s.toArrayBuffer) (s.toArrayBuffer proof)
          (s.toArrayBuffer publicKey)))
  | finalizes {inputs clientStates evaluationElements outputs : List Bytes}
      {proof publicKey : Bytes}
      (h : U.finalize inputs clientStates evaluationElements proof publicKey = .ok outputs) :
      OprfNext s (.finalizing inputs clientStates evaluationElements proof publicKey)
        (s.allocate true outputs) (.inr (.finalized (.ok (s.views outputs))))
  | rejects {inputs clientStates evaluationElements : List Bytes} {proof publicKey : Bytes}
      {e : OprfError}
      (h : U.finalize inputs clientStates evaluationElements proof publicKey = .error e) :
      OprfNext s (.finalizing inputs clientStates evaluationElements proof publicKey) s
        (.inr (.finalized (.error e.kind)))

/-- The calls. -/
def VoprfCrate.oprfCalls : Calls OprfState OprfCall OprfResult OprfMove where
  start := fun _ call => call.Begins
  next := OprfNext U
  world := OprfMoves

abbrev OprfEvent := Event OprfCall OprfResult OprfMove

abbrev OprfPool := Pool OprfState OprfCall

/-- All interleavings of them, from a process in which nothing is blinded yet. -/
def VoprfCrate.oprf : TransitionSystem OprfPool OprfEvent :=
  U.oprfCalls.system fun s => s.kept = []

end

/-! ### What memory keeps -/

namespace OprfState

variable {s t u : OprfState}

theorem bufferOf_of_stores {shared : Bool} {i : ℕ} {b : Bytes} (h : s.Stores shared i b) :
    s.bufferOf i = b := by
  have h : s.heap[i]? = some ⟨b, shared⟩ := h
  rw [bufferOf, h]
  rfl

theorem map_bufferOf {shared : Bool} {is : List ℕ} {bs : List Bytes}
    (h : List.Forall₂ (s.Stores shared) is bs) : is.map s.bufferOf = bs := by
  induction h with
  | nil => rfl
  | cons hb _ ih => rw [List.map_cons, bufferOf_of_stores hb, ih]

/-- **The native side is handed a view's bytes**, whether or not they fill their buffer. -/
theorem toArrayBuffer_eq_slice (s : OprfState) (v : Uint8Array) :
    s.toArrayBuffer v = s.slice v := by
  unfold toArrayBuffer slice
  split
  · next h => rw [h.1, h.2, List.drop_zero, List.take_length]
  · rfl

/-- Allocating takes nothing from any buffer. -/
theorem Stores.allocate {shared shared' : Bool} {i : ℕ} {b : Bytes} (h : s.Stores shared i b)
    (bs : List Bytes) : (s.allocate shared' bs).Stores shared i b := by
  have hi : i < s.heap.length := (List.getElem?_eq_some_iff.mp h).1
  show (s.heap ++ _)[i]? = _
  rw [List.getElem?_append_left hi]
  exact h

/-- The new buffers hold what they were made for. -/
theorem stores_allocate (s : OprfState) (shared : Bool) (bs : List Bytes) :
    List.Forall₂ ((s.allocate shared bs).Stores shared) (s.fresh bs) bs := by
  rw [List.forall₂_iff_get]
  refine ⟨by simp [fresh], fun i hi hi' => ?_⟩
  show (s.heap ++ bs.map _)[(s.fresh bs).get ⟨i, hi⟩]? = _
  have hid : (s.fresh bs).get ⟨i, hi⟩ = s.heap.length + i := by simp [fresh]
  rw [hid, List.getElem?_append_right (by omega), Nat.add_sub_cancel_left, List.getElem?_map,
    List.getElem?_eq_getElem hi']
  rfl

/-- The views of the new buffers are of all their bytes. -/
theorem map_slice_views {bs : List Bytes}
    (hstores : List.Forall₂ (t.Stores true) (s.fresh bs) bs) :
    (s.views bs).map t.slice = bs := by
  unfold views
  generalize s.fresh bs = is at hstores ⊢
  induction hstores with
  | nil => rfl
  | cons hb _ ih =>
    rw [List.zipWith_cons_cons, List.map_cons, ih, slice, bufferOf_of_stores hb, List.drop_zero,
      List.take_length]

theorem Keeps.refl (s : OprfState) : s.Keeps s := ⟨fun _ _ h => h, List.prefix_refl _⟩

theorem Keeps.trans (h : s.Keeps t) (h' : t.Keeps u) : s.Keeps u :=
  ⟨fun i b hb => h'.buffers i b (h.buffers i b hb), h.kept.trans h'.kept⟩

theorem keeps_allocate (s : OprfState) (shared : Bool) (bs : List Bytes) :
    s.Keeps (s.allocate shared bs) :=
  ⟨fun _ _ h => h.allocate bs, List.prefix_refl _⟩

theorem Keeps.all (h : s.Keeps t) {is : List ℕ} {bs : List Bytes}
    (hstores : List.Forall₂ (s.Stores false) is bs) : List.Forall₂ (t.Stores false) is bs := by
  induction hstores with
  | nil => exact .nil
  | cons hb _ ih => exact .cons (h.buffers _ _ hb) ih

/-- Keeping a blinding takes nothing, and adds it. -/
theorem keeps_keep (s : OprfState) (copies : List ℕ) (blinding : OprfBlinding) :
    s.Keeps (s.keep copies blinding) := by
  have h := (s.keeps_allocate true blinding.blindedElements).trans
    (keeps_allocate _ false blinding.clientStates)
  exact ⟨h.buffers, List.prefix_append _ _⟩

/-- A write takes nothing that the library alone reaches. -/
theorem keeps_write {i : ℕ} {old : Bytes} (h : s.Stores true i old) (b : Bytes) :
    s.Keeps { s with heap := s.heap.set i ⟨b, true⟩ } := by
  refine ⟨fun j b' hb' => ?_, List.prefix_refl _⟩
  have hne : i ≠ j := by
    intro heq
    subst heq
    cases Option.some.inj (h.symm.trans hb')
  show (s.heap.set i _)[j]? = _
  rw [List.getElem?_set_ne hne]
  exact hb'

end OprfState

/-! ### What every step keeps -/

section

variable {R Scalar Element Proof : Type} {U : VoprfCrate R Scalar Element Proof} {s t : OprfState}

/-- A section of a call keeps what is kept. -/
theorem OprfNext.keeps {call : OprfCall} {r : OprfCall ⊕ OprfResult}
    (h : OprfNext U s call t r) : s.Keeps t := by
  cases h with
  | copies ht =>
    subst ht
    exact s.keeps_allocate false _
  | blinds _ => exact s.keeps_keep _ _
  | finalizes _ => exact s.keeps_allocate true _
  | _ => exact .refl s

/-- A move of the product keeps what is kept. -/
theorem OprfMoves.keeps {e : OprfMove} (h : OprfMoves s e t) : s.Keeps t := by
  cases h with
  | allocates => exact s.keeps_allocate true _
  | writes h => exact OprfState.keeps_write h _

/-- **Nothing a product does reaches what was kept for a blinding**: along every run, the copies
and the states stay as they are, and so does `KEPT`. -/
theorem VoprfCrate.oprf_keeps {p q : OprfPool} {es : List OprfEvent}
    (hrun : U.oprf.Run p es q) : p.shared.Keeps q.shared := by
  induction hrun with
  | nil => exact .refl _
  | @snoc p q es e _ hstep ih =>
    apply ih.trans
    cases e with
    | start l =>
      obtain ⟨-, rfl⟩ := hstep
      exact .refl _
    | «section» l r =>
      obtain ⟨_, _, -, hnext, -⟩ := hstep
      exact hnext.keeps
    | world e =>
      obtain ⟨hmove, -⟩ := hstep
      exact hmove.keeps

/-- **No call is ever stuck**: whatever happened to the memory, its next section can run. -/
theorem VoprfCrate.oprf_proceeds [Inhabited R] (p : OprfPool) {call : OprfCall}
    (hcall : call ∈ p.calls) : ∃ r q, U.oprf.step p (.section call r) q := by
  obtain ⟨before, after, hcalls⟩ := List.append_of_mem hcall
  have hnext : ∃ r t, OprfNext U p.shared call t r := by
    cases call with
    | blindOprf inputs => exact ⟨_, _, .copies rfl⟩
    | blinding copies inputs =>
      cases h : U.blindWith default inputs with
      | ok blinding => exact ⟨_, _, .blinds h⟩
      | error e => exact ⟨_, _, .cannotBlind h⟩
    | finalizeOprf blinding evaluationElements proof publicKey =>
      cases h : p.shared.kept[blinding]? with
      | none => exact ⟨_, _, .unknownBlinding h⟩
      | some kept => exact ⟨_, _, .hands h⟩
    | finalizing inputs clientStates evaluationElements proof publicKey =>
      cases h : U.finalize inputs clientStates evaluationElements proof publicKey with
      | ok outputs => exact ⟨_, _, .finalizes h⟩
      | error e => exact ⟨_, _, .rejects h⟩
  obtain ⟨r, t, hnext⟩ := hnext
  exact ⟨r, ⟨t, before ++ (remaining r ++ after)⟩, before, after, hcalls, hnext, rfl⟩

end

end MatrixCrypto
