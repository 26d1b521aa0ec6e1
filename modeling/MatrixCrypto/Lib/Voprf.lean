import Mathlib.Algebra.Group.Action.Defs
import Mathlib.Algebra.Group.Basic
import Mathlib.Data.List.Forall2
import Mathlib.Data.List.Basic

/-!
# Verifiable oblivious functions

A client has a keyed function computed by the holder of the key, who is shown each
input hidden behind a scalar only the client knows.  A batch comes back with one proof
that every element was evaluated with the key whose public half the client names.

## Main definitions

* `Voprf` — the operations, and what they satisfy.
* `Client` — what the client keeps of an input it has hidden.
* `Voprf.answer` — what the holder of a key answers.
* `Voprf.finalize` — what the client makes of an answer, all or nothing.
* `Voprf.ofAction` — such a function from any commutative group that acts freely on a point.

## Main results

* `Voprf.outputs_answer` — states and elements in the order of the inputs give the keyed
  function of each input.
* `Voprf.finalize_answer` — **a batch comes out exactly when the answer is the one made for it
  with the key named**, and then as the keyed function of its inputs.
-/

namespace MatrixCrypto
namespace Lib

universe u v w x y

/-- What a client keeps of an input it has hidden. -/
structure Client (Scalar : Type u) (Element : Type v) where
  blind : Scalar
  blindedElement : Element

/-- The operations of a verifiable oblivious function.  Keys, blinds and the randomness of
proofs are scalars; elements are those of the group that are not its identity. -/
structure Voprf (Input : Type u) (Output : Type v) (Scalar : Type w) (Element : Type x)
    (Proof : Type y) where
  blind : Scalar → Input → Element
  /-- What the holder of a key makes of an element. -/
  evaluate : Scalar → Element → Element
  unblind : Scalar → Element → Element
  hash : Input → Element → Output
  /-- The function itself, as the holder of the key computes it. -/
  keyed : Scalar → Input → Output
  publicKey : Scalar → Element
  /-- One proof for the blinded elements and the evaluated ones; the first scalar is random. -/
  prove : Scalar → Scalar → List Element → List Element → Proof
  verify : Element → List Element → List Element → Proof → Bool
  correct : ∀ k r input, hash input (unblind r (evaluate k (blind r input))) = keyed k input
  publicKey_injective : Function.Injective publicKey
  /-- A proof verifies for the key and the lists it was made for, and for nothing else. -/
  verify_iff : ∀ pk bs es r k bs', verify pk bs es (prove r k bs' (bs'.map (evaluate k))) = true ↔
    pk = publicKey k ∧ bs = bs' ∧ es = bs'.map (evaluate k)

namespace Voprf

variable {Input : Type u} {Output : Type v} {Scalar : Type w} {Element : Type x} {Proof : Type y}
  (V : Voprf Input Output Scalar Element Proof)

/-! ### A batch -/

/-- What is kept of an input hidden behind a scalar. -/
def client (r : Scalar) (input : Input) : Client Scalar Element := ⟨r, V.blind r input⟩

/-- Each state hides the input at its place. -/
def Hides (inputs : List Input) (clients : List (Client Scalar Element)) : Prop :=
  List.Forall₂ (fun input c => ∃ r, c = V.client r input) inputs clients

/-- The outputs of inputs, states and elements that stand at the same places. -/
def outputs (inputs : List Input) (clients : List (Client Scalar Element))
    (elements : List Element) : List Output :=
  (inputs.zip (clients.zip elements)).map fun p => V.hash p.1 (V.unblind p.2.1.blind p.2.2)

/-- The answer of the holder of `k` to a batch of blinded elements: what every element is
evaluated to, in the same order, and the proof. -/
def answer (r k : Scalar) (blinded : List Element) : List Element × Proof :=
  (blinded.map (V.evaluate k), V.prove r k blinded (blinded.map (V.evaluate k)))

/-- The proof verifies for what the client blinded. -/
def accepts (pk : Element) (clients : List (Client Scalar Element)) (elements : List Element)
    (proof : Proof) : Bool :=
  V.verify pk (clients.map Client.blindedElement) elements proof

/-- What the client makes of an answer. -/
def finalize (pk : Element) (inputs : List Input) (clients : List (Client Scalar Element))
    (elements : List Element) (proof : Proof) : Option (List Output) :=
  if V.accepts pk clients elements proof then some (V.outputs inputs clients elements) else none

variable {V}

theorem Hides.length_eq {inputs : List Input} {clients : List (Client Scalar Element)}
    (h : V.Hides inputs clients) : clients.length = inputs.length :=
  (List.Forall₂.length_eq h).symm

/-- **Every input gets its own output**: the states and the evaluated elements stand where their
inputs do. -/
theorem outputs_answer {inputs : List Input} {clients : List (Client Scalar Element)}
    (h : V.Hides inputs clients) (r k : Scalar) :
    V.outputs inputs clients (V.answer r k (clients.map Client.blindedElement)).1 =
      inputs.map (V.keyed k) := by
  unfold outputs answer
  induction h with
  | nil => rfl
  | @cons input c inputs clients hc _ ih =>
    obtain ⟨r', rfl⟩ := hc
    simp only [List.map_cons, List.zip_cons_cons, List.cons.injEq]
    exact ⟨V.correct k r' input, ih⟩

theorem accepts_answer {pk : Element} {clients : List (Client Scalar Element)}
    {elements blinded : List Element} {r k : Scalar} :
    V.accepts pk clients elements (V.answer r k blinded).2 = true ↔
      pk = V.publicKey k ∧ clients.map Client.blindedElement = blinded ∧
        elements = (V.answer r k blinded).1 :=
  V.verify_iff _ _ _ _ _ _

/-- **All or nothing**: an answer of the holder of a key, with whatever elements, gives outputs
exactly when that key is the one named, the batch is the one answered and the elements are the
ones answered; and then it gives the keyed function of every input, in order. -/
theorem finalize_answer {inputs : List Input} {clients : List (Client Scalar Element)}
    (h : V.Hides inputs clients) {pk : Element} {elements blinded : List Element} {r k : Scalar}
    {ys : List Output} :
    V.finalize pk inputs clients elements (V.answer r k blinded).2 = some ys ↔
      (pk = V.publicKey k ∧ clients.map Client.blindedElement = blinded ∧
        elements = (V.answer r k blinded).1) ∧ ys = inputs.map (V.keyed k) := by
  unfold finalize
  constructor
  · intro hsome
    rw [Option.ite_none_right_eq_some] at hsome
    obtain ⟨haccepts, hys⟩ := hsome
    obtain ⟨hpk, rfl, rfl⟩ := accepts_answer.mp haccepts
    rw [Option.some.injEq, outputs_answer h] at hys
    exact ⟨⟨hpk, rfl, rfl⟩, hys.symm⟩
  · intro hall
    obtain ⟨hsame, rfl⟩ := hall
    rw [if_pos (accepts_answer.mpr hsame)]
    obtain ⟨-, rfl, rfl⟩ := hsame
    rw [outputs_answer h]

/-! ### From a group action -/

/-- A commutative group of scalars acts on the elements, and moves the generator freely: an
input is blinded by acting on its hash and unblinded by acting with the inverse.  The proof here
is the statement itself, which is what an ideal proof comes to. -/
def ofAction [CommGroup Scalar] [MulAction Scalar Element] [DecidableEq Element]
    (hashToGroup : Input → Element) (hash : Input → Element → Output) (generator : Element)
    (hfree : Function.Injective fun k : Scalar => k • generator) :
    Voprf Input Output Scalar Element (Element × List Element × List Element) where
  blind := fun r input => r • hashToGroup input
  evaluate := fun k e => k • e
  unblind := fun r e => r⁻¹ • e
  hash := hash
  keyed := fun k input => hash input (k • hashToGroup input)
  publicKey := fun k => k • generator
  prove := fun _ k bs es => (k • generator, bs, es)
  verify := fun pk bs es proof => decide (proof = (pk, bs, es))
  correct := by
    intro k r input
    rw [smul_smul, smul_smul, mul_assoc, mul_comm k r, inv_mul_cancel_left]
  publicKey_injective := hfree
  verify_iff := by
    intro pk bs es r k bs'
    simp only [decide_eq_true_eq, Prod.mk.injEq]
    constructor
    · intro h
      exact ⟨h.1.symm, h.2.1.symm, h.2.2.symm⟩
    · intro h
      exact ⟨h.1.symm, h.2.1.symm, h.2.2.symm⟩

end Voprf

end Lib
end MatrixCrypto
