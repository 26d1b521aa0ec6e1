import MatrixCrypto.Oprf.Facade
import Mathlib.Data.UInt
import Mathlib.Algebra.Group.Action.Basic

/-!
# A batch, there and back

A list of inputs is blinded by one call and finalised by another.  The product holds the
buffers its inputs came from and those it is given, and writes to them as it likes; other
calls run in between.

## Main definitions

* `VoprfCrate.Blinds`, `VoprfCrate.Finalizes` — a call, from the section that reads its
  arguments to the one that returns.
* `VoprfCrate.Strays` — the answer at hand is not the one made for this batch.

## Main results

* `VoprfCrate.exchange` — the two calls come to what `finalize` makes of the inputs as they
  were when blinded, with their own states.
* `VoprfCrate.oprf_round_trip` — **the keyed function of every input, in order, or nothing.**
-/

namespace MatrixCrypto

open Lib Facade

namespace VoprfCrate

variable {R Scalar Element Proof : Type} (U : VoprfCrate R Scalar Element Proof)

/-! ### A call, from end to end -/

/-- `blindOprf`, called in `p` with inputs whose bytes are `xs` there, comes to `out` in `q`:
the identity of the blinding and the bytes of its blinded elements, or an error. -/
def Blinds (p : OprfPool) (xs : List Bytes) (q : OprfPool)
    (out : Except CryptoErrorKind (ℕ × List Bytes)) : Prop :=
  ∃ inputs copies lowered p' es q' result, xs = inputs.map p.shared.slice ∧
    U.oprf.step p (.section (.blindOprf inputs) (.inl (.blinding copies lowered))) p' ∧
    U.oprf.Run p' es q' ∧
    U.oprf.step q' (.section (.blinding copies lowered) (.inr (.blinded result))) q ∧
    out = result.map fun b => (b.id, b.blindedElements.map q.shared.slice)

/-- `finalizeOprf`, called in `p` with a blinding and with arrays whose bytes there are the
elements, the proof and the public key, comes to `out` in `q`: the bytes of the outputs, or an
error. -/
inductive Finalizes (p : OprfPool) (blinding : ℕ) : List Bytes → Bytes → Bytes → OprfPool →
    Except CryptoErrorKind (List Bytes) → Prop
  | atOnce {elements : List Uint8Array} {proof publicKey : Uint8Array} {q : OprfPool}
      {result : Except CryptoErrorKind (List Uint8Array)}
      (h : U.oprf.step p (.section (.finalizeOprf blinding elements proof publicKey)
        (.inr (.finalized result))) q) :
      Finalizes p blinding (elements.map p.shared.slice) (p.shared.slice proof)
        (p.shared.slice publicKey) q (result.map (List.map q.shared.slice))
  | native {elements : List Uint8Array} {proof publicKey : Uint8Array} {call : OprfCall}
      {p' q' q : OprfPool} {es : List OprfEvent}
      {result : Except CryptoErrorKind (List Uint8Array)}
      (h : U.oprf.step p (.section (.finalizeOprf blinding elements proof publicKey)
        (.inl call)) p')
      (hrun : U.oprf.Run p' es q')
      (hreturns : U.oprf.step q' (.section call (.inr (.finalized result))) q) :
      Finalizes p blinding (elements.map p.shared.slice) (p.shared.slice proof)
        (p.shared.slice publicKey) q (result.map (List.map q.shared.slice))

/-- The elements and the public key at hand are not those of the answer of the holder of `k` to
this batch, `answer` being its answer to `bs`. -/
inductive Strays (blinded elements : List Bytes) (publicKey : Bytes) (k : Scalar)
    (bs : List Bytes) (answer : Answer) : Prop
  /-- Some were dropped, or added. -/
  | resized (h : elements.length ≠ answer.elements.length)
  /-- Some were swapped with others that differ. -/
  | reordered (hperm : elements.Perm answer.elements) (h : elements ≠ answer.elements)
  /-- Some have another value. -/
  | changed (h : elements.map U.evaluationElement.deserialize ≠
      answer.elements.map U.evaluationElement.deserialize)
  /-- The key named is another's. -/
  | otherKey {k' : Scalar} (h : U.IsPublicKeyOf publicKey k') (hne : k' ≠ k)
  /-- The key named is not the one that answered, or is no key. -/
  | notItsKey (h : ¬ U.IsPublicKeyOf publicKey k)
  /-- It is the answer to another blinding. -/
  | otherBlinding (h : bs.map U.blindedElement.deserialize ≠
      blinded.map U.blindedElement.deserialize)

variable {U}

/-! ### What the two calls come to -/

section

variable {s t : OprfState}

/-- The copies, and the bytes handed over, are the inputs' bytes. -/
theorem next_blindOprf {inputs : List Uint8Array} {copies : List ℕ} {lowered : List Bytes}
    (h : OprfNext U s (.blindOprf inputs) t (.inl (.blinding copies lowered))) :
    lowered = inputs.map s.slice ∧ List.Forall₂ (t.Stores false) copies (inputs.map s.slice) := by
  cases h with
  | copies ht =>
    have hstores := s.stores_allocate false (inputs.map s.slice)
    rw [← ht] at hstores
    exact ⟨OprfState.map_bufferOf hstores, hstores⟩

/-- A native blinding returns what `blindWith` does, and keeps it if it succeeded. -/
theorem next_blinding {copies : List ℕ} {inputs : List Bytes}
    {result : Except CryptoErrorKind OprfBlindingObject}
    (h : OprfNext U s (.blinding copies inputs) t (.inr (.blinded result))) :
    (∃ rng e, U.blindWith rng inputs = .error e ∧ result = .error e.kind) ∨
    ∃ rng blinding, U.blindWith rng inputs = .ok blinding ∧ t = s.keep copies blinding ∧
      result = .ok ⟨s.kept.length, s.views blinding.blindedElements⟩ := by
  cases h with
  | @blinds _ _ rng blinding h => exact Or.inr ⟨rng, blinding, h, rfl, rfl⟩
  | @cannotBlind _ _ rng e h => exact Or.inl ⟨rng, e, h, rfl⟩

/-- A finalising of a blinding that is kept hands over what was kept for it. -/
theorem next_finalizeOprf {blinding : ℕ} {kept : KeptBlinding} {elements : List Uint8Array}
    {proof publicKey : Uint8Array} {r : OprfCall ⊕ OprfResult}
    (hkept : s.kept[blinding]? = some kept)
    (h : OprfNext U s (.finalizeOprf blinding elements proof publicKey) t r) :
    r = .inl (.finalizing (kept.inputs.map s.bufferOf) (kept.clientStates.map s.bufferOf)
      (elements.map s.slice) (s.slice proof) (s.slice publicKey)) := by
  have harguments : s.toArrayBuffer = s.slice := funext s.toArrayBuffer_eq_slice
  cases h with
  | unknownBlinding hnone =>
    rw [hkept] at hnone
    cases hnone
  | hands hkept' =>
    obtain rfl := Option.some.inj (hkept.symm.trans hkept')
    rw [harguments]

/-- A native finalising returns what `finalize` does. -/
theorem next_finalizing {inputs clientStates elements : List Bytes} {proof publicKey : Bytes}
    {result : Except CryptoErrorKind (List Uint8Array)}
    (h : OprfNext U s (.finalizing inputs clientStates elements proof publicKey) t
      (.inr (.finalized result))) :
    result.map (List.map t.slice) =
      (U.finalize inputs clientStates elements proof publicKey).mapError OprfError.kind := by
  cases h with
  | finalizes h =>
    rw [h]
    exact congrArg Except.ok (OprfState.map_slice_views (s.stores_allocate true _))
  | rejects h =>
    rw [h]
    rfl

/-- What a blinding leaves: the elements where the product reads them, and under its identity
the copies and the states. -/
theorem keep_stores (s : OprfState) (copies : List ℕ) (blinding : OprfBlinding) :
    (s.views blinding.blindedElements).map (s.keep copies blinding).slice =
        blinding.blindedElements ∧
      ∃ states, (s.keep copies blinding).kept[s.kept.length]? = some ⟨copies, states⟩ ∧
        List.Forall₂ ((s.keep copies blinding).Stores false) states blinding.clientStates := by
  have helements : List.Forall₂ ((s.keep copies blinding).Stores true)
      (s.fresh blinding.blindedElements) blinding.blindedElements :=
    (s.stores_allocate true blinding.blindedElements).imp fun _ _ h => h.allocate _
  refine ⟨OprfState.map_slice_views helements,
    (s.allocate true blinding.blindedElements).fresh blinding.clientStates, ?_, ?_⟩
  · show (s.kept ++ [_])[s.kept.length]? = _
    rw [List.getElem?_append_right (Nat.le_refl _), Nat.sub_self]
    rfl
  · exact (s.allocate true blinding.blindedElements).stores_allocate false blinding.clientStates

end

/-- A call of `blindOprf` that fails failed at `blindWith`; one that succeeds left its inputs as
they were and its states where the library alone reaches them, under its identity. -/
theorem Blinds.result {p q : OprfPool} {xs : List Bytes}
    {out : Except CryptoErrorKind (ℕ × List Bytes)} (h : U.Blinds p xs q out) :
    (∃ rng e, U.blindWith rng xs = .error e ∧ out = .error e.kind) ∨
    ∃ rng blinding id kept, U.blindWith rng xs = .ok blinding ∧
      out = .ok (id, blinding.blindedElements) ∧ q.shared.kept[id]? = some kept ∧
      List.Forall₂ (q.shared.Stores false) kept.inputs xs ∧
      List.Forall₂ (q.shared.Stores false) kept.clientStates blinding.clientStates := by
  obtain ⟨inputs, copies, lowered, p', es, q', result, rfl, hcopies, hrun, hblinds, rfl⟩ := h
  obtain ⟨_, _, -, hcopies, -⟩ := hcopies
  obtain ⟨_, _, -, hblinds, -⟩ := hblinds
  obtain ⟨rfl, hstores⟩ := next_blindOprf hcopies
  have hstores := ((oprf_keeps hrun).trans hblinds.keeps).all hstores
  rcases next_blinding hblinds with ⟨rng, e, hblind, rfl⟩ | ⟨rng, blinding, hblind, hkeep, rfl⟩
  · exact Or.inl ⟨rng, e, hblind, rfl⟩
  · obtain ⟨helements, states, hkept, hstates⟩ := keep_stores q'.shared copies blinding
    rw [← hkeep] at helements hkept hstates
    refine Or.inr ⟨rng, blinding, q'.shared.kept.length, _, hblind, ?_, hkept, hstores, hstates⟩
    exact congrArg (fun bs => Except.ok (q'.shared.kept.length, bs)) helements

/-- A call of `finalizeOprf` with a blinding that is kept comes to what `finalize` makes of what
was kept, and of the bytes at hand when it is called. -/
theorem Finalizes.result {p q : OprfPool} {id : ℕ} {kept : KeptBlinding}
    {xs states elements : List Bytes} {proof publicKey : Bytes}
    {out : Except CryptoErrorKind (List Bytes)}
    (h : U.Finalizes p id elements proof publicKey q out)
    (hkept : p.shared.kept[id]? = some kept)
    (hinputs : List.Forall₂ (p.shared.Stores false) kept.inputs xs)
    (hstates : List.Forall₂ (p.shared.Stores false) kept.clientStates states) :
    out = (U.finalize xs states elements proof publicKey).mapError OprfError.kind := by
  cases h with
  | atOnce h =>
    obtain ⟨_, _, -, hnext, -⟩ := h
    cases next_finalizeOprf hkept hnext
  | native h _ hreturns =>
    obtain ⟨_, _, -, hnext, -⟩ := h
    obtain ⟨_, _, -, hreturns, -⟩ := hreturns
    obtain rfl := Sum.inl.inj (next_finalizeOprf hkept hnext)
    rw [next_finalizing hreturns, OprfState.map_bufferOf hinputs, OprfState.map_bufferOf hstates]

/-- **What the two calls come to**, whatever ran between their sections and whatever the product
wrote: the inputs as they were when blinded, each with its own state, and the answer at hand are
what `finalize` checks. -/
theorem exchange (hU : U.Lawful) {p q p' q' : OprfPool} {xs blinded elements : List Bytes}
    {id : ℕ} {es : List OprfEvent} {proof publicKey : Bytes}
    {out : Except CryptoErrorKind (List Bytes)} (hblinds : U.Blinds p xs q (.ok (id, blinded)))
    (hrun : U.oprf.Run q es p') (hfinalizes : U.Finalizes p' id elements proof publicKey q' out) :
    WithinLimits xs ∧ ∃ clients, U.suite.Hides xs clients ∧
      blinded.mapM U.blindedElement.deserialize = .ok (clients.map Client.blindedElement) ∧
      out = (U.finalize xs (clients.map U.client.serialize) elements proof publicKey).mapError
        OprfError.kind := by
  rcases hblinds.result with ⟨_, _, -, hout⟩ | ⟨rng, blinding, id', kept, hblind, hout, hkept,
    hinputs, hstates⟩
  · cases hout
  · cases hout
    obtain ⟨hlimits, clients, hclients, helements, hclientStates⟩ := blindWith_eq_ok hU hblind
    have hkeeps := oprf_keeps hrun
    have hkept' : p'.shared.kept[id]? = some kept := by
      obtain ⟨more, hmore⟩ := hkeeps.kept
      rw [← hmore, List.getElem?_append_left (List.getElem?_eq_some_iff.mp hkept).1]
      exact hkept
    refine ⟨hlimits, clients, hclients, ?_, ?_⟩
    · have hread := mapM_map_of_roundTrip hU.blindedElement.roundTrip
        (clients.map Client.blindedElement)
      rw [helements, ← hread, List.map_map]
      rfl
    · rw [hfinalizes.result hkept' (hkeeps.all hinputs) (hkeeps.all hstates), hclientStates]

/-! ### Answers that stray -/

/-- Serialised elements that read as others are those others, serialised. -/
theorem eq_of_reads {c : Codec Element} (hc : c.Lawful) {values : List Element} {bs : List Bytes}
    (hmem : ∀ b ∈ bs, ∃ e, b = c.serialize e)
    (hreads : bs.map c.deserialize = (values.map c.serialize).map c.deserialize) :
    bs = values.map c.serialize := by
  have hvalues := mapM_eq_ok_iff_map.mp (mapM_map_of_roundTrip hc.roundTrip values)
  rw [hvalues, ← mapM_eq_ok_iff_map, mapM_eq_ok] at hreads
  induction hreads with
  | nil => rfl
  | @cons b e bs values hread _ ih =>
    have hvalues' := mapM_eq_ok_iff_map.mp (mapM_map_of_roundTrip hc.roundTrip values)
    obtain ⟨e', rfl⟩ := hmem b List.mem_cons_self
    rw [hc.roundTrip, Except.ok.injEq] at hread
    subst hread
    rw [List.map_cons, ih (fun b hb => hmem b (List.mem_cons_of_mem _ hb)) hvalues']

/-- An answer that strays gives no output. -/
theorem Strays.no_output (hU : U.Lawful) {xs blinded elements bs ys : List Bytes}
    {publicKey : Bytes} {clients : List (Client Scalar Element)} {r k : Scalar} {answer : Answer}
    (hlimits : WithinLimits xs) (hclients : U.suite.Hides xs clients)
    (hblinded : blinded.mapM U.blindedElement.deserialize = .ok (clients.map Client.blindedElement))
    (hserve : U.serve r k bs = .ok answer) (h : U.Strays blinded elements publicKey k bs answer) :
    U.finalize xs (clients.map U.client.serialize) elements answer.proof publicKey ≠ .ok ys := by
  intro hout
  obtain ⟨⟨hpk, hbs, hreads⟩, -⟩ := (finalize_serve hU hlimits hclients hserve).mp hout
  cases h with
  | resized h => exact h (by simpa using congrArg List.length hreads)
  | reordered hperm h =>
    obtain ⟨values, -, rfl⟩ := serve_eq_ok hserve
    refine h (eq_of_reads hU.evaluationElement (fun b hb => ?_) hreads)
    obtain ⟨e, -, rfl⟩ := List.mem_map.mp (hperm.subset hb)
    exact ⟨e, rfl⟩
  | changed h => exact h hreads
  | otherKey h hne =>
    have hkeys := Except.ok.inj (h.symm.trans hpk)
    exact hne (U.suite.publicKey_injective hkeys)
  | notItsKey h => exact h hpk
  | otherBlinding h =>
    rw [mapM_eq_ok_iff_map] at hblinded hbs
    exact h (hbs.trans hblinded.symm)

/-- A server reads what was blinded. -/
theorem exists_serve {blinded : List Bytes} {elements : List Element}
    (h : blinded.mapM U.blindedElement.deserialize = .ok elements) (r k : Scalar) :
    ∃ answer, U.serve r k blinded = .ok answer :=
  ⟨_, bind_eq_ok.mpr ⟨elements, h, rfl⟩⟩

/-- An error of the core is `rejected` to the product only if it is. -/
theorem kind_eq_rejected {e : OprfError} (h : e.kind = .rejected) : e = .rejected := by
  rw [OprfError.kind_eq] at h
  cases e with
  | rejected => rfl
  | _ => cases h

/-- **A batch comes back as the keyed function of its inputs, in order, or not at all.**

A list outside the limits is refused.  Of a blinding that was returned, whatever the product has
written to its buffers since and whatever ran in between: an honest server answers it, and
finalised with that answer and that server's public key it gives the keyed function of every
input as it was when blinded; with one element for each input it is never refused for its size;
and with a proof of an honest server for elements, a key or a batch that are not these it gives an
error.  A call under way can always take its next section. -/
theorem oprf_round_trip [Inhabited R] (hU : U.Lawful) :
    (∀ p xs q out, U.Blinds p xs q out → ¬ WithinLimits xs → out = .error .rejected) ∧
    (∀ p xs q id blinded es p' elements proof publicKey q' out,
      U.Blinds p xs q (.ok (id, blinded)) → U.oprf.Run q es p' →
      U.Finalizes p' id elements proof publicKey q' out →
        (∀ r k, ∃ answer, U.serve r k blinded = .ok answer ∧
          (elements = answer.elements → proof = answer.proof → U.IsPublicKeyOf publicKey k →
            out = .ok (xs.map (U.suite.keyed k)))) ∧
        (elements.length = xs.length → out ≠ .error .rejected) ∧
        ∀ r k bs answer, U.serve r k bs = .ok answer → proof = answer.proof →
          U.Strays blinded elements publicKey k bs answer → ∃ e, out = .error e) ∧
    ∀ (p : OprfPool) (call : OprfCall), call ∈ p.calls →
      ∃ r q, U.oprf.step p (.section call r) q := by
  refine ⟨fun p xs q out hblinds hlimits => ?_, ?_, fun p call => oprf_proceeds p⟩
  · rcases hblinds.result with ⟨rng, e, hblind, rfl⟩ | ⟨rng, _, _, _, hblind, -⟩
    · rw [blindWith_of_not_withinLimits hlimits] at hblind
      cases hblind
      rfl
    · rw [blindWith_of_not_withinLimits hlimits] at hblind
      cases hblind
  · intro p xs q id blinded es p' elements proof publicKey q' out hblinds hrun hfinalizes
    obtain ⟨hlimits, clients, hclients, hblinded, rfl⟩ := exchange hU hblinds hrun hfinalizes
    refine ⟨fun r k => ?_, fun hlength => ?_, fun r k bs answer hserve => ?_⟩
    · obtain ⟨answer, hserve⟩ := exists_serve hblinded r k
      refine ⟨answer, hserve, ?_⟩
      rintro rfl rfl hpk
      rw [(finalize_serve hU hlimits hclients hserve).mpr ⟨⟨hpk, hblinded, rfl⟩, rfl⟩]
      rfl
    · intro hout
      obtain ⟨e, he, hkind⟩ := mapError_eq_error.mp hout
      rw [kind_eq_rejected hkind] at he
      exact finalize_ne_rejected hU hlimits hclients hlength he
    · -- an output would make the answer this batch's
      rintro rfl hstrays
      cases hout : U.finalize xs (clients.map U.client.serialize) elements answer.proof
        publicKey with
      | error e => exact ⟨e.kind, rfl⟩
      | ok ys => exact absurd hout (hstrays.no_output hU hlimits hclients hblinded hserve)

end VoprfCrate

/-! ### A small group

The scalars and the elements are the 256 bytes under addition. -/

abbrev ByteGroup := Multiplicative UInt8

/-- The suite over it: an input is hashed to the sum of its bytes, and an output is the input
with its element. -/
def byteSuite : Voprf Bytes Bytes ByteGroup ByteGroup
    (ByteGroup × List ByteGroup × List ByteGroup) :=
  Voprf.ofAction (fun input => .ofAdd input.sum) (fun input e => input ++ [e.toAdd]) 1
    (fun k k' h => by simpa using h)

/-- An element is one byte. -/
def byteElement : Codec ByteGroup where
  serialize := fun e => [e.toAdd]
  deserialize
    | [b] => .ok (.ofAdd b)
    | _ => .error .deserialization

theorem byteElement_lawful : byteElement.Lawful where
  roundTrip := fun _ => rfl
  unreadable := by
    intro b e h
    match b with
    | [] | _ :: _ :: _ => exact (Except.error.inj h).symm
    | [_] => cases h

/-- A state is two. -/
def byteClient : Codec (Client ByteGroup ByteGroup) where
  serialize := fun c => [c.blind.toAdd, c.blindedElement.toAdd]
  deserialize
    | [r, b] => .ok ⟨.ofAdd r, .ofAdd b⟩
    | _ => .error .deserialization

theorem byteClient_lawful : byteClient.Lawful where
  roundTrip := fun _ => rfl
  unreadable := by
    intro b e h
    match b with
    | [] | [_] | _ :: _ :: _ :: _ => exact (Except.error.inj h).symm
    | [_, _] => cases h

/-- Elements behind a byte that says which list they are of. -/
def readLists : Bytes → Except VoprfError (List ByteGroup × List ByteGroup)
  | [] => .ok ([], [])
  | 1 :: b :: rest => (readLists rest).map fun p => (.ofAdd b :: p.1, p.2)
  | 2 :: b :: rest => (readLists rest).map fun p => (p.1, .ofAdd b :: p.2)
  | _ => .error .deserialization

/-- A proof is the key, and the two lists. -/
def byteProof : Codec (ByteGroup × List ByteGroup × List ByteGroup) where
  serialize := fun p => p.1.toAdd :: (p.2.1.flatMap (fun e => [1, e.toAdd]) ++
    p.2.2.flatMap fun e => [2, e.toAdd])
  deserialize
    | [] => .error .deserialization
    | pk :: lists => (readLists lists).map fun p => (.ofAdd pk, p)

theorem readLists_unreadable {lists : Bytes} {e : VoprfError} (h : readLists lists = .error e) :
    e = .deserialization := by
  fun_induction readLists lists with
  | case1 => cases h
  | case2 b rest ih | case3 b rest ih =>
    cases hrest : readLists rest with
    | error e' =>
      rw [hrest] at h
      obtain rfl := Except.error.inj h
      exact ih hrest
    | ok p =>
      rw [hrest] at h
      cases h
  | case4 lists _ _ _ => exact (Except.error.inj h).symm

theorem readLists_flatMap (bs es : List ByteGroup) :
    readLists (bs.flatMap (fun e => [1, e.toAdd]) ++ es.flatMap fun e => [2, e.toAdd]) =
      .ok (bs, es) := by
  induction bs with
  | nil =>
    induction es with
    | nil => rfl
    | cons e es ih => exact congrArg (Except.map _) ih
  | cons b bs ih => exact congrArg (Except.map _) ih

theorem byteProof_lawful : byteProof.Lawful where
  roundTrip := fun p => congrArg (Except.map _) (readLists_flatMap p.2.1 p.2.2)
  unreadable := by
    intro b e h
    cases b with
    | nil => exact (Except.error.inj h).symm
    | cons pk lists =>
      have h : (readLists lists).map (fun p => (Multiplicative.ofAdd pk, p)) = .error e := h
      cases hlists : readLists lists with
      | error e' =>
        rw [hlists] at h
        obtain rfl := Except.error.inj h
        exact readLists_unreadable hlists
      | ok p =>
        rw [hlists] at h
        cases h

/-- The crate over it; its generator draws one byte after the other. -/
def byteCrate : VoprfCrate UInt8 ByteGroup ByteGroup
    (ByteGroup × List ByteGroup × List ByteGroup) where
  suite := byteSuite
  blind := fun input rng =>
    let state := byteSuite.client (.ofAdd rng) input
    .ok ((state.blindedElement, state), rng + 1)
  batchFinalize := fun inputs clients elements proof pk =>
    if inputs.length = 0 ∨ u16Max < inputs.length then .error .batch
    else if byteSuite.accepts pk clients elements proof = true then
      .ok ((inputs.zip (clients.zip elements)).map fun p => outputOf byteSuite p.1 p.2.1 p.2.2)
    else .error .proofVerification
  client := byteClient
  blindedElement := byteElement
  evaluationElement := byteElement
  publicKey := byteElement
  proof := byteProof

theorem byteCrate_lawful : byteCrate.Lawful where
  blind := by
    intro input rng message state rng' h
    cases h
    exact ⟨⟨_, rfl⟩, rfl⟩
  batchFinalize := fun _ _ => rfl
  client := byteClient_lawful
  blindedElement := byteElement_lawful
  evaluationElement := byteElement_lawful
  publicKey := byteElement_lawful
  proof := byteProof_lawful

/-- A section of the only call. -/
theorem byte_section {s t : OprfState} {call : OprfCall} {r : OprfCall ⊕ OprfResult}
    (h : OprfNext byteCrate s call t r) :
    byteCrate.oprf.step ⟨s, [call]⟩ (.section call r) ⟨t, remaining r ++ []⟩ :=
  byteCrate.oprfCalls.step_section [] [] h

/-- A product with two inputs in its buffers, about to blind them. -/
def twoInputs : OprfState := ⟨[⟨[1, 2], true⟩, ⟨[4], true⟩], []⟩

/-- The memory once they are copied. -/
def twoCopied : OprfState :=
  ⟨[⟨[1, 2], true⟩, ⟨[4], true⟩, ⟨[1, 2], false⟩, ⟨[4], false⟩], []⟩

/-- The memory once the product has reused its first buffer. -/
def twoReused : OprfState :=
  ⟨[⟨[9, 9], true⟩, ⟨[4], true⟩, ⟨[1, 2], false⟩, ⟨[4], false⟩], []⟩

/-- What the inputs are blinded to, behind the bytes 5 and 6. -/
def twoBlinded : OprfBlinding := ⟨[[8], [10]], [[5, 8], [6, 10]]⟩

/-- The answer of the server that holds 7: elements, public key and proof, in one buffer. -/
def twoAnswered : OprfState :=
  (twoReused.keep [2, 3] twoBlinded).allocate true [[15, 17, 7, 7, 1, 8, 1, 10, 2, 15, 2, 17]]

theorem twoInputs_blinds : byteCrate.Blinds ⟨twoInputs, [.blindOprf [⟨0, 0, 2⟩, ⟨1, 0, 1⟩]]⟩
    [[1, 2], [4]] ⟨twoReused.keep [2, 3] twoBlinded, []⟩ (.ok (0, [[8], [10]])) := by
  have hcopies : OprfNext byteCrate twoInputs (.blindOprf [⟨0, 0, 2⟩, ⟨1, 0, 1⟩]) twoCopied
      (.inl (.blinding [2, 3] [[1, 2], [4]])) := .copies rfl
  have hreuses : byteCrate.oprf.step ⟨twoCopied, [.blinding [2, 3] [[1, 2], [4]]]⟩
      (.world (.writes 0 [9, 9])) ⟨twoReused, [.blinding [2, 3] [[1, 2], [4]]]⟩ :=
    ⟨@OprfMoves.writes twoCopied 0 [9, 9] [1, 2] rfl, rfl⟩
  have hblinds : OprfNext byteCrate twoReused (.blinding [2, 3] [[1, 2], [4]])
      (twoReused.keep [2, 3] twoBlinded) _ := @OprfNext.blinds _ _ _ _ _ _ _ _ 5 twoBlinded rfl
  exact ⟨_, _, _, _, _, _, _, rfl, byte_section hcopies, .single hreuses, byte_section hblinds, rfl⟩

/-- The proof in it. -/
def twoProof : Bytes := [7, 1, 8, 1, 10, 2, 15, 2, 17]

/-- The finalising of it, with the elements in the order of these views. -/
def twoFinalizing (elements : List Uint8Array) : OprfCall :=
  .finalizeOprf 0 elements ⟨8, 3, 9⟩ ⟨8, 2, 1⟩

/-- The answer arrives, and the product finalises. -/
theorem twoAnswered_run (elements : List Uint8Array) :
    byteCrate.oprf.Run ⟨twoReused.keep [2, 3] twoBlinded, []⟩
      [.world (.allocates [15, 17, 7, 7, 1, 8, 1, 10, 2, 15, 2, 17]),
        .start (twoFinalizing elements)]
      ⟨twoAnswered, [twoFinalizing elements]⟩ := by
  have harrives : byteCrate.oprf.step ⟨twoReused.keep [2, 3] twoBlinded, []⟩
      (.world (.allocates [15, 17, 7, 7, 1, 8, 1, 10, 2, 15, 2, 17])) ⟨twoAnswered, []⟩ :=
    ⟨@OprfMoves.allocates (twoReused.keep [2, 3] twoBlinded) _, rfl⟩
  have hbegins : byteCrate.oprf.step ⟨twoAnswered, []⟩ (.start (twoFinalizing elements))
      ⟨twoAnswered, [twoFinalizing elements]⟩ := ⟨trivial, rfl⟩
  exact .cons harrives (.single hbegins)

/-- What the finalising hands to the native side. -/
theorem twoFinalizing_hands (elements : List Uint8Array) :
    OprfNext byteCrate twoAnswered (twoFinalizing elements) twoAnswered
      (.inl (.finalizing [[1, 2], [4]] [[5, 8], [6, 10]] (elements.map twoAnswered.toArrayBuffer)
        twoProof [7])) :=
  @OprfNext.hands _ _ _ _ byteCrate twoAnswered 0 ⟨[2, 3], [6, 7]⟩ _ _ _ rfl

theorem twoFinalizing_finalizes : ∃ q,
    byteCrate.Finalizes ⟨twoAnswered, [twoFinalizing [⟨8, 0, 1⟩, ⟨8, 1, 1⟩]]⟩ 0 [[15], [17]]
      twoProof [7] q (.ok [[1, 2, 10], [4, 11]]) := by
  have hfinalizes : OprfNext byteCrate twoAnswered (.finalizing [[1, 2], [4]] [[5, 8], [6, 10]]
      [[15], [17]] twoProof [7]) _ _ :=
    @OprfNext.finalizes _ _ _ _ byteCrate twoAnswered _ _ _ [[1, 2, 10], [4, 11]] _ _ rfl
  have hhands := twoFinalizing_hands [⟨8, 0, 1⟩, ⟨8, 1, 1⟩]
  exact ⟨_, .native (byte_section hhands) (.nil _) (byte_section hfinalizes)⟩

theorem twoFinalizing_rejects : ∃ q,
    byteCrate.Finalizes ⟨twoAnswered, [twoFinalizing [⟨8, 1, 1⟩, ⟨8, 0, 1⟩]]⟩ 0 [[17], [15]]
      twoProof [7] q (.error (OprfError.kind .proofRejected)) := by
  have hrejects : OprfNext byteCrate twoAnswered (.finalizing [[1, 2], [4]] [[5, 8], [6, 10]]
      [[17], [15]] twoProof [7]) _ _ :=
    @OprfNext.rejects _ _ _ _ byteCrate twoAnswered _ _ _ _ _ .proofRejected rfl
  have hhands := twoFinalizing_hands [⟨8, 1, 1⟩, ⟨8, 0, 1⟩]
  exact ⟨_, .native (byte_section hhands) (.nil _) (byte_section hrejects)⟩

/-- The batch comes back as the server's own function of both inputs, as they were when they
were blinded; with its two elements swapped it does not come back. -/
theorem oprf_round_trip_twoInputs :
    (∃ q out, byteCrate.Finalizes ⟨twoAnswered, [twoFinalizing [⟨8, 0, 1⟩, ⟨8, 1, 1⟩]]⟩ 0
      [[15], [17]] twoProof [7] q out ∧ out = .ok [[1, 2, 10], [4, 11]]) ∧
    ∃ q out, byteCrate.Finalizes ⟨twoAnswered, [twoFinalizing [⟨8, 1, 1⟩, ⟨8, 0, 1⟩]]⟩ 0
      [[17], [15]] twoProof [7] q out ∧ ∃ e, out = .error e := by
  have hserve : byteCrate.serve (.ofAdd 1) (.ofAdd 7) [[8], [10]] =
      .ok ⟨[[15], [17]], twoProof⟩ := rfl
  have hround := (VoprfCrate.oprf_round_trip byteCrate_lawful).2.1
  constructor
  · obtain ⟨q, hfinalizes⟩ := twoFinalizing_finalizes
    obtain ⟨hhonest, -, -⟩ := hround _ _ _ _ _ _ _ _ _ _ _ _ twoInputs_blinds
      (twoAnswered_run _) hfinalizes
    obtain ⟨answer, hserve', hout⟩ := hhonest (.ofAdd 1) (.ofAdd 7)
    obtain rfl := Except.ok.inj (hserve.symm.trans hserve')
    exact ⟨q, _, hfinalizes, hout rfl rfl rfl⟩
  · obtain ⟨q, hfinalizes⟩ := twoFinalizing_rejects
    obtain ⟨-, -, hstrays⟩ := hround _ _ _ _ _ _ _ _ _ _ _ _ twoInputs_blinds
      (twoAnswered_run _) hfinalizes
    exact ⟨q, _, hfinalizes,
      hstrays _ _ _ _ hserve rfl (.reordered (List.Perm.swap _ _ _) (by decide))⟩

end MatrixCrypto
