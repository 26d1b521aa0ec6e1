import MatrixCrypto.Lib.Except
import MatrixCrypto.Lib.Voprf

/-!
# The client half of an oblivious function

`oprf.rs`: a batch of inputs is blinded, and the server's answer to it checked and
unblinded.  The `voprf` crate below it is a parameter.

## Main definitions

* `VoprfCrate` — what this module calls of the crate; `VoprfCrate.Lawful` says what it
  relies on.
* `VoprfCrate.blindWith`, `VoprfCrate.finalize` — the two calls.
* `VoprfCrate.serve` — an honest server's answer, as bytes.

## Main results

* `blindWith_eq_ok` — what a blinding holds, one entry for each input, in order.
* `finalize_eq` — a finalised blinding is the crate's own check of what the answer reads as.
* `finalize_serve` — **outputs come out exactly where the answer was made for this batch**, with
  the key named, and its elements are the ones answered.
* `finalize_ne_rejected` — an accepted batch with one element for each input is not refused for
  its size.
-/

namespace MatrixCrypto

open Lib

abbrev Bytes := List UInt8

/-- `u16::MAX`, the most that two bytes count. -/
def u16Max : ℕ := 65535

/-- The largest batch a proof can count. -/
def maxBatch : ℕ := u16Max

/-- The longest input, in bytes. -/
def maxInputBytes : ℕ := u16Max

/-- `is_a_batch`. -/
def isABatch (inputs : ℕ) : Bool := decide (1 ≤ inputs ∧ inputs ≤ maxBatch)

/-- What blinding accepts: a batch, of inputs that are not too long. -/
def WithinLimits (inputs : List Bytes) : Prop :=
  isABatch inputs.length = true ∧ ∀ input ∈ inputs, input.length ≤ maxInputBytes

/-! ### The crate -/

/-- `voprf::Error`. -/
inductive VoprfError
  | info
  | input
  | batch
  | deserialization
  | deriveKeyPair
  | protocol
  | proofVerification
  deriving DecidableEq, Repr

/-- How the crate writes a value as bytes, and reads it. -/
structure Codec (α : Type) where
  serialize : α → Bytes
  deserialize : Bytes → Except VoprfError α

/-- What is written is read back, and what does not read is told so. -/
structure Codec.Lawful {α : Type} (c : Codec α) : Prop where
  roundTrip : ∀ a, c.deserialize (c.serialize a) = .ok a
  unreadable : ∀ b e, c.deserialize b = .error e → e = .deserialization

/-- The crate, over a generator of randomness `R`. -/
structure VoprfCrate (R Scalar Element Proof : Type) where
  suite : Voprf Bytes Bytes Scalar Element Proof
  /-- `VoprfClient::blind`: the message for the server and the state to keep. -/
  blind : Bytes → R → Except VoprfError ((Element × Client Scalar Element) × R)
  /-- `VoprfClient::batch_finalize`. -/
  batchFinalize : List Bytes → List (Client Scalar Element) → List Element → Proof → Element →
    Except VoprfError (List (Except VoprfError Bytes))
  client : Codec (Client Scalar Element)
  blindedElement : Codec Element
  evaluationElement : Codec Element
  publicKey : Codec Element
  proof : Codec Proof

/-- One output of a batch whose proof verified: an input too long to be hashed has none. -/
def outputOf {Scalar Element Proof : Type} (V : Voprf Bytes Bytes Scalar Element Proof)
    (input : Bytes) (c : Client Scalar Element) (element : Element) : Except VoprfError Bytes :=
  if input.length ≤ u16Max then .ok (V.hash input (V.unblind c.blind element))
  else .error .input

/-- What the crate promises.  Of a batch with one state and one element for each input, it
refuses what two bytes do not count, and otherwise checks the proof against the elements the
states hold. -/
structure VoprfCrate.Lawful {R Scalar Element Proof : Type}
    (U : VoprfCrate R Scalar Element Proof) : Prop where
  blind : ∀ {input rng message state rng'}, U.blind input rng = .ok ((message, state), rng') →
    (∃ r, state = U.suite.client r input) ∧ message = state.blindedElement
  batchFinalize : ∀ {inputs clients elements proof pk}, clients.length = inputs.length →
    elements.length = inputs.length →
    U.batchFinalize inputs clients elements proof pk =
      if inputs.length = 0 ∨ u16Max < inputs.length then .error .batch
      else if U.suite.accepts pk clients elements proof = true then
        .ok ((inputs.zip (clients.zip elements)).map fun p => outputOf U.suite p.1 p.2.1 p.2.2)
      else .error .proofVerification
  client : U.client.Lawful
  blindedElement : U.blindedElement.Lawful
  evaluationElement : U.evaluationElement.Lawful
  publicKey : U.publicKey.Lawful
  proof : U.proof.Lawful

/-! ### The module -/

/-- `OprfError`. -/
inductive OprfError
  | rejected
  | malformedPayload
  | proofRejected
  deriving DecidableEq, Repr

/-- `from_upstream`. -/
def fromUpstream : VoprfError → OprfError
  | .input | .batch => .rejected
  | .deserialization => .malformedPayload
  | .proofVerification => .proofRejected
  | .info | .deriveKeyPair | .protocol => .rejected

/-- What does not read is a malformed payload. -/
theorem Codec.Lawful.malformed {α : Type} {c : Codec α} (h : c.Lawful) {b : Bytes} {e : OprfError}
    (hread : (c.deserialize b).mapError fromUpstream = .error e) : e = .malformedPayload := by
  obtain ⟨e', he', rfl⟩ := mapError_eq_error.mp hread
  rw [h.unreadable b e' he']
  rfl

theorem Codec.Lawful.malformed_all {α : Type} {c : Codec α} (h : c.Lawful) {bs : List Bytes}
    {e : OprfError} (hread : (bs.mapM c.deserialize).mapError fromUpstream = .error e) :
    e = .malformedPayload := by
  obtain ⟨e', he', rfl⟩ := mapError_eq_error.mp hread
  obtain ⟨b, -, hb⟩ := exists_error_of_mapM he'
  rw [h.unreadable b e' hb]
  rfl

/-- `OprfBlinding`. -/
structure OprfBlinding where
  blindedElements : List Bytes
  clientStates : List Bytes

namespace VoprfCrate

variable {R Scalar Element Proof : Type} (U : VoprfCrate R Scalar Element Proof)

/-- One turn of the loop of `blind_with`. -/
def blindNext (done : OprfBlinding × R) (input : Bytes) : Except OprfError (OprfBlinding × R) := do
  let ((message, state), rng) ← (U.blind input done.2).mapError fromUpstream
  pure (⟨done.1.blindedElements ++ [U.blindedElement.serialize message],
    done.1.clientStates ++ [U.client.serialize state]⟩, rng)

/-- `blind_with`. -/
def blindWith (rng : R) (inputs : List Bytes) : Except OprfError OprfBlinding :=
  if !isABatch inputs.length || inputs.any (fun input => decide (maxInputBytes < input.length)) then
    .error .rejected
  else (inputs.foldlM U.blindNext (⟨[], []⟩, rng)).map Prod.fst

/-- `finalize`. -/
def finalize (inputs clientStates evaluationElements : List Bytes) (proof publicKey : Bytes) :
    Except OprfError (List Bytes) :=
  if !isABatch inputs.length || clientStates.length != inputs.length ||
      evaluationElements.length != inputs.length then
    .error .rejected
  else do
    let clients ← (clientStates.mapM U.client.deserialize).mapError fromUpstream
    let messages ← (evaluationElements.mapM U.evaluationElement.deserialize).mapError fromUpstream
    let proof ← (U.proof.deserialize proof).mapError fromUpstream
    let publicKey ← (U.publicKey.deserialize publicKey).mapError fromUpstream
    let outputs ← (U.batchFinalize inputs clients messages proof publicKey).mapError fromUpstream
    outputs.mapM fun output => output.mapError fromUpstream

/-- The check of an answer, as it reads. -/
def check (inputs : List Bytes) (clients : List (Client Scalar Element)) (elements : List Bytes)
    (proof publicKey : Bytes) : Except OprfError (List Bytes) := do
  let messages ← (elements.mapM U.evaluationElement.deserialize).mapError fromUpstream
  let proof ← (U.proof.deserialize proof).mapError fromUpstream
  let publicKey ← (U.publicKey.deserialize publicKey).mapError fromUpstream
  okOr .proofRejected (U.suite.finalize publicKey inputs clients messages proof)

/-! ### The server -/

/-- What a server sends back: one element for each blinded one, and a proof. -/
structure Answer where
  elements : List Bytes
  proof : Bytes

/-- The server holding `k` reads a batch, evaluates it and proves it. -/
def serve (r k : Scalar) (blinded : List Bytes) : Except VoprfError Answer := do
  let elements ← blinded.mapM U.blindedElement.deserialize
  let answer := U.suite.answer r k elements
  pure ⟨answer.1.map U.evaluationElement.serialize, U.proof.serialize answer.2⟩

/-- The bytes are the public half of the key. -/
def IsPublicKeyOf (publicKey : Bytes) (k : Scalar) : Prop :=
  U.publicKey.deserialize publicKey = .ok (U.suite.publicKey k)

/-! ### What is blinded -/

variable {U}

/-- **A list outside the limits is refused**, before any blind is drawn. -/
theorem blindWith_of_not_withinLimits {rng : R} {inputs : List Bytes}
    (h : ¬ WithinLimits inputs) : U.blindWith rng inputs = .error .rejected := by
  unfold blindWith
  apply if_pos
  rw [Bool.or_eq_true, Bool.not_eq_true', List.any_eq_true]
  by_contra hnot
  rw [not_or, Bool.not_eq_false] at hnot
  refine h ⟨hnot.1, fun input hinput => ?_⟩
  by_contra hlong
  exact hnot.2 ⟨input, hinput, by simpa using hlong⟩

/-- One turn keeps a state for its input, and puts the element it hides in beside the others. -/
theorem blindNext_eq_ok (hU : U.Lawful) {done done' : OprfBlinding × R} {input : Bytes}
    (h : U.blindNext done input = .ok done') : ∃ c, (∃ r, c = U.suite.client r input) ∧
      done'.1.blindedElements =
        done.1.blindedElements ++ [U.blindedElement.serialize c.blindedElement] ∧
      done'.1.clientStates = done.1.clientStates ++ [U.client.serialize c] := by
  unfold blindNext at h
  obtain ⟨⟨⟨message, c⟩, rng⟩, hblind, h⟩ := bind_eq_ok.mp h
  rw [mapError_eq_ok] at hblind
  obtain ⟨hclient, rfl⟩ := hU.blind hblind
  rw [pure_eq_ok] at h
  subst h
  exact ⟨c, hclient, rfl, rfl⟩

/-- The loop keeps one state for each input, in order. -/
theorem foldlM_blindNext (hU : U.Lawful) {inputs : List Bytes} {done done' : OprfBlinding × R}
    (h : inputs.foldlM U.blindNext done = .ok done') : ∃ clients,
      U.suite.Hides inputs clients ∧
      done'.1.blindedElements = done.1.blindedElements ++
        clients.map (fun c => U.blindedElement.serialize c.blindedElement) ∧
      done'.1.clientStates = done.1.clientStates ++ clients.map U.client.serialize := by
  induction inputs generalizing done with
  | nil =>
    rw [List.foldlM_nil, pure_eq_ok] at h
    subst h
    exact ⟨[], .nil, by simp, by simp⟩
  | cons input inputs ih =>
    rw [List.foldlM_cons] at h
    obtain ⟨next, hnext, hrest⟩ := bind_eq_ok.mp h
    obtain ⟨c, hc, helements, hstates⟩ := blindNext_eq_ok hU hnext
    obtain ⟨clients, hclients, helements', hstates'⟩ := ih hrest
    refine ⟨c :: clients, .cons hc hclients, ?_, ?_⟩
    · rw [helements', helements, List.map_cons, List.append_assoc, List.singleton_append]
    · rw [hstates', hstates, List.map_cons, List.append_assoc, List.singleton_append]

/-- **What a blinding holds**: of a list within the limits, one state for each input, in order,
and the element each of them hides its input in. -/
theorem blindWith_eq_ok (hU : U.Lawful) {rng : R} {inputs : List Bytes} {blinding : OprfBlinding}
    (h : U.blindWith rng inputs = .ok blinding) : WithinLimits inputs ∧ ∃ clients,
      U.suite.Hides inputs clients ∧
      blinding.blindedElements =
        clients.map (fun c => U.blindedElement.serialize c.blindedElement) ∧
      blinding.clientStates = clients.map U.client.serialize := by
  have hlimits : WithinLimits inputs := by
    by_contra hnot
    rw [blindWith_of_not_withinLimits hnot] at h
    cases h
  unfold blindWith at h
  split at h
  · cases h
  · obtain ⟨done, hfold, rfl⟩ := map_eq_ok.mp h
    obtain ⟨clients, hclients, helements, hstates⟩ := foldlM_blindNext hU hfold
    exact ⟨hlimits, clients, hclients, helements, hstates⟩

/-! ### What is finalised -/

/-- Within the limits, every output of the crate comes out. -/
theorem mapM_outputOf {inputs : List Bytes} {clients : List (Client Scalar Element)}
    {elements : List Element} (hshort : ∀ input ∈ inputs, input.length ≤ maxInputBytes) :
    ((inputs.zip (clients.zip elements)).map fun p => outputOf U.suite p.1 p.2.1 p.2.2).mapM
      (fun output => output.mapError fromUpstream) =
        .ok (U.suite.outputs inputs clients elements) := by
  rw [mapM_eq_ok, Voprf.outputs, List.forall₂_map_left_iff, List.forall₂_map_right_iff,
    List.forall₂_same]
  intro p hp
  have hinput : p.1 ∈ inputs := (List.of_mem_zip hp).1
  have hlength : p.1.length ≤ u16Max := hshort p.1 hinput
  rw [outputOf, if_pos hlength, mapError_eq_ok]

/-- **A finalised blinding is the check of what the answer reads as**, if it has one element for
each input. -/
theorem finalize_eq (hU : U.Lawful) {inputs : List Bytes} {clients : List (Client Scalar Element)}
    {elements : List Bytes} {proof publicKey : Bytes} (hlimits : WithinLimits inputs)
    (hclients : U.suite.Hides inputs clients) :
    U.finalize inputs (clients.map U.client.serialize) elements proof publicKey =
      if elements.length ≠ inputs.length then .error .rejected
      else U.check inputs clients elements proof publicKey := by
  have hstates : (clients.map U.client.serialize).length = inputs.length := by
    rw [List.length_map, hclients.length_eq]
  have hread := mapM_map_of_roundTrip hU.client.roundTrip clients
  have hbatch : ¬ (inputs.length = 0 ∨ u16Max < inputs.length) := by
    have h := of_decide_eq_true hlimits.1
    unfold maxBatch at h
    omega
  unfold finalize check
  -- the lengths are looked at first: no shorter answer comes to upstream
  by_cases hlength : elements.length = inputs.length
  · have hmessages : ∀ messages, elements.mapM U.evaluationElement.deserialize = .ok messages →
        messages.length = inputs.length := by
      intro messages h
      rw [← (mapM_eq_ok.mp h).length_eq, hlength]
    rw [if_neg (by simp [hlimits.1, hstates, hlength]), if_neg (by simp [hlength]), hread]
    cases hm : elements.mapM U.evaluationElement.deserialize with
    | error e => rfl
    | ok messages =>
      cases hp : U.proof.deserialize proof with
      | error e => rfl
      | ok proof =>
        cases hk : U.publicKey.deserialize publicKey with
        | error e => rfl
        | ok publicKey =>
          show ((U.batchFinalize inputs clients messages proof publicKey).mapError fromUpstream >>=
              fun outputs => outputs.mapM fun output => output.mapError fromUpstream) =
            okOr .proofRejected (U.suite.finalize publicKey inputs clients messages proof)
          -- upstream's own size check passes what passed this one
          rw [hU.batchFinalize hclients.length_eq (hmessages messages hm),
            if_neg hbatch, Voprf.finalize]
          split
          · exact mapM_outputOf hlimits.2
          · rfl
  · rw [if_pos (by simp [hlength]), if_pos hlength]

/-- **An accepted batch is not refused for its size**, once every input has its element. -/
theorem finalize_ne_rejected (hU : U.Lawful) {inputs : List Bytes}
    {clients : List (Client Scalar Element)} {elements : List Bytes} {proof publicKey : Bytes}
    (hlimits : WithinLimits inputs) (hclients : U.suite.Hides inputs clients)
    (hlength : elements.length = inputs.length) :
    U.finalize inputs (clients.map U.client.serialize) elements proof publicKey ≠
      .error .rejected := by
  rw [finalize_eq hU hlimits hclients, if_neg (not_not.mpr hlength)]
  intro h
  have hmalformed : OprfError.rejected ≠ .malformedPayload := by decide
  rcases bind_eq_error.mp h with h | ⟨messages, -, h⟩
  · exact hmalformed (hU.evaluationElement.malformed_all h)
  · rcases bind_eq_error.mp h with h | ⟨proof, -, h⟩
    · exact hmalformed (hU.proof.malformed h)
    · rcases bind_eq_error.mp h with h | ⟨pk, -, h⟩
      · exact hmalformed (hU.publicKey.malformed h)
      · cases (okOr_eq_error.mp h).2

theorem check_eq_ok {inputs : List Bytes} {clients : List (Client Scalar Element)}
    {elements : List Bytes} {proof publicKey : Bytes} {ys : List Bytes} :
    U.check inputs clients elements proof publicKey = .ok ys ↔ ∃ messages π pk,
      elements.mapM U.evaluationElement.deserialize = .ok messages ∧
      U.proof.deserialize proof = .ok π ∧ U.publicKey.deserialize publicKey = .ok pk ∧
      U.suite.finalize pk inputs clients messages π = some ys := by
  unfold check
  simp only [bind_eq_ok, mapError_eq_ok, okOr_eq_ok]
  constructor
  · rintro ⟨messages, hmessages, π, hproof, pk, hpk, h⟩
    exact ⟨messages, π, pk, hmessages, hproof, hpk, h⟩
  · rintro ⟨messages, π, pk, hmessages, hproof, hpk, h⟩
    exact ⟨messages, hmessages, π, hproof, pk, hpk, h⟩

/-- What an honest answer holds. -/
theorem serve_eq_ok {r k : Scalar} {blinded : List Bytes} {answer : Answer}
    (h : U.serve r k blinded = .ok answer) : ∃ elements,
      blinded.mapM U.blindedElement.deserialize = .ok elements ∧
      answer = ⟨(U.suite.answer r k elements).1.map U.evaluationElement.serialize,
        U.proof.serialize (U.suite.answer r k elements).2⟩ := by
  obtain ⟨elements, helements, h⟩ := bind_eq_ok.mp h
  exact ⟨elements, helements, (pure_eq_ok.mp h).symm⟩

/-- **Outputs come out exactly where the answer was made for this batch**: the key named is the
one that answered, the elements it answered are the ones blinded, and the elements at hand read
as its own.  Then they are the keyed function of every input, in order. -/
theorem finalize_serve (hU : U.Lawful) {inputs : List Bytes}
    {clients : List (Client Scalar Element)} {elements blinded : List Bytes} {publicKey : Bytes}
    {r k : Scalar} {answer : Answer} {ys : List Bytes}
    (hlimits : WithinLimits inputs) (hclients : U.suite.Hides inputs clients)
    (hserve : U.serve r k blinded = .ok answer) :
    U.finalize inputs (clients.map U.client.serialize) elements answer.proof publicKey = .ok ys ↔
      (U.IsPublicKeyOf publicKey k ∧
        blinded.mapM U.blindedElement.deserialize = .ok (clients.map Client.blindedElement) ∧
        elements.map U.evaluationElement.deserialize =
          answer.elements.map U.evaluationElement.deserialize) ∧
      ys = inputs.map (U.suite.keyed k) := by
  obtain ⟨bs, hbs, rfl⟩ := serve_eq_ok hserve
  have hanswered := mapM_eq_ok_iff_map.mp
    (mapM_map_of_roundTrip hU.evaluationElement.roundTrip (U.suite.answer r k bs).1)
  rw [hanswered, ← mapM_eq_ok_iff_map, hbs, Except.ok.injEq, finalize_eq hU hlimits hclients]
  constructor
  · intro h
    split at h
    · cases h
    · obtain ⟨messages, π, pk, hmessages, hproof, hpk, h⟩ := check_eq_ok.mp h
      rw [hU.proof.roundTrip, Except.ok.injEq] at hproof
      subst hproof
      -- the proof holds of one key, one batch and one answer
      obtain ⟨⟨rfl, hclients', rfl⟩, hys⟩ := (Voprf.finalize_answer hclients).mp h
      exact ⟨⟨hpk, hclients'.symm, hmessages⟩, hys⟩
  · rintro ⟨⟨hpk, rfl, helements⟩, hys⟩
    have hlength : elements.length = inputs.length := by
      rw [(mapM_eq_ok.mp helements).length_eq, Voprf.answer, List.length_map, List.length_map,
        hclients.length_eq]
    rw [if_neg (not_not.mpr hlength), check_eq_ok]
    exact ⟨_, _, _, helements, hU.proof.roundTrip _, hpk,
      (Voprf.finalize_answer hclients).mpr ⟨⟨rfl, rfl, rfl⟩, hys⟩⟩

end VoprfCrate

end MatrixCrypto
