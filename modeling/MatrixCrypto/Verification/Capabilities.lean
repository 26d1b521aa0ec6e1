import MatrixCrypto.Lib.Transition
import MatrixCrypto.Verification.BeginOnce
import MatrixCrypto.Verification.Reasons

/-!
# What a product can do with codes

A product says whether it can show a code and whether it can read one.  The two answers
are kept in one word, read once for each flow that is opened or answered, and told to the
other side as the methods of the flow.

## Main definitions

* `CodeCapabilities`, `offerCodes`, `codeCapabilities` — the answers, and the word they are
  kept in.
* `announcedMethods` — what a flow announces of a word.
* `AnnouncingState`, `AnnouncingStep`, `announcing` — a process that is told its product's
  capabilities at any time, while it opens and answers flows.
* `Upstream.Shows` — a request on which the two lists were announced.
* `Between` — what a side of a flow comes by, and what it is told.

## Main results

* `announcing_fixed` — a flow under way keeps what was announced on it.
* `Upstream.Shows.isSome_generateQrCode` — what upstream builds a code for, over the two lists.
* `codes_between` — **who of two products draws a code, and who is told why not.**
-/

namespace MatrixCrypto

open Lib

/-! ### The word -/

/-- What a product can do with a scannable code. -/
structure CodeCapabilities where
  canShow : Bool
  canScan : Bool
  deriving DecidableEq, Repr

namespace CodeCapabilities

def showing : UInt8 := 0b01

def scanning : UInt8 := 0b10

def both : UInt8 := showing ||| scanning

/-- What a fresh process holds. -/
def neither : UInt8 := 0

end CodeCapabilities

open CodeCapabilities (showing both neither)

/-- `offer_codes`, as the word it stores. -/
def offerCodes (capabilities : CodeCapabilities) : UInt8 :=
  let bits := neither
  let bits := if capabilities.canShow then bits ||| showing else bits
  if capabilities.canScan then bits ||| CodeCapabilities.scanning else bits

/-- `code_capabilities`, of the word. -/
def codeCapabilities (word : UInt8) : CodeCapabilities where
  canShow := word &&& showing != 0
  canScan := word &&& CodeCapabilities.scanning != 0

def withoutCodes : List VerificationMethod := [.sasV1]

def showingOnly : List VerificationMethod := [.sasV1, .qrCodeShowV1, .reciprocateV1]

def scanningOnly : List VerificationMethod := [.sasV1, .qrCodeScanV1, .reciprocateV1]

def showingAndScanning : List VerificationMethod :=
  [.sasV1, .qrCodeShowV1, .qrCodeScanV1, .reciprocateV1]

/-- `announced_methods`, of the word. -/
def announcedMethods (word : UInt8) : List VerificationMethod :=
  if word = both then showingAndScanning
  else if word = showing then showingOnly
  else if word = CodeCapabilities.scanning then scanningOnly
  else withoutCodes

/-- What a flow announces of the capabilities. -/
def CodeCapabilities.methods (c : CodeCapabilities) : List VerificationMethod :=
  announcedMethods (offerCodes c)

/-- The word keeps the two answers apart. -/
theorem codeCapabilities_offerCodes (c : CodeCapabilities) :
    codeCapabilities (offerCodes c) = c := by
  obtain ⟨canShow, canScan⟩ := c
  cases canShow <;> cases canScan <;> rfl

namespace CodeCapabilities

variable (c : CodeCapabilities)

/-- **A product claims what it can do, and no more.** -/
theorem contains_methods :
    c.methods.contains .qrCodeShowV1 = c.canShow ∧ c.methods.contains .qrCodeScanV1 = c.canScan ∧
      c.methods.contains .reciprocateV1 = (c.canShow || c.canScan) := by
  obtain ⟨canShow, canScan⟩ := c
  cases canShow <;> cases canScan <;> decide

/-- The short strings are announced whatever the product can do with codes. -/
theorem sasV1_methods : c.methods.contains .sasV1 = true := by
  obtain ⟨canShow, canScan⟩ := c
  cases canShow <;> cases canScan <;> rfl

end CodeCapabilities

/-! ### The process -/

/-- What was announced on a flow by this side, with what the product had said when the call
that opened or answered it read the word, and by the other side. -/
structure AnnouncedFlow where
  ours : Option (CodeCapabilities × List VerificationMethod)
  theirs : Option (List VerificationMethod)
  deriving DecidableEq, Repr

/-- A call that has read the word and not yet handed the list to upstream. -/
structure AnnouncingCall where
  /-- The flow it answers; `none` where it opens one. -/
  answering : Option ℕ
  said : CodeCapabilities
  methods : List VerificationMethod
  deriving DecidableEq, Repr

/-- The word, and the flows. -/
structure AnnouncingState where
  word : UInt8
  /-- What the product said last. -/
  said : CodeCapabilities
  calls : List AnnouncingCall
  flows : List AnnouncedFlow
  deriving DecidableEq, Repr

namespace AnnouncingState

/-- A fresh process, whose product has said nothing. -/
def initial : AnnouncingState := ⟨neither, ⟨false, false⟩, [], []⟩

end AnnouncingState

inductive AnnouncingOp
  | offers (c : CodeCapabilities)
  /-- A call reads the word. -/
  | reads (answering : Option ℕ)
  /-- A call hands its list to upstream. -/
  | opens (i : ℕ)
  | answers (i : ℕ)
  /-- Upstream makes nothing of it. -/
  | refused (i : ℕ)
  /-- The other side opens a flow. -/
  | invited (theirs : List VerificationMethod)
  /-- It answers one of ours. -/
  | answered (flow : ℕ) (theirs : List VerificationMethod)

/-- One step. -/
inductive AnnouncingStep (s : AnnouncingState) : AnnouncingOp → AnnouncingState → Prop
  | offers (c : CodeCapabilities) :
      AnnouncingStep s (.offers c) { s with word := offerCodes c, said := c }
  | reads (answering : Option ℕ) :
      AnnouncingStep s (.reads answering)
        { s with calls := s.calls ++ [⟨answering, s.said, announcedMethods s.word⟩] }
  | opens {i : ℕ} {call : AnnouncingCall} (h : s.calls[i]? = some call)
      (hopens : call.answering = none) :
      AnnouncingStep s (.opens i)
        { s with
          calls := s.calls.eraseIdx i
          flows := s.flows ++ [⟨some (call.said, call.methods), none⟩] }
  | answers {i flow : ℕ} {call : AnnouncingCall} {theirs : List VerificationMethod}
      (h : s.calls[i]? = some call) (hanswers : call.answering = some flow)
      (hflow : s.flows[flow]? = some ⟨none, some theirs⟩) :
      AnnouncingStep s (.answers i)
        { s with
          calls := s.calls.eraseIdx i
          flows := s.flows.set flow ⟨some (call.said, call.methods), some theirs⟩ }
  | refused {i : ℕ} :
      AnnouncingStep s (.refused i) { s with calls := s.calls.eraseIdx i }
  | invited (theirs : List VerificationMethod) :
      AnnouncingStep s (.invited theirs) { s with flows := s.flows ++ [⟨none, some theirs⟩] }
  | answered {flow : ℕ} {ours : CodeCapabilities × List VerificationMethod}
      {theirs : List VerificationMethod} (hflow : s.flows[flow]? = some ⟨some ours, none⟩) :
      AnnouncingStep s (.answered flow theirs)
        { s with flows := s.flows.set flow ⟨some ours, some theirs⟩ }

/-- A product that changes its mind at any time, among its calls and the other sides'. -/
def announcing : TransitionSystem AnnouncingState AnnouncingOp where
  init := fun s => s = .initial
  step := AnnouncingStep

namespace AnnouncingState

/-- What was announced is what the product had said. -/
structure Sound (s : AnnouncingState) : Prop where
  word : s.word = offerCodes s.said
  calls : ∀ call ∈ s.calls, call.methods = call.said.methods
  flows : ∀ f ∈ s.flows, ∀ o ∈ f.ours, o.2 = o.1.methods

theorem sound_initial : Sound initial := by
  refine ⟨rfl, ?_, ?_⟩
  · intro call hcall
    cases hcall
  · intro f hf
    cases hf

variable {s t : AnnouncingState} {op : AnnouncingOp}

theorem Sound.step (hs : s.Sound) (hst : AnnouncingStep s op t) : t.Sound := by
  cases hst with
  | offers c => exact ⟨rfl, hs.calls, hs.flows⟩
  | reads answering =>
    refine ⟨hs.word, ?_, hs.flows⟩
    intro call hcall
    rcases List.mem_append.mp hcall with hcall | hcall
    · exact hs.calls call hcall
    · obtain rfl := List.mem_singleton.mp hcall
      show announcedMethods s.word = s.said.methods
      rw [hs.word]
      rfl
  | @opens i call h hopens =>
    refine ⟨hs.word, fun other hother => hs.calls other (List.mem_of_mem_eraseIdx hother), ?_⟩
    intro f hf
    rcases List.mem_append.mp hf with hf | hf
    · exact hs.flows f hf
    · obtain rfl := List.mem_singleton.mp hf
      intro o ho
      obtain rfl := Option.mem_some.mp ho
      exact hs.calls call (List.mem_of_getElem? h)
  | @answers i flow call theirs h hanswers hflow =>
    refine ⟨hs.word, fun other hother => hs.calls other (List.mem_of_mem_eraseIdx hother), ?_⟩
    intro f hf
    rcases List.mem_or_eq_of_mem_set hf with hf | rfl
    · exact hs.flows f hf
    · intro o ho
      obtain rfl := Option.mem_some.mp ho
      exact hs.calls call (List.mem_of_getElem? h)
  | refused =>
    exact ⟨hs.word, fun other hother => hs.calls other (List.mem_of_mem_eraseIdx hother),
      hs.flows⟩
  | invited theirs =>
    refine ⟨hs.word, hs.calls, ?_⟩
    intro f hf
    rcases List.mem_append.mp hf with hf | hf
    · exact hs.flows f hf
    · obtain rfl := List.mem_singleton.mp hf
      intro o ho
      cases ho
  | @answered flow ours theirs hflow =>
    refine ⟨hs.word, hs.calls, ?_⟩
    intro f hf
    rcases List.mem_or_eq_of_mem_set hf with hf | rfl
    · exact hs.flows f hf
    · intro o ho
      exact hs.flows ⟨some ours, none⟩ (List.mem_of_getElem? hflow) o ho

/-- **What was announced is what the product had said when it was read.** -/
theorem sound_of_reachable (h : announcing.Reachable s) : s.Sound := by
  apply h.invariant (I := Sound)
  · rintro _ rfl
    exact sound_initial
  · intro s op t hs hst
    exact hs.step hst

end AnnouncingState

/-! ### What is announced stays -/

/-- A flow on which both sides announced is under way. -/
def AnnouncedFlow.UnderWay (f : AnnouncedFlow) : Prop := f.ours.isSome ∧ f.theirs.isSome

/-- One step changes no flow that is under way. -/
theorem AnnouncingStep.fixed {s t : AnnouncingState} {op : AnnouncingOp}
    (h : AnnouncingStep s op t) {i : ℕ} {f : AnnouncedFlow} (hf : s.flows[i]? = some f)
    (hway : f.UnderWay) : t.flows[i]? = some f := by
  have happend : ∀ g, (s.flows ++ [g])[i]? = some f := by
    intro g
    obtain ⟨hlt, -⟩ := List.getElem?_eq_some_iff.mp hf
    rw [List.getElem?_append_left hlt]
    exact hf
  have hset : ∀ j g g', s.flows[j]? = some g → ¬ g.UnderWay →
      (s.flows.set j g')[i]? = some f := by
    intro j g g' hj hg
    have hne : j ≠ i := by
      rintro rfl
      rw [hf] at hj
      exact hg (Option.some.inj hj ▸ hway)
    rw [List.getElem?_set_ne hne]
    exact hf
  cases h with
  | offers c => exact hf
  | reads answering => exact hf
  | opens h hopens => exact happend _
  | answers h hanswers hflow =>
    apply hset _ _ _ hflow
    rintro ⟨hours, -⟩
    cases hours
  | refused => exact hf
  | invited theirs => exact happend _
  | answered hflow =>
    apply hset _ _ _ hflow
    rintro ⟨-, htheirs⟩
    cases htheirs

/-- **A flow under way keeps what was announced on it**, whatever the product says next. -/
theorem announcing_fixed {s t : AnnouncingState} {ops : List AnnouncingOp}
    (h : announcing.Run s ops t) {i : ℕ} {f : AnnouncedFlow} (hf : s.flows[i]? = some f)
    (hway : f.UnderWay) : t.flows[i]? = some f := by
  induction h with
  | nil => exact hf
  | snoc _ hstep ih => exact AnnouncingStep.fixed hstep ih hway

/-! ### Two products -/

namespace Upstream

/-- The request shows what was announced on it, or has moved on since, and then upstream keeps the
lists and the registry what they say of codes. -/
def Shows (u : Upstream) (r : VerificationRequest) (a : Announced)
    (remembered : Option CodeNegotiation) : Prop :=
  u.requestState r = .ready a.ours a.theirs ∨
    (∃ v, u.requestState r = .transitioned v) ∧ u.negotiated r = (a.ours, a.theirs) ∧
      remembered = some a.negotiation

variable {u : Upstream} {r : VerificationRequest} {a : Announced} {n : Option CodeNegotiation}

theorem Shows.methodsOf (h : u.Shows r a n) : u.methodsOf r = (a.ours, a.theirs) := by
  rcases h with hstate | ⟨⟨v, hstate⟩, hlists, -⟩
  · unfold Upstream.methodsOf
    rw [hstate]
  · unfold Upstream.methodsOf
    rw [hstate]
    exact hlists

theorem Shows.buildsCodes (h : u.Shows r a n) : u.buildsCodes r = true := by
  rcases h with hstate | ⟨⟨v, hstate⟩, -⟩ <;> rw [Upstream.buildsCodes, hstate]

/-- **What upstream builds a code for, over the two lists**: this side announced that it shows
one, the other that it scans one, and the identities and keys are there. -/
theorem Shows.isSome_generateQrCode (h : u.Shows r a n) (q : QrVerification) :
    (u.generateQrCode r q).isSome = (a.ours.contains .qrCodeShowV1 &&
      a.theirs.contains .qrCodeScanV1 && u.hasCodeKeys r) := by
  have hshows : u.showsCode r = (a.ours.contains .qrCodeShowV1 &&
      a.theirs.contains .qrCodeScanV1 && u.hasCodeKeys r) := by
    rw [showsCode, agreedOnCode, h.buildsCodes, h.methodsOf, Bool.true_and]
  rw [generateQrCode, ← hshows]
  cases u.showsCode r <;> rfl

end Upstream

/-- Where both halves are there, neither is what is missing. -/
theorem firstReason_of_agreed (unknown incomplete ours : Bool) :
    firstReason [(unknown, if ours = true then .machine .identityNotKnown
        else .peerIdentityNotKnown), (incomplete, .machine .privateKeysNotHeld)] ≠ .codeNotOffered ∧
      firstReason [(unknown, if ours = true then .machine .identityNotKnown
        else .peerIdentityNotKnown), (incomplete, .machine .privateKeysNotHeld)] ≠
        .peerCannotScan := by
  cases unknown <;> cases incomplete <;> cases ours <;> decide

/-- The reasons that the two lists give are told before every other. -/
theorem whyNoCode_of_shows {u : Upstream} {ids : Identities} {r : VerificationRequest}
    {a : Announced} {n : Option CodeNegotiation} {known : Bool} (h : u.Shows r a n)
    (hknown : ids.stored r.otherUser = .ok known) :
    (whyNoCode u ids r n = .codeNotOffered ↔ a.ours.contains .qrCodeShowV1 = false) ∧
      (whyNoCode u ids r n = .peerCannotScan ↔
        a.ours.contains .qrCodeShowV1 = true ∧ a.theirs.contains .qrCodeScanV1 = false) := by
  have heq : whyNoCode u ids r n = refusal u known ids.complete r a := by
    apply whyNoCode_eq_refusal hknown
    · intro ours theirs hready
      rcases h with hstate | ⟨⟨v, hstate⟩, -⟩
      · rw [hstate] at hready
        obtain ⟨rfl, rfl⟩ := VerificationRequestState.ready.inj hready
        rfl
      · rw [hstate] at hready
        cases hready
    · rintro ⟨v, hmoved⟩
      rcases h with hstate | ⟨-, -, hn⟩
      · rw [hstate] at hmoved
        cases hmoved
      · exact hn
  have hway : (u.requestState r).notUnderWay = false := by
    rcases h with hstate | ⟨⟨v, hstate⟩, -⟩ <;> rw [hstate] <;> rfl
  rw [heq, refusal, reasons, firstReason, hway]
  cases a.ours.contains .qrCodeShowV1 with
  | false => simp [firstReason]
  | true =>
    cases a.theirs.contains .qrCodeScanV1 with
    | false => simp [firstReason]
    | true =>
      obtain ⟨hoffered, hscan⟩ := firstReason_of_agreed (!known)
        (!(r.otherUser == u.userId) && !ids.complete) (r.otherUser == u.userId)
      constructor
      · exact iff_of_false hoffered (by simp)
      · exact iff_of_false hscan (by simp)

/-- What a side of a flow comes by and is told, whose product had said `c` where the other's had
said `c'`. -/
structure Between (c c' : CodeCapabilities) (a : Announced) : Prop where
  /-- `read_code` comes by a code exactly if its product could show one, the other's could read
  one, and the identities and keys are there. -/
  reads : ∀ (F : CodeFormat) (ids : Identities) (s : FlowState) (flowId : String)
    (r : VerificationRequest) (n : Option CodeNegotiation), s.upstream.Shows r a n →
      ((∃ t q, ReadNext F ids s (.building flowId r n) t (.inl (.drawing flowId q))) ↔
        c.canShow = true ∧ c'.canScan = true ∧ s.upstream.hasCodeKeys r = true)
  /-- Where it is given none it says whose half is missing, its own before the other's. -/
  explains : ∀ (F : CodeFormat) (ids : Identities) (s t : FlowState) (r : VerificationRequest)
    (n : Option CodeNegotiation) (known : Bool) (e : CodeError), s.upstream.Shows r a n →
      ids.stored r.otherUser = .ok known →
        ReadNext F ids s (.explaining r n) t (.inr (.error e)) →
          (e = .codeNotOffered ↔ c.canShow = false) ∧
            (e = .peerCannotScan ↔ c.canShow = true ∧ c'.canScan = false)
  /-- The short strings are there, whatever the products can do with codes. -/
  starts : ∀ (u : Upstream) (r : VerificationRequest) (k : Sas),
    u.requestState r = .ready a.ours a.theirs →
      ∃ v, u.startSas r k = some v ∧ (u.rivals k.otherUserId = [] → v.sasState k = .created)

/-- A side comes to what the two products had said as the lists were read. -/
theorem between_methods (c c' : CodeCapabilities) : Between c c' ⟨c.methods, c'.methods⟩ := by
  obtain ⟨hshow, -, -⟩ := c.contains_methods
  obtain ⟨-, hscan, -⟩ := c'.contains_methods
  constructor
  · intro F ids s flowId r n hshows
    have hsome := hshows.isSome_generateQrCode ⟨0, r.flowId, r.otherUser⟩
    rw [hshow, hscan] at hsome
    rw [← Bool.and_eq_true_iff, ← Bool.and_eq_true_iff, ← Bool.and_assoc, ← hsome]
    constructor
    · rintro ⟨t, q, h⟩
      cases h with
      | builds hflow h =>
        have hany := hshows.isSome_generateQrCode q
        rw [h, hshow, hscan] at hany
        rw [hsome, ← hany]
        rfl
    · intro h
      obtain ⟨u, hu⟩ := Option.isSome_iff_exists.mp h
      exact ⟨_, _, .builds ⟨rfl, rfl⟩ hu⟩
  · intro F ids s t r n known e hshows hknown h
    have hreasons := whyNoCode_of_shows hshows hknown
    rw [hshow, hscan] at hreasons
    cases h
    exact hreasons
  · intro u r k hready
    have hstarts := Upstream.startSas_of_ready k hready
    rw [if_pos c'.sasV1_methods] at hstarts
    refine ⟨_, hstarts, ?_⟩
    intro hrivals
    rw [Upstream.becomes_sasState, Upstream.insertSas_sasState, hrivals]
    rfl

/-- **Who of two products draws a code, and who is told why not.**  On a flow between two
processes `read_code` comes by a code on the side whose product could show one, where the other's
could read one, both as they stood when their side opened or answered the flow; a side that gets
none is told so by name, its own missing half before the other's; the short strings are
always there; and nothing either product says later changes any of it. -/
theorem codes_between {s s' : AnnouncingState} (h : announcing.Reachable s)
    (h' : announcing.Reachable s') {i i' : ℕ} {c c' : CodeCapabilities}
    {ours theirs : List VerificationMethod}
    (hf : s.flows[i]? = some ⟨some (c, ours), some theirs⟩)
    (hf' : s'.flows[i']? = some ⟨some (c', theirs), some ours⟩) :
    Between c c' ⟨ours, theirs⟩ ∧ Between c' c ⟨theirs, ours⟩ ∧
      (∀ ops t, announcing.Run s ops t →
        t.flows[i]? = some ⟨some (c, ours), some theirs⟩) ∧
      ∀ ops t, announcing.Run s' ops t →
        t.flows[i']? = some ⟨some (c', theirs), some ours⟩ := by
  obtain rfl : ours = c.methods :=
    (AnnouncingState.sound_of_reachable h).flows _ (List.mem_of_getElem? hf) _ rfl
  obtain rfl : theirs = c'.methods :=
    (AnnouncingState.sound_of_reachable h').flows _ (List.mem_of_getElem? hf') _ rfl
  refine ⟨between_methods c c', between_methods c' c, ?_, ?_⟩
  · intro ops t hrun
    exact announcing_fixed hrun hf ⟨rfl, rfl⟩
  · intro ops t hrun
    exact announcing_fixed hrun hf' ⟨rfl, rfl⟩

/-- A phone that shows and does not scan opens a flow; a desktop that does both answers it. -/
def phone : AnnouncingState :=
  ⟨showing, ⟨true, false⟩, [], [⟨some (⟨true, false⟩, showingOnly), some showingAndScanning⟩]⟩

def desktop : AnnouncingState :=
  ⟨both, ⟨true, true⟩, [], [⟨some (⟨true, true⟩, showingAndScanning), some showingOnly⟩]⟩

theorem phone_reachable : announcing.Reachable phone := by
  let call : AnnouncingCall := ⟨none, ⟨true, false⟩, showingOnly⟩
  let reading : AnnouncingState := ⟨showing, ⟨true, false⟩, [call], []⟩
  let opened : AnnouncingState := { reading with
    calls := []
    flows := [⟨some (⟨true, false⟩, showingOnly), none⟩] }
  have hoffers : announcing.Run .initial _ ⟨showing, ⟨true, false⟩, [], []⟩ :=
    .single (AnnouncingStep.offers ⟨true, false⟩)
  have hreads : announcing.Run .initial _ reading := hoffers.snoc (AnnouncingStep.reads none)
  have hcall : reading.calls[0]? = some call := rfl
  have hopens : announcing.Run .initial _ opened := hreads.snoc (AnnouncingStep.opens hcall rfl)
  have hflow : opened.flows[0]? = some ⟨some (⟨true, false⟩, showingOnly), none⟩ := rfl
  exact ⟨.initial, _, rfl, hopens.snoc (AnnouncingStep.answered hflow)⟩

theorem desktop_reachable : announcing.Reachable desktop := by
  let call : AnnouncingCall := ⟨some 0, ⟨true, true⟩, showingAndScanning⟩
  let reading : AnnouncingState := ⟨both, ⟨true, true⟩, [call], [⟨none, some showingOnly⟩]⟩
  have hoffers : announcing.Run .initial _ ⟨both, ⟨true, true⟩, [], []⟩ :=
    .single (AnnouncingStep.offers ⟨true, true⟩)
  have hinvited : announcing.Run .initial _ { reading with calls := [] } :=
    hoffers.snoc (AnnouncingStep.invited showingOnly)
  have hreads : announcing.Run .initial _ reading := hinvited.snoc (AnnouncingStep.reads (some 0))
  have hcall : reading.calls[0]? = some call := rfl
  have hflow : reading.flows[0]? = some ⟨none, some showingOnly⟩ := rfl
  exact ⟨.initial, _, rfl, hreads.snoc (AnnouncingStep.answers hcall rfl hflow)⟩

/-- A flow on which the two lists were announced, ready. -/
def announcedFlow (ours theirs : List VerificationMethod) : FlowState where
  flows := OrdMap.empty
  upstream := { readyUpstream with requestState := fun _ => .ready ours theirs }
  requests := .initial
  observed := false

/-- Every identity is stored. -/
def allKnown : Identities := ⟨fun _ => .ok true, true⟩

/-- The phone comes by a code.  The desktop does not, and is told that the phone cannot read
one. -/
theorem codes_between_phone_desktop :
    (∃ t q, ReadNext exampleFormat allKnown (announcedFlow showingOnly showingAndScanning)
        (.building "f1" bobsRequest none) t (.inl (.drawing "f1" q))) ∧
      (¬ ∃ t q, ReadNext exampleFormat allKnown (announcedFlow showingAndScanning showingOnly)
        (.building "f1" bobsRequest none) t (.inl (.drawing "f1" q))) ∧
      ∀ t e, ReadNext exampleFormat allKnown (announcedFlow showingAndScanning showingOnly)
        (.explaining bobsRequest none) t (.inr (.error e)) → e = .peerCannotScan := by
  have hdesktop : desktop.flows[0]? =
      some ⟨some (⟨true, true⟩, showingAndScanning), some showingOnly⟩ := rfl
  have hphone : phone.flows[0]? =
      some ⟨some (⟨true, false⟩, showingOnly), some showingAndScanning⟩ := rfl
  obtain ⟨hdraws, hasks, -⟩ := codes_between phone_reachable desktop_reachable hphone hdesktop
  refine ⟨?_, ?_, ?_⟩
  · exact (hdraws.reads _ _ _ _ _ _ (Or.inl rfl)).mpr ⟨rfl, rfl, rfl⟩
  · intro h
    obtain ⟨-, hscan, -⟩ := (hasks.reads _ _ _ _ _ _ (Or.inl rfl)).mp h
    cases hscan
  · intro t e h
    exact (hasks.explains _ _ _ _ _ _ true _ (Or.inl rfl) rfl h).2.mpr ⟨rfl, rfl⟩

end MatrixCrypto
