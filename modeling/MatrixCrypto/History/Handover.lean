import MatrixCrypto.History.Bundle
import MatrixCrypto.Lib.Transition
import Mathlib.Data.List.Perm.Subperm

/-!
# Handing a past over, whoever stores it

One device hands a room's past to another.  The product of the first keeps the secrets between
building and sharing, a repository stores the bundles and returns what it likes, announcements
arrive in any order and any number of times, and anybody else may announce anything.

## Main definitions

* `BuiltBundle`, `ImportedBundle` — a bundle that was built, and an import that was reported.
* `HistoryMachine.Answers` — what upstream promises of the announcements it recorded.
* `HandoverState`, `HandoverStep`, `handover` — the two devices.
* `HandoverState.Sound` — the invariant.

## Main results

* `imports_of_reachable` — **what is imported of a sharer is a bundle the sharer built.**
* `receiveHistoryBundle_of_shared` — **what the download of a shared bundle comes to.**
-/

namespace MatrixCrypto

open Lib Facade

/-- A bundle that was built, and what the product was handed. -/
structure BuiltBundle where
  scope : String
  bundle : RoomKeyBundle
  handed : HistoryBundle

/-- An import that was reported, with the download it was asked to import. -/
structure ImportedBundle where
  scope : String
  sender : String
  downloaded : List UInt8
  report : HistoryImport
  keys : List HistoricRoomKey

/-- The device that shares and the device that receives. -/
structure HandoverState (Info : Type) where
  built : List BuiltBundle
  announced : List (RoomKeyBundleContent Info)
  /-- What was recorded of a room and a sender, at the device that receives. -/
  offers : String → String → Option (BundleData Info)
  imports : List ImportedBundle

/-- Upstream answers with what was recorded, and imports of a bundle keys of the room that was
announced, each once. -/
structure HistoryMachine.Answers {Info : Type} (m : HistoryMachine Info)
    (offers : String → String → Option (BundleData Info)) : Prop where
  recorded : ∀ scope sender stored, m.getReceivedRoomKeyBundleData scope sender = .ok stored →
    stored = offers scope sender
  imports : ∀ data bundle keys, m.receiveRoomKeyBundle data bundle = .ok keys →
    keys.Subperm (bundle.roomKeys.filter fun k => k.roomId = data.bundleData.roomId)

namespace HandoverState

variable {Info : Type}

/-- Before anything happened. -/
def initial : HandoverState Info := ⟨[], [], fun _ _ => none, []⟩

/-- An announcement arrives: the last of a sender about a room is the one recorded. -/
def record (s : HandoverState Info) (sender : String) (data : BundleData Info) :
    HandoverState Info :=
  { s with
    offers := fun room user =>
      if room = data.bundleData.roomId ∧ user = sender then some data else s.offers room user }

end HandoverState

/-- What happens, with what upstream answers and what the repository returns. -/
inductive HandoverOp (Key Info : Type)
  | build (key : Key) (scope : String) (m : HistoryMachine Info)
  /-- The registry of the sharer holds what it may. -/
  | share (requests : RequestState) (scope user url secret : String)
      (machine : Option (HistoryMachine Info))
  | arrive (sender : String) (data : BundleData Info)
  | receive (scope sender : String) (downloaded : List UInt8) (m : HistoryMachine Info)

namespace HistoryCipher

variable {Key Digest Info : Type} (A : HistoryCipher Key Digest Info)
  (P : ScopeParsers) (sharer : String)

/-- One call that succeeds, or one announcement that arrives.  The sharer's product shares only
secrets it was handed, and what arrives from the sharer the sharer announced. -/
inductive HandoverStep (s : HandoverState Info) :
    HandoverOp Key Info → HandoverState Info → Prop
  | builds {key : Key} {scope : String} {m : HistoryMachine Info} {bundle : RoomKeyBundle}
      {handed : HistoryBundle} (hbundle : m.buildRoomKeyBundle scope = .ok bundle)
      (h : A.buildHistoryBundle P key scope (some m) = .ok handed) :
      HandoverStep s (.build key scope m) { s with built := s.built ++ [⟨scope, bundle, handed⟩] }
  | shares {requests : RequestState} {scope user url secret : String}
      {machine : Option (HistoryMachine Info)} {content : RoomKeyBundleContent Info}
      (hsecret : ∃ b ∈ s.built, b.handed.secret = secret)
      (h : (A.shareHistoryBundle P requests scope user url secret machine).1 = .ok content) :
      HandoverStep s (.share requests scope user url secret machine)
        { s with announced := s.announced ++ [content] }
  | arrives {sender : String} {data : BundleData Info}
      (h : sender = sharer → data.bundleData ∈ s.announced) :
      HandoverStep s (.arrive sender data) (s.record sender data)
  | receives {scope sender : String} {downloaded : List UInt8} {m : HistoryMachine Info}
      {report : HistoryImport} {keys : List HistoricRoomKey} (hm : m.Answers s.offers)
      (h : A.receiveHistoryBundle P scope sender downloaded (some m) = .ok (report, keys)) :
      HandoverStep s (.receive scope sender downloaded m)
        { s with imports := s.imports ++ [⟨scope, sender, downloaded, report, keys⟩] }

/-- The two devices, from nothing, in any order of their steps. -/
def handover : TransitionSystem (HandoverState Info) (HandoverOp Key Info) where
  init := fun s => s = .initial
  step := fun s op t => A.HandoverStep P sharer s op t

/-- The import is of one of the bundles: the sessions offered are the ones its product was told
of, and the keys are keys of the bundle for the room, each once — or the download collides. -/
def ImportOf (built : List BuiltBundle) (i : ImportedBundle) : Prop :=
  ∃ b ∈ built,
    i.report = ⟨b.handed.shared, i.keys.length % 2 ^ 32⟩ ∧
      i.keys.Subperm (b.bundle.roomKeys.filter fun k => k.roomId = i.scope) ∨
    A.Collide i.downloaded b.handed.ciphertext

/-- The file of the announcement is one of the bundles, as it was sealed. -/
def AnnouncementOf (built : List BuiltBundle) (c : RoomKeyBundleContent Info) : Prop :=
  ∃ b ∈ built, ∃ key, b.handed = A.sealBundle key b.bundle ∧
    c.file.info = A.finish (A.sealFile key (A.writeBundle b.bundle)).2

/-- What every reachable state keeps. -/
structure Sound (s : HandoverState Info) : Prop where
  built : ∀ b ∈ s.built, ∃ key, b.handed = A.sealBundle key b.bundle
  announced : ∀ c ∈ s.announced, A.AnnouncementOf s.built c
  offers : ∀ room data, s.offers room sharer = some data →
    data.bundleData ∈ s.announced ∧ data.bundleData.roomId = room
  imports : ∀ i ∈ s.imports, i.sender = sharer → A.ImportOf s.built i

variable {A P sharer} {s t : HandoverState Info} {op : HandoverOp Key Info}

theorem ImportOf.mono {built built' : List BuiltBundle} {i : ImportedBundle}
    (h : A.ImportOf built i) (hsub : built ⊆ built') : A.ImportOf built' i := by
  obtain ⟨b, hb, hi⟩ := h
  exact ⟨b, hsub hb, hi⟩

theorem AnnouncementOf.mono {built built' : List BuiltBundle} {c : RoomKeyBundleContent Info}
    (h : A.AnnouncementOf built c) (hsub : built ⊆ built') : A.AnnouncementOf built' c := by
  obtain ⟨b, hb, hc⟩ := h
  exact ⟨b, hsub hb, hc⟩

theorem sound_initial : A.Sound sharer .initial where
  built := by simp [HandoverState.initial]
  announced := by simp [HandoverState.initial]
  offers := by simp [HandoverState.initial]
  imports := by simp [HandoverState.initial]

theorem Sound.builds (hs : A.Sound sharer s) {b : BuiltBundle} {key : Key}
    (hb : b.handed = A.sealBundle key b.bundle) :
    A.Sound sharer { s with built := s.built ++ [b] } where
  built := by
    intro b' hb'
    rcases List.mem_append.mp hb' with hb' | hb'
    · exact hs.built b' hb'
    · rw [List.mem_singleton.mp hb']
      exact ⟨key, hb⟩
  announced := by
    intro c hc
    exact (hs.announced c hc).mono (List.subset_append_left _ _)
  offers := hs.offers
  imports := by
    intro i hi hsender
    exact (hs.imports i hi hsender).mono (List.subset_append_left _ _)

theorem Sound.shares (hs : A.Sound sharer s) {c : RoomKeyBundleContent Info}
    (hc : A.AnnouncementOf s.built c) :
    A.Sound sharer { s with announced := s.announced ++ [c] } where
  built := hs.built
  announced := by
    intro c' hc'
    rcases List.mem_append.mp hc' with hc' | hc'
    · exact hs.announced c' hc'
    · rw [List.mem_singleton.mp hc']
      exact hc
  offers := by
    intro room data hdata
    obtain ⟨hmem, hroom⟩ := hs.offers room data hdata
    exact ⟨List.mem_append_left _ hmem, hroom⟩
  imports := hs.imports

theorem Sound.arrives (hs : A.Sound sharer s) {sender : String} {data : BundleData Info}
    (h : sender = sharer → data.bundleData ∈ s.announced) :
    A.Sound sharer (s.record sender data) where
  built := hs.built
  announced := hs.announced
  offers := by
    intro room data' hdata
    simp only [HandoverState.record] at hdata
    split at hdata
    · next hsame =>
      cases hdata
      exact ⟨h hsame.2.symm, hsame.1.symm⟩
    · exact hs.offers room data' hdata
  imports := hs.imports

/-- What was announced of a secret that was handed out is the bundle it was handed out with. -/
theorem announcementOf_of_share (hA : A.LawfulHistory) (hs : A.Sound sharer s)
    {requests : RequestState} {scope user url secret : String}
    {machine : Option (HistoryMachine Info)} {content : RoomKeyBundleContent Info}
    (hsecret : ∃ b ∈ s.built, b.handed.secret = secret)
    (h : (A.shareHistoryBundle P requests scope user url secret machine).1 = .ok content) :
    A.AnnouncementOf s.built content := by
  obtain ⟨b, hb, rfl⟩ := hsecret
  obtain ⟨key, hhanded⟩ := hs.built b hb
  obtain ⟨-, hfile, -⟩ := fileOf_of_shareHistoryBundle h
  refine ⟨b, hb, key, hhanded, ?_⟩
  have hsecret : b.handed.secret =
      A.secretOf (A.finish (A.sealFile key (A.writeBundle b.bundle)).2) := by
    rw [hhanded]
    rfl
  rw [hsecret, hA.fileOf_secretOf] at hfile
  rw [← Except.ok.inj hfile]

/-- What was imported of the sharer is one of the bundles. -/
theorem importOf_of_receive (hA : A.LawfulHistory) (hs : A.Sound sharer s) {scope : String}
    {downloaded : List UInt8} {m : HistoryMachine Info} {report : HistoryImport}
    {keys : List HistoricRoomKey} (hm : m.Answers s.offers)
    (h : A.receiveHistoryBundle P scope sharer downloaded (some m) = .ok (report, keys)) :
    A.ImportOf s.built ⟨scope, sharer, downloaded, report, keys⟩ := by
  obtain ⟨m', data, bundle, hmachine, -, -, hdata, -, hopen, hkeys, rfl⟩ :=
    receiveHistoryBundle_eq_ok.mp h
  obtain rfl := Option.some.inj hmachine
  -- the offer is one of the sharer's announcements, and that one of its bundles
  obtain ⟨hmem, hroom⟩ := hs.offers scope data (hm.recorded _ _ _ hdata).symm
  obtain ⟨b, hb, key, hhanded, hinfo⟩ := hs.announced _ hmem
  have hsub := hm.imports data bundle keys hkeys
  refine ⟨b, hb, ?_⟩
  rw [hinfo] at hopen
  have hciphertext : b.handed.ciphertext = (A.sealFile key (A.writeBundle b.bundle)).1 := by
    rw [hhanded]
    rfl
  rcases hA.openBundle_cases key b.bundle downloaded with ⟨hok, -⟩ | ⟨herror, -⟩ | hcollide
  · rw [hok] at hopen
    obtain rfl := Except.ok.inj hopen
    refine Or.inl ⟨?_, ?_⟩
    · rw [hhanded]
      rfl
    · rw [hroom] at hsub
      exact hsub
  · rw [herror] at hopen
    cases hopen
  · rw [hciphertext]
    exact Or.inr hcollide

theorem Sound.receives (hs : A.Sound sharer s) {i : ImportedBundle}
    (hi : i.sender = sharer → A.ImportOf s.built i) :
    A.Sound sharer { s with imports := s.imports ++ [i] } where
  built := hs.built
  announced := hs.announced
  offers := hs.offers
  imports := by
    intro i' hi' hsender
    rcases List.mem_append.mp hi' with hi' | hi'
    · exact hs.imports i' hi' hsender
    · obtain rfl := List.mem_singleton.mp hi'
      exact hi hsender

theorem Sound.step (hA : A.LawfulHistory) (hs : A.Sound sharer s)
    (hst : A.HandoverStep P sharer s op t) : A.Sound sharer t := by
  cases hst with
  | builds hbundle h =>
    obtain ⟨m, bundle, hmachine, -, hbuilt, hhanded⟩ := buildHistoryBundle_eq_ok.mp h
    obtain rfl := Option.some.inj hmachine
    rw [hbundle] at hbuilt
    obtain rfl := Except.ok.inj hbuilt
    exact hs.builds hhanded
  | shares hsecret h => exact hs.shares (announcementOf_of_share hA hs hsecret h)
  | arrives h => exact hs.arrives h
  | receives hm h =>
    apply hs.receives
    rintro rfl
    exact importOf_of_receive hA hs hm h

/-- **What is imported of a sharer is a bundle the sharer built**, whatever the repository
returns, whatever anybody else announces and however the steps interleave: the device that
receives reports as many sessions as the sharer's product was told of, and imports keys of that
bundle for that room, each once.  Only a download that collides with a bundle can be more. -/
theorem imports_of_reachable (hA : A.LawfulHistory) (h : (A.handover P sharer).Reachable s) :
    ∀ i ∈ s.imports, i.sender = sharer → ∃ b ∈ s.built,
      i.report.offered = b.handed.shared ∧ i.report.imported = i.keys.length % 2 ^ 32 ∧
        (b.bundle.roomKeys.length < 2 ^ 32 → i.report.imported ≤ i.report.offered) ∧
        i.keys.Subperm (b.bundle.roomKeys.filter fun k => k.roomId = i.scope) ∨
      A.Collide i.downloaded b.handed.ciphertext := by
  have hs : A.Sound sharer s := by
    apply h.invariant (I := A.Sound sharer)
    · rintro _ rfl
      exact sound_initial
    · intro s op t hs hst
      exact hs.step hA hst
  intro i hi hsender
  obtain ⟨b, hb, ⟨hreport, hsub⟩ | hcollide⟩ := hs.imports i hi hsender
  · obtain ⟨key, hhanded⟩ := hs.built b hb
    refine ⟨b, hb, Or.inl ⟨by rw [hreport], by rw [hreport], fun hlt => ?_, hsub⟩⟩
    have hlength : i.keys.length ≤ b.bundle.roomKeys.length :=
      hsub.length_le.trans (List.length_filter_le _ _)
    rw [hreport, hhanded]
    show i.keys.length % 2 ^ 32 ≤ b.bundle.roomKeys.length % 2 ^ 32
    rw [Nat.mod_eq_of_lt hlt, Nat.mod_eq_of_lt (Nat.lt_of_le_of_lt hlength hlt)]
    exact hlength
  · exact ⟨b, hb, Or.inr hcollide⟩

/-- What a download comes to where a trusted sender offered it. -/
theorem receiveHistoryBundle_of_trusted {m : HistoryMachine Info} {scope sender : String}
    {downloaded : List UInt8} {data : BundleData Info} (hscope : P.isRoomId scope = true)
    (hsender : P.isUserId sender = true)
    (hdata : m.getReceivedRoomKeyBundleData scope sender = .ok (some data))
    (htrusted : data.senderData = .senderUnverified ∨ data.senderData = .senderVerified) :
    A.receiveHistoryBundle P scope sender downloaded (some m) =
      match A.openBundle data.bundleData.file.info downloaded with
      | .error e => .error e
      | .ok bundle =>
        match m.receiveRoomKeyBundle data bundle with
        | .error _ => .error .failed
        | .ok keys => .ok (⟨bundle.roomKeys.length % 2 ^ 32, keys.length % 2 ^ 32⟩, keys) := by
  have hnot : ¬(data.senderData ≠ .senderUnverified ∧ data.senderData ≠ .senderVerified) := by
    tauto
  unfold receiveHistoryBundle
  rw [hscope, hsender, if_neg (by simp), if_neg (by simp)]
  simp only [hdata]
  exact if_neg hnot

/-- **What the download of a shared bundle comes to.**  The device that receives names the place
the product was told; what was uploaded is imported whole, as many sessions offered as the
sharer's product was told of, unless its own store fails; what has another digest is unreadable;
and of a sender that is not trusted nothing is imported, whatever was downloaded. -/
theorem receiveHistoryBundle_of_shared (hA : A.LawfulHistory) {key : Key}
    {scope user sender url : String} {builder m : HistoryMachine Info} {bundle : RoomKeyBundle}
    {handed : HistoryBundle} {requests : RequestState} {machine : Option (HistoryMachine Info)}
    {data : BundleData Info} (hbundle : builder.buildRoomKeyBundle scope = .ok bundle)
    (hbuild : A.buildHistoryBundle P key scope (some builder) = .ok handed)
    (hshare : (A.shareHistoryBundle P requests scope user url handed.secret machine).1 =
      .ok data.bundleData)
    (hsender : P.isUserId sender = true)
    (hdata : m.getReceivedRoomKeyBundleData scope sender = .ok (some data)) :
    offeredHistoryBundle P scope sender (some m) = .ok (some ⟨url⟩) ∧
      (data.senderData = .senderUnverified ∨ data.senderData = .senderVerified →
        (∀ keys, m.receiveRoomKeyBundle data bundle = .ok keys →
          A.receiveHistoryBundle P scope sender handed.ciphertext (some m) =
            .ok (⟨handed.shared, keys.length % 2 ^ 32⟩, keys)) ∧
        (m.receiveRoomKeyBundle data bundle = .error () →
          A.receiveHistoryBundle P scope sender handed.ciphertext (some m) = .error .failed) ∧
        ∀ downloaded, A.digest downloaded ≠ A.digest handed.ciphertext →
          A.receiveHistoryBundle P scope sender downloaded (some m) =
            .error .bundleUnreadable) ∧
      (data.senderData ≠ .senderUnverified → data.senderData ≠ .senderVerified →
        ∀ downloaded, A.receiveHistoryBundle P scope sender downloaded (some m) =
          .error .senderNotTrusted) := by
  obtain ⟨builder', bundle', hbuilder, hscope, hbundle', rfl⟩ :=
    buildHistoryBundle_eq_ok.mp hbuild
  obtain rfl := Option.some.inj hbuilder
  rw [hbundle] at hbundle'
  obtain rfl := Except.ok.inj hbundle'
  let sealed := A.sealFile key (A.writeBundle bundle)
  have hciphertext : (A.sealBundle key bundle).ciphertext = sealed.1 := rfl
  have hfile : data.bundleData.file = ⟨url, A.finish sealed.2⟩ := by
    obtain ⟨-, hfile, -⟩ := fileOf_of_shareHistoryBundle hshare
    have hsecret : (A.sealBundle key bundle).secret = A.secretOf (A.finish sealed.2) := rfl
    rw [hsecret, hA.fileOf_secretOf] at hfile
    exact (Except.ok.inj hfile).symm
  refine ⟨?_, ?_, ?_⟩
  · unfold offeredHistoryBundle
    simp [hscope, hsender, hdata, hfile]
  · intro htrusted
    have hopens : A.openBundle data.bundleData.file.info sealed.1 = .ok bundle := by
      rw [hfile]
      unfold openBundle
      simp [hA.decryptor_finish, sealed, hA.opens, hA.readBundle_writeBundle]
    refine ⟨?_, ?_, ?_⟩
    · intro keys hkeys
      rw [receiveHistoryBundle_of_trusted hscope hsender hdata htrusted, hciphertext, hopens]
      simp only [hkeys]
      rfl
    · intro herror
      rw [receiveHistoryBundle_of_trusted hscope hsender hdata htrusted, hciphertext, hopens]
      simp only [herror]
    · intro downloaded hdigest
      have hunreadable : A.openBundle data.bundleData.file.info downloaded =
          .error .bundleUnreadable := by
        rw [hfile]
        rw [hciphertext] at hdigest
        rcases hA.openBundle_cases key bundle downloaded with ⟨-, rfl⟩ | ⟨herror, -⟩ | hcollide
        · exact absurd rfl hdigest
        · exact herror
        · exact absurd hcollide.2 hdigest
      rw [receiveHistoryBundle_of_trusted hscope hsender hdata htrusted, hunreadable]
  · intro hunverified hverified downloaded
    unfold receiveHistoryBundle
    simp [hscope, hsender, hdata, hunverified, hverified]

/-! ### One handover -/

namespace Example

/-- Every identifier parses. -/
def parsers : ScopeParsers := ⟨fun _ => true, fun _ => true⟩

def bundle : RoomKeyBundle := ⟨[⟨"!r", "s1", "k1"⟩, ⟨"!other", "s2", "k2"⟩], ["s3"]⟩

/-- The device of the sharer. -/
def builder : HistoryMachine (Description String String) where
  buildRoomKeyBundle := fun _ => .ok bundle
  ownIdentity := .ok none
  isVerified := fun _ => false
  shareRoomKeyBundleData := fun _ _ _ => .ok []
  getReceivedRoomKeyBundleData := fun _ _ => .ok none
  receiveRoomKeyBundle := fun _ _ => .ok []

def handed : HistoryBundle := verbatim.sealBundle "key" bundle

/-- The announcement, as it is recorded. -/
def data : BundleData (Description String String) where
  bundleData := ⟨"!r", ⟨"mxc://h/1",
    (verbatim.sealFile "key" (verbatim.writeBundle bundle)).2⟩⟩
  senderData := .senderVerified

/-- The device that receives. -/
def receiver : HistoryMachine (Description String String) where
  buildRoomKeyBundle := fun _ => .error ()
  ownIdentity := .ok none
  isVerified := fun _ => false
  shareRoomKeyBundleData := fun _ _ _ => .ok []
  getReceivedRoomKeyBundleData := fun scope sender =>
    .ok (if scope = "!r" ∧ sender = "@a" then some data else none)
  receiveRoomKeyBundle := fun data bundle =>
    .ok (bundle.roomKeys.filter fun k => k.roomId = data.bundleData.roomId)

theorem built : verbatim.buildHistoryBundle parsers "key" "!r" (some builder) = .ok handed := rfl

theorem shared : (verbatim.shareHistoryBundle parsers .initial "!r" "@b" "mxc://h/1"
    handed.secret (some builder)).1 = .ok data.bundleData := by
  have hfile := verbatim_lawful.fileOf_secretOf "mxc://h/1"
    (verbatim.sealFile "key" (verbatim.writeBundle bundle)).2
  have hvalid : verbatim.isMxcUri "mxc://h/1" = true := by decide
  have hsecret : handed.secret =
      verbatim.secretOf (verbatim.sealFile "key" (verbatim.writeBundle bundle)).2 := rfl
  unfold shareHistoryBundle
  rw [hsecret, hfile, hvalid]
  rfl

theorem recorded : receiver.getReceivedRoomKeyBundleData "!r" "@a" = .ok (some data) := by
  simp [receiver]

theorem keys_of_receiver :
    receiver.receiveRoomKeyBundle data bundle = .ok [⟨"!r", "s1", "k1"⟩] := by
  simp [receiver, bundle, data]

theorem received : verbatim.receiveHistoryBundle parsers "!r" "@a" handed.ciphertext
    (some receiver) = .ok (⟨2, 1⟩, [⟨"!r", "s1", "k1"⟩]) := by
  apply receiveHistoryBundle_eq_ok.mpr
  refine ⟨receiver, data, bundle, rfl, rfl, rfl, recorded, Or.inr rfl, ?_, keys_of_receiver, rfl⟩
  have hfile : verbatim.openFile data.bundleData.file.info handed.ciphertext =
      some (verbatim.writeBundle bundle) := verbatim_lawful.opens "key" _
  have hdescription : verbatim.decryptor data.bundleData.file.info =
      some data.bundleData.file.info := rfl
  unfold openBundle
  rw [hdescription, okOr_some, ok_bind, hfile, okOr_some, ok_bind,
    verbatim_lawful.readBundle_writeBundle, okOr_some]

/-- The state a handover ends in. -/
def imported : HandoverState (Description String String) where
  built := [⟨"!r", bundle, handed⟩]
  announced := [data.bundleData]
  offers := ((HandoverState.initial : HandoverState _).record "@a" data).offers
  imports := [⟨"!r", "@a", handed.ciphertext, ⟨2, 1⟩, [⟨"!r", "s1", "k1"⟩]⟩]

theorem imported_reachable : (verbatim.handover parsers "@a").Reachable imported := by
  let built' : HandoverState (Description String String) :=
    ⟨[⟨"!r", bundle, handed⟩], [], fun _ _ => none, []⟩
  let shared' : HandoverState (Description String String) :=
    { built' with announced := [data.bundleData] }
  have hbuilds : verbatim.HandoverStep parsers "@a" .initial (.build "key" "!r" builder) built' :=
    .builds rfl built
  have hshares : verbatim.HandoverStep parsers "@a" built'
      (.share .initial "!r" "@b" "mxc://h/1" handed.secret (some builder)) shared' :=
    .shares ⟨_, List.mem_cons_self, rfl⟩ shared
  have harrives : verbatim.HandoverStep parsers "@a" shared' (.arrive "@a" data)
      (shared'.record "@a" data) := .arrives fun _ => List.mem_cons_self
  have hanswers : receiver.Answers (shared'.record "@a" data).offers := by
    constructor
    · intro scope sender stored hstored
      cases hstored
      rfl
    · intro data bundle keys hkeys
      cases hkeys
      exact List.Subperm.refl _
  have hreceives : verbatim.HandoverStep parsers "@a" (shared'.record "@a" data)
      (.receive "!r" "@a" handed.ciphertext receiver) imported := .receives hanswers received
  exact ⟨.initial, _, rfl,
    (((TransitionSystem.Run.single hbuilds).snoc hshares).snoc harrives).snoc hreceives⟩

end Example

open Example in
theorem receiveHistoryBundle_of_shared_example :
    verbatim.receiveHistoryBundle parsers "!r" "@a" handed.ciphertext (some receiver) =
      .ok (⟨2, 1⟩, [⟨"!r", "s1", "k1"⟩]) := by
  have hbundle : builder.buildRoomKeyBundle "!r" = .ok bundle := rfl
  obtain ⟨-, htrusted, -⟩ :=
    receiveHistoryBundle_of_shared (m := receiver) verbatim_lawful hbundle built shared rfl recorded
  exact (htrusted (Or.inr rfl)).1 _ keys_of_receiver

open Example in
theorem imports_of_reachable_example :
    let i : ImportedBundle := ⟨"!r", "@a", handed.ciphertext, ⟨2, 1⟩, [⟨"!r", "s1", "k1"⟩]⟩
    ∃ b ∈ imported.built, i.report.offered = b.handed.shared ∧
        i.report.imported = i.keys.length % 2 ^ 32 ∧
        (b.bundle.roomKeys.length < 2 ^ 32 → i.report.imported ≤ i.report.offered) ∧
        i.keys.Subperm (b.bundle.roomKeys.filter fun k => k.roomId = i.scope) ∨
      verbatim.Collide i.downloaded b.handed.ciphertext := by
  intro i
  have hi : i ∈ imported.imports := List.mem_singleton_self i
  exact imports_of_reachable verbatim_lawful imported_reachable i hi rfl

end HistoryCipher
end MatrixCrypto
