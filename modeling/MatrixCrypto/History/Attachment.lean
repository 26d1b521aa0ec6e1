import MatrixCrypto.Facade.Errors
import MatrixCrypto.Lib.Except
import MatrixCrypto.Lib.JsonPrint
import MatrixCrypto.Lib.Sealed

/-!
# Attachments

The library seals a file and hands its description out as an opaque text; the product uploads
the one and keeps the other.  What is handed back is a text somebody kept and bytes that some
repository returned, so neither needs to be what was handed out.

## Main definitions

* `MediaCipher` — upstream's attachment encryption, and how a description is written and read.
* `MediaCipher.Lawful` — what upstream says of it.
* `encryptAttachment`, `decryptAttachment` — the calls.

## Main results

* `describedBy_finish` — the secret that was handed out describes the file.
* `decryptAttachment_encryptAttachment` — **what a download comes to, whatever was downloaded.**
-/

namespace MatrixCrypto

open Lib Facade

/-- Upstream's attachment encryption: what `AttachmentEncryptor` and `AttachmentDecryptor` make of
the bytes they are given, `MediaEncryptionInfo` as serde writes and reads it, and what
`AttachmentDecryptor::new` takes out of one. -/
structure MediaCipher (Key Digest Info : Type) extends FileSeal Key Digest where
  /-- The numbers of a text that can be read. -/
  fits : Int → Int → Bool
  numerals : Json.Numerals fits
  /-- `AttachmentEncryptor::finish`. -/
  finish : Description Key Digest → Info
  writeInfo : Info → List (String × Json)
  readInfo : Json → Option Info
  /-- `AttachmentDecryptor::new`, which refuses a version it does not know, a missing hash and
  what is no base64. -/
  decryptor : Info → Option (Description Key Digest)

/-- An attachment, encrypted and ready to upload. -/
structure SealedAttachment where
  ciphertext : List UInt8
  secret : String
  deriving DecidableEq, Repr

namespace MediaCipher

variable {Key Digest Info : Type} (A : MediaCipher Key Digest Info)

/-- What was encrypted decrypts, and the check of the digest is all that can fail; what serde wrote
it reads; and a decryptor takes what an encryptor finished with. -/
structure Lawful : Prop extends seals : A.toFileSeal.Lawful where
  written : ∀ info, Json.Written A.numerals (.obj (A.writeInfo info))
  shallow : ∀ info, Json.nesting (.obj (A.writeInfo info)) < Json.depthLimit
  readInfo_writeInfo : ∀ info, A.readInfo (.obj (A.writeInfo info)) = some info
  decryptor_finish : ∀ d, A.decryptor (A.finish d) = some d

/-- The text of a description. -/
def secretOf (info : Info) : String := Json.printText A.numerals (.obj (A.writeInfo info))

/-- `encrypt_attachment`, with the key that was drawn. -/
def encryptAttachment (key : Key) (plaintext : List UInt8) : SealedAttachment :=
  let (ciphertext, description) := A.sealFile key plaintext
  ⟨ciphertext, A.secretOf (A.finish description)⟩

/-- What a secret says of the file it is for. -/
def describedBy (secret : String) : Option (Description Key Digest) := do
  let v ← Json.readText A.fits secret
  let info ← A.readInfo v
  A.decryptor info

/-- `decrypt_attachment`. -/
def decryptAttachment (ciphertext : List UInt8) (secret : String) :
    Except AttachmentFfiError (List UInt8) := do
  let v ← okOr .malformedSecret (Json.readText A.fits secret)
  let info ← okOr .malformedSecret (A.readInfo v)
  let description ← okOr .malformedSecret (A.decryptor info)
  okOr .notWhatWasAnnounced (A.openFile description ciphertext)

variable {A}

/-- A secret describes a file or is malformed, whatever the file. -/
theorem decryptAttachment_eq (ciphertext : List UInt8) (secret : String) :
    A.decryptAttachment ciphertext secret =
      match A.describedBy secret with
      | none => .error .malformedSecret
      | some d => okOr .notWhatWasAnnounced (A.openFile d ciphertext) := by
  unfold decryptAttachment describedBy
  cases hv : Json.readText A.fits secret with
  | none => rfl
  | some v =>
    cases hinfo : A.readInfo v with
    | none => simp [hinfo]
    | some info =>
      cases hd : A.decryptor info <;> simp [hinfo, hd]

theorem Lawful.readText_secretOf (hA : A.Lawful) (info : Info) :
    Json.readText A.fits (A.secretOf info) = some (.obj (A.writeInfo info)) :=
  Json.readText_printText (hA.written info) (hA.shallow info)

/-- The secret that was handed out describes the file. -/
theorem Lawful.describedBy_finish (hA : A.Lawful) (d : Description Key Digest) :
    A.describedBy (A.secretOf (A.finish d)) = some d := by
  unfold describedBy
  rw [hA.readText_secretOf]
  simp [hA.readInfo_writeInfo, hA.decryptor_finish]

/-- **What a download comes to, whatever was downloaded.**  With the secret that was handed out
it is the attachment, or it is refused as not what was announced, and that exactly when the
digests differ; anything else that it opens as collides with what was uploaded.  And a secret
is malformed for every download or for none. -/
theorem decryptAttachment_encryptAttachment (hA : A.Lawful) (key : Key)
    (plaintext downloaded : List UInt8) (secret : String) :
    let uploaded := A.encryptAttachment key plaintext
    A.decryptAttachment uploaded.ciphertext uploaded.secret = .ok plaintext ∧
      (A.decryptAttachment downloaded uploaded.secret = .error .notWhatWasAnnounced ↔
        A.digest downloaded ≠ A.digest uploaded.ciphertext) ∧
      (∀ e, A.decryptAttachment downloaded uploaded.secret = .error e →
        e = .notWhatWasAnnounced) ∧
      (∀ out, A.decryptAttachment downloaded uploaded.secret = .ok out → out ≠ plaintext →
        A.Collide downloaded uploaded.ciphertext) ∧
      (A.decryptAttachment downloaded secret = .error .malformedSecret ↔
        ∀ other, A.decryptAttachment other secret = .error .malformedSecret) := by
  intro uploaded
  let sealed := A.sealFile key plaintext
  have hdescribed : A.describedBy uploaded.secret = some sealed.2 :=
    hA.describedBy_finish sealed.2
  have hdownload : ∀ bytes, A.decryptAttachment bytes uploaded.secret =
      okOr .notWhatWasAnnounced (A.openFile sealed.2 bytes) := by
    intro bytes
    rw [decryptAttachment_eq, hdescribed]
  refine ⟨?_, ?_, ?_, ?_, ?_⟩
  · rw [hdownload, okOr_eq_ok]
    exact hA.opens key plaintext
  · rw [hdownload, okOr_eq_error, hA.openFile_eq_none]
    simp only [and_true]
    exact Iff.rfl
  · intro e he
    rw [hdownload, okOr_eq_error] at he
    exact he.2.symm
  · intro out hout hne
    rw [hdownload, okOr_eq_ok] at hout
    have hcases := hA.eq_or_collide_of_openFile hout
    exact hcases.resolve_left fun h => hne h.1
  · -- the description is read before the bytes are looked at
    simp only [decryptAttachment_eq]
    cases A.describedBy secret with
    | none => simp
    | some d => simp

/-- A seal whose digest is the file itself. -/
def verbatimSeal : FileSeal String String :=
  streamSeal (fun key n => UInt8.ofNat (key.length + n)) fun bytes =>
    String.ofList (bytes.map fun b => Char.ofNat b.toNat)

/-- The cipher that seals so, with the description written as `v2` of Matrix's encryption is. -/
def verbatim : MediaCipher String String (Description String String) where
  toFileSeal := verbatimSeal
  fits := fun _ _ => true
  numerals := Json.integers fun _ _ => true
  finish := id
  writeInfo := fun d =>
    [("v", .str "v2"), ("key", .obj [("k", .str d.key)]),
      ("hashes", .obj [("sha256", .str d.digest)])]
  readInfo := fun v => do
    let key ← ((v.field? "key").bind fun w => w.field? "k").bind Json.asStr?
    let digest ← ((v.field? "hashes").bind fun w => w.field? "sha256").bind Json.asStr?
    some ⟨key, digest⟩
  decryptor := some

theorem verbatim_lawful : verbatim.Lawful where
  seals := (streamSeal_lawful _ _ : verbatimSeal.Lawful)
  written := by
    intro d
    apply Json.Written.obj
    intro f hf
    simp only [verbatim, List.mem_cons, List.not_mem_nil, or_false] at hf
    rcases hf with rfl | rfl | rfl
    · exact .str _
    · refine .obj fun f hf => ?_
      rw [List.mem_singleton.mp hf]
      exact .str _
    · refine .obj fun f hf => ?_
      rw [List.mem_singleton.mp hf]
      exact .str _
  shallow := by
    intro d
    show 2 < 128
    decide
  readInfo_writeInfo := by
    intro d
    rfl
  decryptor_finish := by
    intro d
    rfl

theorem decryptAttachment_encryptAttachment_verbatim :
    let uploaded := verbatim.encryptAttachment "key" [1, 2, 3]
    verbatim.decryptAttachment uploaded.ciphertext uploaded.secret = .ok [1, 2, 3] :=
  (decryptAttachment_encryptAttachment verbatim_lawful "key" [1, 2, 3] [] "").1

end MediaCipher
end MatrixCrypto
