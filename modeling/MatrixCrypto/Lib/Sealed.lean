import Mathlib.Data.List.Basic

/-!
# Files sealed under a key

A file is sealed under a key, and is described by what opens it, the digest of the sealed bytes
among it.  How that is done is a parameter, with its laws: what was sealed opens as it was, and
what has not the digest of its description does not open.  A file that opens and is not the one
that was sealed is then a collision of the digest.

## Main definitions

* `Description` — what opens a file.
* `FileSeal`, `FileSeal.Lawful` — sealing, opening and the digest, and their laws.
* `FileSeal.Collide` — two files with one digest.
* `addStream`, `streamSeal` — the seal that adds a keystream to the bytes.

## Main results

* `eq_or_collide_of_openFile` — **what opens is what was sealed, or collides with it.**
* `streamSeal_lawful` — adding a keystream is a seal.
-/

namespace MatrixCrypto
namespace Lib

universe u v

/-- What opens a file. -/
structure Description (Key : Type u) (Digest : Type v) where
  key : Key
  digest : Digest
  deriving DecidableEq, Repr

/-- Sealing under a key, opening with a description, and the digest of a file. -/
structure FileSeal (Key : Type u) (Digest : Type v) where
  /-- The sealed file, with its description. -/
  sealFile : Key → List UInt8 → List UInt8 × Description Key Digest
  openFile : Description Key Digest → List UInt8 → Option (List UInt8)
  digest : List UInt8 → Digest

namespace FileSeal

variable {Key : Type u} {Digest : Type v} (S : FileSeal Key Digest)

/-- Two files with one digest. -/
def Collide (bytes bytes' : List UInt8) : Prop := bytes ≠ bytes' ∧ S.digest bytes = S.digest bytes'

/-- A sealed file opens as it was, its description has its digest, and what fails to open is what
has another digest than its description. -/
structure Lawful : Prop where
  opens : ∀ key plain, S.openFile (S.sealFile key plain).2 (S.sealFile key plain).1 = some plain
  describes : ∀ key plain, (S.sealFile key plain).2.digest = S.digest (S.sealFile key plain).1
  checks : ∀ d bytes, S.openFile d bytes = none ↔ S.digest bytes ≠ d.digest

variable {S} {key : Key} {plain bytes out : List UInt8}

/-- What is refused in the place of a sealed file is what has another digest. -/
theorem Lawful.openFile_eq_none (hS : S.Lawful) :
    S.openFile (S.sealFile key plain).2 bytes = none ↔
      S.digest bytes ≠ S.digest (S.sealFile key plain).1 := by
  rw [hS.checks, hS.describes]

/-- **What opens is what was sealed, or collides with it.** -/
theorem Lawful.eq_or_collide_of_openFile (hS : S.Lawful)
    (h : S.openFile (S.sealFile key plain).2 bytes = some out) :
    out = plain ∧ bytes = (S.sealFile key plain).1 ∨
      S.Collide bytes (S.sealFile key plain).1 := by
  by_cases heq : bytes = (S.sealFile key plain).1
  · rw [heq, hS.opens] at h
    exact Or.inl ⟨(Option.some.inj h).symm, heq⟩
  · -- it was opened, so it has the digest
    have hdigest : S.digest bytes = S.digest (S.sealFile key plain).1 := by
      by_contra hne
      rw [hS.openFile_eq_none.mpr hne] at h
      cases h
    exact Or.inr ⟨heq, hdigest⟩

end FileSeal

/-! ### A keystream -/

/-- The bytes with the keystream added, from its `n`-th byte on. -/
def addStream (stream : ℕ → UInt8) : ℕ → List UInt8 → List UInt8
  | _, [] => []
  | n, b :: bs => (b ^^^ stream n) :: addStream stream (n + 1) bs

/-- Adding the stream twice gives the bytes back. -/
@[simp] theorem addStream_addStream (stream : ℕ → UInt8) (bs : List UInt8) :
    ∀ n, addStream stream n (addStream stream n bs) = bs := by
  induction bs with
  | nil =>
    intro n
    rfl
  | cons b bs ih =>
    intro n
    rw [addStream, addStream, ih, UInt8.xor_assoc, UInt8.xor_self, UInt8.xor_zero]

/-- The seal that adds the keystream of the key, and checks the digest before it takes it off. -/
def streamSeal {Key : Type u} {Digest : Type v} [DecidableEq Digest] (stream : Key → ℕ → UInt8)
    (digest : List UInt8 → Digest) : FileSeal Key Digest where
  sealFile := fun key plain =>
    let out := addStream (stream key) 0 plain
    (out, ⟨key, digest out⟩)
  openFile := fun d bytes =>
    if digest bytes = d.digest then some (addStream (stream d.key) 0 bytes) else none
  digest := digest

theorem streamSeal_lawful {Key : Type u} {Digest : Type v} [DecidableEq Digest]
    (stream : Key → ℕ → UInt8) (digest : List UInt8 → Digest) :
    (streamSeal stream digest).Lawful where
  opens := by
    intro key plain
    simp [streamSeal]
  describes := by
    intro key plain
    rfl
  checks := by
    intro d bytes
    simp [streamSeal]

end Lib
end MatrixCrypto
