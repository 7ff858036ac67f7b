import Mathlib.Algebra.Group.Nat.Defs
import Mathlib.Data.List.Basic

/-!
# SHA-256

The hash function of the standard library, on lists of bytes: the compression function of
FIPS 180-4 folded over the padded message, and the digest in lowercase hexadecimal. The client
relies on nothing but its type; it is defined here so that runs of the model can be written down.
-/

namespace ControlPlaneKit

namespace Sha256

/-- The round constants. -/
def roundConstants : List UInt32 :=
  [0x428a2f98, 0x71374491, 0xb5c0fbcf, 0xe9b5dba5, 0x3956c25b, 0x59f111f1, 0x923f82a4, 0xab1c5ed5,
    0xd807aa98, 0x12835b01, 0x243185be, 0x550c7dc3, 0x72be5d74, 0x80deb1fe, 0x9bdc06a7, 0xc19bf174,
    0xe49b69c1, 0xefbe4786, 0x0fc19dc6, 0x240ca1cc, 0x2de92c6f, 0x4a7484aa, 0x5cb0a9dc, 0x76f988da,
    0x983e5152, 0xa831c66d, 0xb00327c8, 0xbf597fc7, 0xc6e00bf3, 0xd5a79147, 0x06ca6351, 0x14292967,
    0x27b70a85, 0x2e1b2138, 0x4d2c6dfc, 0x53380d13, 0x650a7354, 0x766a0abb, 0x81c2c92e, 0x92722c85,
    0xa2bfe8a1, 0xa81a664b, 0xc24b8b70, 0xc76c51a3, 0xd192e819, 0xd6990624, 0xf40e3585, 0x106aa070,
    0x19a4c116, 0x1e376c08, 0x2748774c, 0x34b0bcb5, 0x391c0cb3, 0x4ed8aa4a, 0x5b9cca4f, 0x682e6ff3,
    0x748f82ee, 0x78a5636f, 0x84c87814, 0x8cc70208, 0x90befffa, 0xa4506ceb, 0xbef9a3f7, 0xc67178f2]

/-- The eight words of the hash. -/
structure State where
  a : UInt32
  b : UInt32
  c : UInt32
  d : UInt32
  e : UInt32
  f : UInt32
  g : UInt32
  h : UInt32

/-- The initial hash value. -/
def State.initial : State :=
  ⟨0x6a09e667, 0xbb67ae85, 0x3c6ef372, 0xa54ff53a, 0x510e527f, 0x9b05688c, 0x1f83d9ab, 0x5be0cd19⟩

/-- Rotation to the right. -/
def rotate (x : UInt32) (n : UInt32) : UInt32 :=
  (x >>> n) ||| (x <<< (32 - n))

/-- The message schedule, extended word by word; the most recent word comes first. -/
def schedule : ℕ → List UInt32 → List UInt32
  | 0, words => words.reverse
  | n + 1, words =>
    let w := fun i => words.getD i 0
    let s₀ := rotate (w 14) 7 ^^^ rotate (w 14) 18 ^^^ (w 14 >>> 3)
    let s₁ := rotate (w 1) 17 ^^^ rotate (w 1) 19 ^^^ (w 1 >>> 10)
    schedule n ((w 15 + s₀ + w 6 + s₁) :: words)

/-- One round. -/
def round (s : State) (kw : UInt32 × UInt32) : State :=
  let s₁ := rotate s.e 6 ^^^ rotate s.e 11 ^^^ rotate s.e 25
  let ch := (s.e &&& s.f) ^^^ (~~~s.e &&& s.g)
  let t₁ := s.h + s₁ + ch + kw.1 + kw.2
  let s₀ := rotate s.a 2 ^^^ rotate s.a 13 ^^^ rotate s.a 22
  let maj := (s.a &&& s.b) ^^^ (s.a &&& s.c) ^^^ (s.b &&& s.c)
  ⟨t₁ + (s₀ + maj), s.a, s.b, s.c, s.d + t₁, s.e, s.f, s.g⟩

/-- The compression of one block of sixteen words. -/
def compress (s : State) (block : List UInt32) : State :=
  let t := (roundConstants.zip (schedule 48 block.reverse)).foldl round s
  ⟨s.a + t.a, s.b + t.b, s.c + t.c, s.d + t.d, s.e + t.e, s.f + t.f, s.g + t.g, s.h + t.h⟩

/-- The message with its padding. -/
def pad (message : List UInt8) : List UInt8 :=
  let bits := 8 * message.length
  message ++ 0x80 :: List.replicate ((119 - message.length % 64) % 64) 0 ++
    (List.range 8).map fun i => UInt8.ofNat (bits / 256 ^ (7 - i))

/-- Four bytes make a word. -/
def words : List UInt8 → List UInt32
  | b₀ :: b₁ :: b₂ :: b₃ :: rest =>
    ((b₀.toUInt32 <<< 24) ||| (b₁.toUInt32 <<< 16) ||| (b₂.toUInt32 <<< 8) ||| b₃.toUInt32) ::
      words rest
  | _ => []

/-- The hash of a message. -/
def hash (message : List UInt8) : State :=
  ((words (pad message)).toChunks 16).foldl compress State.initial

/-- A hexadecimal digit. -/
def hexDigit (n : UInt32) : Char :=
  if n.toNat % 16 < 10 then Char.ofNat (48 + n.toNat % 16) else Char.ofNat (87 + n.toNat % 16)

/-- The eight digits of a word. -/
def hexWord (w : UInt32) : List Char :=
  [hexDigit (w >>> 28), hexDigit (w >>> 24), hexDigit (w >>> 20), hexDigit (w >>> 16),
    hexDigit (w >>> 12), hexDigit (w >>> 8), hexDigit (w >>> 4), hexDigit w]

/-- `sha256(message).hexdigest()`. -/
def hexDigest (message : List UInt8) : List Char :=
  let s := hash message
  hexWord s.a ++ hexWord s.b ++ hexWord s.c ++ hexWord s.d ++ hexWord s.e ++ hexWord s.f ++
    hexWord s.g ++ hexWord s.h

theorem length_hexDigest (message : List UInt8) : (hexDigest message).length = 64 :=
  rfl

/-- A lowercase hexadecimal digit. -/
def IsHexDigit (c : Char) : Prop :=
  (48 ≤ c.toNat ∧ c.toNat ≤ 57) ∨ (97 ≤ c.toNat ∧ c.toNat ≤ 102)

theorem isHexDigit_hexDigit (n : UInt32) : IsHexDigit (hexDigit n) := by
  have hchars : ∀ m < 103, (Char.ofNat m).toNat = m := by decide
  rw [hexDigit]
  split
  · refine .inl ?_
    rw [hchars _ (by omega)]
    omega
  · refine .inr ?_
    rw [hchars _ (by omega)]
    omega

theorem isHexDigit_hexWord (w : UInt32) : ∀ c ∈ hexWord w, IsHexDigit c := by
  simp only [hexWord, List.forall_mem_cons, isHexDigit_hexDigit, true_and]
  exact List.forall_mem_nil _

/-- A digest is written in lowercase hexadecimal digits. -/
theorem isHexDigit_hexDigest (message : List UInt8) : ∀ c ∈ hexDigest message, IsHexDigit c := by
  intro c hc
  simp only [hexDigest, List.mem_append] at hc
  rcases hc with ((((((h | h) | h) | h) | h) | h) | h) | h <;> exact isHexDigit_hexWord _ c h

end Sha256

end ControlPlaneKit
