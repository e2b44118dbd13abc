/-!
# SHA-256

The digest of FIPS 180-4. The chaining state and the digest are eight words by their type, so the
digest has 32 bytes whatever the message is. A block is read from the padded message by position,
and the message schedule keeps only its last sixteen words.
-/

namespace OrderBroker.Crypto

/-- Eight 32-bit words: the chaining state between blocks, and the digest. -/
structure Digest where
  a : UInt32
  b : UInt32
  c : UInt32
  d : UInt32
  e : UInt32
  f : UInt32
  g : UInt32
  h : UInt32
  deriving DecidableEq, Repr, Inhabited

namespace Sha256

/-- The round constants: the first 32 bits of the fractional parts of the cube roots of the first
64 primes. -/
def roundConstants : List UInt32 := [
  0x428a2f98, 0x71374491, 0xb5c0fbcf, 0xe9b5dba5, 0x3956c25b, 0x59f111f1, 0x923f82a4, 0xab1c5ed5,
  0xd807aa98, 0x12835b01, 0x243185be, 0x550c7dc3, 0x72be5d74, 0x80deb1fe, 0x9bdc06a7, 0xc19bf174,
  0xe49b69c1, 0xefbe4786, 0x0fc19dc6, 0x240ca1cc, 0x2de92c6f, 0x4a7484aa, 0x5cb0a9dc, 0x76f988da,
  0x983e5152, 0xa831c66d, 0xb00327c8, 0xbf597fc7, 0xc6e00bf3, 0xd5a79147, 0x06ca6351, 0x14292967,
  0x27b70a85, 0x2e1b2138, 0x4d2c6dfc, 0x53380d13, 0x650a7354, 0x766a0abb, 0x81c2c92e, 0x92722c85,
  0xa2bfe8a1, 0xa81a664b, 0xc24b8b70, 0xc76c51a3, 0xd192e819, 0xd6990624, 0xf40e3585, 0x106aa070,
  0x19a4c116, 0x1e376c08, 0x2748774c, 0x34b0bcb5, 0x391c0cb3, 0x4ed8aa4a, 0x5b9cca4f, 0x682e6ff3,
  0x748f82ee, 0x78a5636f, 0x84c87814, 0x8cc70208, 0x90befffa, 0xa4506ceb, 0xbef9a3f7, 0xc67178f2]

/-- The state before the first block: the fractional parts of the square roots of the first eight
primes. -/
def initial : Digest :=
  ⟨0x6a09e667, 0xbb67ae85, 0x3c6ef372, 0xa54ff53a, 0x510e527f, 0x9b05688c, 0x1f83d9ab, 0x5be0cd19⟩

/-- Rotates a word to the right; `n` is between 1 and 31. -/
@[inline] def rotr (x : UInt32) (n : UInt32) : UInt32 := (x >>> n) ||| (x <<< (32 - n))

/-- The function of the schedule on the word fifteen places back. -/
@[inline] def sigma0 (x : UInt32) : UInt32 := rotr x 7 ^^^ rotr x 18 ^^^ (x >>> 3)

/-- The function of the schedule on the word two places back. -/
@[inline] def sigma1 (x : UInt32) : UInt32 := rotr x 17 ^^^ rotr x 19 ^^^ (x >>> 10)

/-- One round on the state with a word of the schedule and its constant. -/
@[inline] def round (s : Digest) (k w : UInt32) : Digest :=
  let t1 := s.h + (rotr s.e 6 ^^^ rotr s.e 11 ^^^ rotr s.e 25) +
    ((s.e &&& s.f) ^^^ ((~~~ s.e) &&& s.g)) + k + w
  let t2 := (rotr s.a 2 ^^^ rotr s.a 13 ^^^ rotr s.a 22) +
    ((s.a &&& s.b) ^^^ (s.a &&& s.c) ^^^ (s.b &&& s.c))
  ⟨t1 + t2, s.a, s.b, s.c, s.d + t1, s.e, s.f, s.g⟩

/-- The last sixteen words of the message schedule, the oldest first. -/
structure Window where
  w0 : UInt32
  w1 : UInt32
  w2 : UInt32
  w3 : UInt32
  w4 : UInt32
  w5 : UInt32
  w6 : UInt32
  w7 : UInt32
  w8 : UInt32
  w9 : UInt32
  w10 : UInt32
  w11 : UInt32
  w12 : UInt32
  w13 : UInt32
  w14 : UInt32
  w15 : UInt32

/-- The window one word further. -/
@[inline] def Window.next (w : Window) : Window :=
  ⟨w.w1, w.w2, w.w3, w.w4, w.w5, w.w6, w.w7, w.w8, w.w9, w.w10, w.w11, w.w12, w.w13, w.w14, w.w15,
    w.w0 + sigma0 w.w1 + w.w9 + sigma1 w.w14⟩

/-- The rounds that remain, one for each constant. -/
def rounds (s : Digest) (w : Window) : List UInt32 → Digest
  | [] => s
  | k :: ks => rounds (round s k w.w0) w.next ks

/-- The byte at a position; zero beyond the end. -/
@[inline] def byteAt (m : ByteArray) (i : Nat) : UInt32 :=
  if h : i < m.size then m[i].toUInt32 else 0

/-- The word at a position, its first byte the highest. -/
@[inline] def wordAt (m : ByteArray) (i : Nat) : UInt32 :=
  (byteAt m i <<< 24) ||| (byteAt m (i + 1) <<< 16) ||| (byteAt m (i + 2) <<< 8) |||
    byteAt m (i + 3)

/-- The sixteen words of a block. -/
def block (m : ByteArray) (i : Nat) : Window :=
  ⟨wordAt m i, wordAt m (i + 4), wordAt m (i + 8), wordAt m (i + 12), wordAt m (i + 16),
    wordAt m (i + 20), wordAt m (i + 24), wordAt m (i + 28), wordAt m (i + 32), wordAt m (i + 36),
    wordAt m (i + 40), wordAt m (i + 44), wordAt m (i + 48), wordAt m (i + 52), wordAt m (i + 56),
    wordAt m (i + 60)⟩

/-- The sum of two states, word by word. -/
def add (s t : Digest) : Digest :=
  ⟨s.a + t.a, s.b + t.b, s.c + t.c, s.d + t.d, s.e + t.e, s.f + t.f, s.g + t.g, s.h + t.h⟩

/-- Takes in the blocks from a position on. -/
def compress (m : ByteArray) (s : Digest) (pos : Nat) : Nat → Digest
  | 0 => s
  | n + 1 => compress m (add s (rounds s (block m pos) roundConstants)) (pos + 64) n

/-- Appends zeros. -/
def pushZeros (m : ByteArray) : Nat → ByteArray
  | 0 => m
  | n + 1 => pushZeros (m.push 0) n

/-- The message, a closing bit, zeros, and the length in bits as eight bytes: whole blocks. -/
def pad (m : ByteArray) : ByteArray :=
  let bits := m.size * 8
  let zeros := (119 - m.size % 64) % 64
  let body := pushZeros (m.push 0x80) zeros
  [56, 48, 40, 32, 24, 16, 8, 0].foldl (fun out shift => out.push (UInt8.ofNat (bits >>> shift))) body

end Sha256

/-- The SHA-256 digest of a message. -/
def sha256 (message : ByteArray) : Digest :=
  let m := Sha256.pad message
  Sha256.compress m Sha256.initial 0 (m.size / 64)

namespace Digest

/-- The words in their order. -/
def words (x : Digest) : List UInt32 := [x.a, x.b, x.c, x.d, x.e, x.f, x.g, x.h]

/-- The four bytes of a word, the highest first. -/
def wordBytes (w : UInt32) : List UInt8 :=
  [(w >>> 24).toUInt8, (w >>> 16).toUInt8, (w >>> 8).toUInt8, w.toUInt8]

/-- The 32 bytes of the digest. -/
def bytes (x : Digest) : List UInt8 := x.words.flatMap wordBytes

/-- The bytes in hexadecimal. -/
def hexChars (x : Digest) : List Char :=
  x.bytes.flatMap fun b => [Nat.digitChar (b.toNat / 16), Nat.digitChar (b.toNat % 16)]

/-- The digest in hexadecimal. -/
def hex (x : Digest) : String := String.ofList x.hexChars

/-- A digest has 32 bytes. -/
theorem length_bytes (x : Digest) : x.bytes.length = 32 := rfl

/-- A digest has 64 hexadecimal digits. -/
theorem length_hexChars (x : Digest) : x.hexChars.length = 64 := rfl

end Digest

end OrderBroker.Crypto
