import OrderBroker.Crypto.Der
import OrderBroker.Crypto.Modular
import OrderBroker.Crypto.Sha256

/-!
# RSA signatures

Verification of RSASSA-PKCS1-v1_5 signatures over SHA-256. The signature is a number below the
modulus; raised to the public exponent it has to give the digest in its fixed frame. Keys that are
too large to be worth the work, or that can be no keys at all, are not read.
-/

namespace OrderBroker.Crypto

/-- A public key. -/
structure RsaKey where
  modulus : Nat
  exponent : Nat
  deriving DecidableEq, Repr

namespace RsaKey

/-- The most bits of a modulus. -/
def maxBits : Nat := 4096

/-- The largest exponent. -/
def maxExponent : Nat := 8589934591

/-- Can be a key: both numbers are odd, and neither is too large. -/
def isUsable (k : RsaKey) : Bool :=
  bitLength k.modulus ≤ maxBits && k.modulus % 2 = 1 && k.exponent % 2 = 1 &&
    2 ≤ k.exponent && k.exponent ≤ maxExponent && k.exponent < k.modulus

/-- Reads a key from its DER form: a sequence of two numbers. -/
def ofDer? (bytes : List UInt8) : Option RsaKey := do
  let [n, e] ← (← Der.one? bytes).sequence? | none
  let key : RsaKey := ⟨← n.natural?, ← e.natural?⟩
  if key.isUsable then some key else none

/-- The DER form of a key. -/
def toDer (k : RsaKey) : List UInt8 := (Der.ofList [.ofNat k.modulus, .ofNat k.exponent]).write

/-- The number of bytes of a modulus. -/
def size (k : RsaKey) : Nat := (bitLength k.modulus + 7) / 8

/-- What names SHA-256 in front of a digest. -/
def digestInfo : List UInt8 :=
  [0x30, 0x31, 0x30, 0x0D, 0x06, 0x09, 0x60, 0x86, 0x48, 0x01, 0x65, 0x03, 0x04, 0x02, 0x01, 0x05,
    0x00, 0x04, 0x20]

/-- The least number of bytes that fill up a frame. -/
def minFilling : Nat := 8

/-- The digest in its frame of `size` bytes, if there is room for it. -/
def frame? (size : Nat) (d : Digest) : Option (List UInt8) :=
  let info := digestInfo ++ d.bytes
  if size < info.length + minFilling + 3 then none
  else some ([0x00, 0x01] ++ List.replicate (size - info.length - 3) 0xFF ++ 0x00 :: info)

/-- Raised to the exponent, the number that a signature spells gives the framed digest. -/
def opens (k : RsaKey) (signature : Nat) (message : ByteArray) : Bool :=
  signature < k.modulus &&
    ((frame? k.size (sha256 message)).map Der.number).any
      (modPow k.modulus signature k.exponent = ·)

/-- The signature is one of this key over the message. -/
def verifies (k : RsaKey) (message signature : ByteArray) : Bool :=
  signature.size = k.size && k.opens (Der.number signature.data.toList) message

end RsaKey

end OrderBroker.Crypto
