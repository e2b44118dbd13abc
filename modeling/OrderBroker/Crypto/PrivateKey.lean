import OrderBroker.Crypto.Curve
import OrderBroker.Crypto.Edwards
import OrderBroker.Crypto.Rsa

/-!
# Private keys

The private keys that a connection can be made with: RSA keys, keys of two elliptic curves, and
Ed25519 keys. A key stands in a form of its own, or wrapped with the name of its algorithm. It is
read together with its public key, and the two have to belong to each other; what is kept is the
public key, in the form in which certificates hold it.
-/

namespace OrderBroker.Crypto.PrivateKey

/-- The form that a key stands in. -/
inductive Form where
  /-- RSA's own form. -/
  | rsa
  /-- The form of keys of elliptic curves. -/
  | curve
  /-- Any key, with the name of its algorithm. -/
  | wrapped
  deriving DecidableEq, Repr

/-- A key has no more bytes, whatever it holds. -/
def sizeMax : Nat := 0xFFFF

/-- The pieces of a sequence that is no larger than a key. -/
def pieces? (bytes : List UInt8) : Option (List Der) := do
  let d ← Der.one? bytes
  if sizeMax < d.content.length then none else d.sequence?

/-! ## Algorithms -/

/-- The algorithm of RSA keys. -/
def rsaAlgorithm : List UInt8 :=
  [0x06, 0x09, 0x2A, 0x86, 0x48, 0x86, 0xF7, 0x0D, 0x01, 0x01, 0x01, 0x05, 0x00]

/-- The algorithm of keys of elliptic curves, before the name of the curve. -/
def curveAlgorithm : List UInt8 := [0x06, 0x07, 0x2A, 0x86, 0x48, 0xCE, 0x3D, 0x02, 0x01]

/-- The algorithm of Ed25519 keys. -/
def edwardsAlgorithm : List UInt8 := [0x06, 0x03, 0x2B, 0x65, 0x70]

/-- The curves, with their names. -/
def curves : List (Curve × List UInt8) := [
  (.p256, [0x06, 0x08, 0x2A, 0x86, 0x48, 0xCE, 0x3D, 0x03, 0x01, 0x07]),
  (.p384, [0x06, 0x05, 0x2B, 0x81, 0x04, 0x00, 0x22])]

/-- A public key with its algorithm, as certificates hold it. -/
def keyInfo (algorithm key : List UInt8) : List UInt8 :=
  (Der.mk Der.sequence algorithm).write ++ (Der.ofBits key).write

/-! ## Wrapped keys -/

/-- A wrapped key. -/
structure Wrapped where
  version : Nat
  algorithm : List UInt8
  key : List UInt8
  /-- What follows the key and its attributes. -/
  rest : List Der

/-- The pieces after one that is given under a number, if there is one. -/
def skipNumbered (n : UInt8) : List Der → List Der
  | d :: rest => if d.tag = Der.numbered n then rest else d :: rest
  | [] => []

/-- Unwraps a key. Attributes are passed over. -/
def unwrap? (bytes : List UInt8) : Option Wrapped := do
  let version :: algorithm :: key :: rest ← pieces? bytes | none
  return ⟨← version.natural?, ← algorithm.contentOf? Der.sequence,
    ← key.contentOf? Der.octetString, skipNumbered 0 rest⟩

/-- The key in a wrapping of the first version. -/
def unwrapPlain? (algorithm bytes : List UInt8) : Option (List UInt8) := do
  let w ← unwrap? bytes
  if w.version = 0 ∧ w.algorithm = algorithm ∧ w.rest.isEmpty then some w.key else none

/-! ## Kinds of keys -/

/-- The tag of bits that are given under the number 1 without a tag of their own. -/
def bareBits : UInt8 := 0x81

/-- The public key that is given under the number 1. -/
def givenPublic? (d : Der) : Option (List UInt8) := do
  (← Der.one? (← d.contentOf? (Der.numbered 1))).wholeBits?

/-- The public key of a key of a curve. -/
def ofCurve? (c : Curve) (name bytes : List UInt8) : Option (List UInt8) := do
  let version :: secret :: rest ← pieces? bytes | none
  let [given] := skipNumbered 0 rest | none
  let isNamed := rest.all fun d => d.tag ≠ Der.numbered 0 || d.content = name
  let key ← c.publicKey? (← secret.contentOf? Der.octetString)
  if version.natural? = some 1 ∧ isNamed ∧ givenPublic? given = some key then
    some (keyInfo (curveAlgorithm ++ name) key)
  else none

/-- The public key of an Ed25519 key. The second version of the wrapping gives it, too. -/
def ofEdwards? (bytes : List UInt8) : Option (List UInt8) := do
  let w ← unwrap? bytes
  let key ← Edwards.publicKey? (← (← Der.one? w.key).contentOf? Der.octetString)
  let isGiven ← match w.version, w.rest with
    | 0, [] => some true
    | 1, [d] =>
      if d.tag = bareBits then some (d.content = 0 :: key) else some (givenPublic? d = some key)
    | _, _ => none
  if w.algorithm = edwardsAlgorithm ∧ isGiven then some (keyInfo edwardsAlgorithm key) else none

/-! ### RSA -/

/-- The fewest bits of a modulus, where the bits of its highest byte all count. -/
def rsaMinBits : Nat := 2048

/-- The least public exponent. -/
def rsaMinExponent : Nat := 65537

/-- The number of bits that the length of a prime is a multiple of. -/
def rsaPrimeUnit : Nat := 512

/-- The numbers of an RSA key. -/
structure RsaNumbers where
  published : RsaKey
  exponent : Nat
  p : Nat
  q : Nat
  pExponent : Nat
  qExponent : Nat
  /-- The inverse of `q` modulo `p`. -/
  qInverse : Nat

namespace RsaNumbers

/-- The bits of each of the primes. -/
def primeBits (k : RsaNumbers) : Nat := (bitLength k.published.modulus + 1) / 2

/-- The public key is one that connections are made with. -/
def isStrong (k : RsaNumbers) : Bool :=
  k.published.isUsable && rsaMinBits ≤ k.published.size * 8 && rsaMinExponent ≤ k.published.exponent

/-- A prime and its exponent can be what they should be. -/
def isPrimePart (k : RsaNumbers) (prime exponent : Nat) : Bool :=
  bitLength prime = k.primeBits && prime % 2 = 1 && exponent < prime && exponent % 2 = 1

/-- The numbers belong together. -/
def isConsistent (k : RsaNumbers) : Bool :=
  k.isStrong && k.primeBits % rsaPrimeUnit = 0 &&
    k.isPrimePart k.p k.pExponent && k.isPrimePart k.q k.qExponent &&
    k.p * k.q % k.published.modulus = 0 &&
    k.primeBits < bitLength k.exponent && k.exponent < k.published.modulus && k.exponent % 2 = 1 &&
    k.qInverse < k.p && k.qInverse * k.q % k.p = 1

end RsaNumbers

/-- The public key of an RSA key. -/
def ofRsa? (bytes : List UInt8) : Option (List UInt8) := do
  let [0, n, e, d, p, q, dp, dq, qi] ← (← pieces? bytes).mapM Der.natural? | none
  let k : RsaNumbers := ⟨⟨n, e⟩, d, p, q, dp, dq, qi⟩
  if k.isConsistent then some (keyInfo rsaAlgorithm k.published.toDer) else none

/-! ## All kinds -/

/-- The public key that belongs to a private key of some form. -/
def publicInfo? (form : Form) (bytes : List UInt8) : Option (List UInt8) :=
  match form with
  | .rsa => ofRsa? bytes
  | .curve => curves.findSome? fun (c, name) => ofCurve? c name bytes
  | .wrapped =>
    (((unwrapPlain? rsaAlgorithm bytes).bind ofRsa?).orElse fun _ =>
      curves.findSome? fun (c, name) =>
        (unwrapPlain? (curveAlgorithm ++ name) bytes).bind (ofCurve? c name)).orElse fun _ =>
          ofEdwards? bytes

/-- The labels of private keys, with the forms that they stand for. -/
def labels : List (String × Form) := [
  ("RSA PRIVATE KEY", .rsa), ("EC PRIVATE KEY", .curve), ("PRIVATE KEY", .wrapped)]

end OrderBroker.Crypto.PrivateKey
