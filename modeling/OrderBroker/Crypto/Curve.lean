import OrderBroker.Crypto.Der
import OrderBroker.Crypto.Modular

/-!
# Elliptic curves of the Weierstrass form

The curves `y² = x³ - 3x + b` over a prime field that ECDSA keys are made on, and the public key that
belongs to a private one. Points have projective coordinates, and one formula adds any two of them,
be they equal, opposite or at infinity.
-/

namespace OrderBroker.Crypto

/-- A curve and the point that its keys are multiples of. -/
structure Curve where
  /-- The prime of the field. -/
  prime : Nat
  b : Nat
  x : Nat
  y : Nat
  /-- How many multiples the point has. -/
  order : Nat
  /-- The number of bytes of a coordinate and of a private key. -/
  size : Nat
  deriving DecidableEq, Repr

namespace Curve

/-- The curve P-256. -/
def p256 : Curve where
  prime := 0xffffffff00000001000000000000000000000000ffffffffffffffffffffffff
  b := 0x5ac635d8aa3a93e7b3ebbd55769886bc651d06b0cc53b0f63bce3c3e27d2604b
  x := 0x6b17d1f2e12c4247f8bce6e563a440f277037d812deb33a0f4a13945d898c296
  y := 0x4fe342e2fe1a7f9b8ee7eb4a7c0f9e162bce33576b315ececbb6406837bf51f5
  order := 0xffffffff00000000ffffffffffffffffbce6faada7179e84f3b9cac2fc632551
  size := 32

/-- The curve P-384. -/
def p384 : Curve where
  prime := 0xfffffffffffffffffffffffffffffffffffffffffffffffffffffffffffffffeffffffff0000000000000000ffffffff
  b := 0xb3312fa7e23ee7e4988e056be3f82d19181d9c6efe8141120314088f5013875ac656398d8a2ed19d2a85c8edd3ec2aef
  x := 0xaa87ca22be8b05378eb1c71ef320ad746e1d3b628ba79b9859f741e082542a385502f25dbf55296c3a545e3872760ab7
  y := 0x3617de4a96262c6f5d9e98bf9292dc29f8f41dbd289a147ce9da3113b5f0b8c00a60b1ce1d7e819d7a431d7c90ea0e5f
  order := 0xffffffffffffffffffffffffffffffffffffffffffffffffc7634d81f4372ddf581a0db248b0a77aecec196accc52973
  size := 48

/-- A point, in projective coordinates. -/
structure Point where
  x : Nat
  y : Nat
  z : Nat
  deriving DecidableEq, Repr

/-- The point at infinity. -/
def zero : Point := ⟨0, 1, 0⟩

/-- The point that keys are multiples of. -/
def base (c : Curve) : Point := ⟨c.x, c.y, 1⟩

/-- The sum of two points. -/
def add (c : Curve) (p q : Point) : Point :=
  let minus := subMod c.prime
  let a := c.prime - 3
  let xx := p.x * q.x % c.prime
  let yy := p.y * q.y % c.prime
  let zz := p.z * q.z % c.prime
  let xy := (p.x * q.y + q.x * p.y) % c.prime
  let yz := (p.y * q.z + q.y * p.z) % c.prime
  let xz := (p.x * q.z + q.x * p.z) % c.prime
  let linear := (a * xz + 3 * c.b * zz) % c.prime
  let low := minus yy linear
  let high := yy + linear
  let curved := minus ((a * xx + 3 * c.b * xz) % c.prime) (a * a * zz % c.prime)
  let slope := 3 * xx + a * zz
  ⟨minus (xy * low % c.prime) (yz * curved % c.prime),
    (slope * curved + high * low) % c.prime,
    (yz * high + xy * slope) % c.prime⟩

/-- The multiple of a point by a number, from its highest bit down. -/
def multiple (c : Curve) (n : Nat) (p : Point) : Point :=
  (List.range (bitLength n)).foldr
    (fun i sum =>
      let twice := c.add sum sum
      if n.testBit i then c.add twice p else twice)
    zero

/-- The bytes of a point that is not at infinity: a mark and both coordinates. -/
def bytes (c : Curve) (p : Point) : List UInt8 :=
  let scale := inverseMod c.prime p.z
  0x04 :: Der.paddedBytes c.size (p.x * scale % c.prime) ++
    Der.paddedBytes c.size (p.y * scale % c.prime)

/-- The public key that belongs to a private one, which is a number below the order. -/
def publicKey? (c : Curve) (secret : List UInt8) : Option (List UInt8) :=
  let n := Der.number secret
  if secret.length = c.size ∧ 0 < n ∧ n < c.order then some (c.bytes (c.multiple n c.base))
  else none

end Curve

end OrderBroker.Crypto
