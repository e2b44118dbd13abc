import OrderBroker.Crypto.Der
import OrderBroker.Crypto.Modular
import OrderBroker.Crypto.Sha512

/-!
# The curve of Ed25519

The twisted Edwards curve `-x² + y² = 1 + dx²y²` over the field of `2²⁵⁵ - 19`, and the public key
that belongs to a private seed. A point has extended coordinates, of which the last is the product
of the affine ones; one formula adds any two points.
-/

namespace OrderBroker.Crypto.Edwards

/-- The prime of the field. -/
def prime : Nat := 0x7fffffffffffffffffffffffffffffffffffffffffffffffffffffffffffffed

/-- The constant of the curve. -/
def d : Nat := 0x52036cee2b6ffe738cc740797779e89800700a4d4141d8ab75eb4dca135978a3

/-- A point, in extended coordinates. -/
structure Point where
  x : Nat
  y : Nat
  z : Nat
  t : Nat
  deriving DecidableEq, Repr

/-- The point that adds nothing. -/
def zero : Point := ⟨0, 1, 1, 0⟩

/-- The point of affine coordinates. -/
def ofAffine (x y : Nat) : Point := ⟨x, y, 1, x * y % prime⟩

/-- The point that keys are multiples of. -/
def base : Point :=
  ofAffine 0x216936d3cd6e53fec0a4e231fdd6dc5c692cc7609525a7b2c9562d608f25d51a
    0x6666666666666666666666666666666666666666666666666666666666666658

/-- The sum of two points. -/
def add (p q : Point) : Point :=
  let a := subMod prime p.y p.x * subMod prime q.y q.x % prime
  let b := (p.y + p.x) * (q.y + q.x) % prime
  let c := 2 * d * p.t * q.t % prime
  let e := 2 * p.z * q.z % prime
  let f := subMod prime b a
  let g := subMod prime e c
  let h := e + c
  let i := b + a
  ⟨f * g % prime, h * i % prime, g * h % prime, f * i % prime⟩

/-- The multiple of a point by a number, from its highest bit down. -/
def multiple (n : Nat) (p : Point) : Point :=
  (List.range (bitLength n)).foldr
    (fun i sum =>
      let twice := add sum sum
      if n.testBit i then add twice p else twice)
    zero

/-- The bytes of a point: its second coordinate, the lowest byte first, with the parity of the first
coordinate as the highest bit. -/
def bytes (p : Point) : List UInt8 :=
  let scale := inverseMod prime p.z
  let (x, y) := (p.x * scale % prime, p.y * scale % prime)
  let highest := if x % 2 = 1 then 0x80 else 0
  match Der.paddedBytes 32 y with
  | top :: rest => ((top ||| highest) :: rest).reverse
  | [] => []

/-- The number that a seed stands for: half of its digest, the lowest byte first, with the lowest
three bits and the highest bit cleared and the second highest bit set. -/
def secretOf (seed : List UInt8) : Nat :=
  let half := (sha512 seed).take 32
  let clamped := half.mapIdx fun i b =>
    if i = 0 then b &&& 0xF8 else if i = 31 then (b &&& 0x7F) ||| 0x40 else b
  Der.number clamped.reverse

/-- The public key that belongs to a seed of 32 bytes. -/
def publicKey? (seed : List UInt8) : Option (List UInt8) :=
  if seed.length = 32 then some (bytes (multiple (secretOf seed) base)) else none

end OrderBroker.Crypto.Edwards
