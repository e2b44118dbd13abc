/-!
# Modular arithmetic

Powers modulo a number, by squaring. The base need not be reduced.
-/

namespace OrderBroker.Crypto

/-- The number of bits of a number; zero has none. -/
def bitLength (n : Nat) : Nat := if n = 0 then 0 else Nat.log2 n + 1

/-- The power of a base modulo a number; `fuel` bounds the bits of the exponent. -/
def powerMod (modulus : Nat) : Nat → Nat → Nat → Nat
  | 0, _, _ => 1 % modulus
  | fuel + 1, base, exponent =>
    if exponent = 0 then 1 % modulus
    else
      let half := powerMod modulus fuel (base * base % modulus) (exponent / 2)
      if exponent % 2 = 0 then half else base * half % modulus

/-- The power of a base modulo a number. -/
def modPow (modulus base exponent : Nat) : Nat :=
  powerMod modulus (bitLength exponent) base exponent

/-- The inverse modulo a prime, of a number that the prime does not divide. -/
def inverseMod (prime n : Nat) : Nat := modPow prime n (prime - 2)

/-- The difference modulo a number of two that are below it. -/
def subMod (modulus a b : Nat) : Nat := (a + modulus - b) % modulus

end OrderBroker.Crypto
