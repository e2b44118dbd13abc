/-!
# DER

Data in the distinguished encoding of ASN.1: a tag, a length and a content, which for a sequence
is further data. Only what keys and certificates are made of is read: tags of one byte and lengths
of at most four. Every length has one form, so what reads is written back as it was.
-/

namespace OrderBroker.Crypto

/-- A piece of data: its tag and its content. -/
structure Der where
  tag : UInt8
  content : List UInt8
  deriving DecidableEq, Repr

namespace Der

/-! ## Tags -/

/-- A truth value. -/
def boolean : UInt8 := 0x01

/-- An integer. -/
def integer : UInt8 := 0x02

/-- A string of bits. -/
def bitString : UInt8 := 0x03

/-- A string of bytes. -/
def octetString : UInt8 := 0x04

/-- An object identifier. -/
def objectId : UInt8 := 0x06

/-- A sequence. -/
def sequence : UInt8 := 0x30

/-- What is given under a number of its own, as a piece of data inside of this one. -/
def numbered (n : UInt8) : UInt8 := 0xA0 + n

/-! ## Reading -/

/-- The number that bytes spell, the first byte the highest. -/
def number (bytes : List UInt8) : Nat := bytes.foldl (fun n b => n * 256 + b.toNat) 0

/-- The length at the front: one byte below 128, or the fewest bytes that hold it after a byte that
counts them. -/
def length? : List UInt8 → Option (Nat × List UInt8)
  | [] => none
  | b :: rest =>
    if b < 0x80 then some (b.toNat, rest)
    else
      let count := b.toNat - 0x80
      let bytes := rest.take count
      let n := number bytes
      if 1 ≤ count ∧ count ≤ 4 ∧ bytes.length = count ∧ 0x80 ≤ n ∧ bytes.head? ≠ some 0 then
        some (n, rest.drop count)
      else none

/-- The piece at the front, and what follows it. -/
def read? : List UInt8 → Option (Der × List UInt8)
  | [] => none
  | tag :: rest => do
    let (n, rest) ← length? rest
    let content := rest.take n
    if content.length = n ∧ tag &&& 0x1F ≠ 0x1F then some (⟨tag, content⟩, rest.drop n) else none

/-- Reads pieces while there are bytes, at most `fuel` of them. -/
def readAll? : Nat → List UInt8 → Option (List Der)
  | _, [] => some []
  | 0, _ => none
  | fuel + 1, bytes => do
    let (piece, rest) ← read? bytes
    return piece :: (← readAll? fuel rest)

/-- The pieces that bytes are made of. -/
def pieces? (bytes : List UInt8) : Option (List Der) := readAll? bytes.length bytes

/-- The one piece that bytes are made of. -/
def one? (bytes : List UInt8) : Option Der :=
  match read? bytes with
  | some (d, []) => some d
  | _ => none

/-- The content of a piece of some tag. -/
def contentOf? (tag : UInt8) (d : Der) : Option (List UInt8) :=
  if d.tag = tag then some d.content else none

/-- The pieces of a sequence. -/
def sequence? (d : Der) : Option (List Der) := (d.contentOf? sequence).bind pieces?

/-- An integer that is not negative, written with the fewest bytes. -/
def natural? (d : Der) : Option Nat :=
  match d.contentOf? integer with
  | some [b] => if b < 0x80 then some b.toNat else none
  | some (b :: c :: rest) =>
    if (b = 0 ∧ 0x80 ≤ c) ∨ (0 < b ∧ b < 0x80) then some (number (b :: c :: rest)) else none
  | _ => none

/-- The bytes of a string of bits that are whole bytes. -/
def wholeBits? (d : Der) : Option (List UInt8) :=
  match d.contentOf? bitString with
  | some (0 :: bytes) => some bytes
  | _ => none

/-- A truth value. -/
def boolean? (d : Der) : Option Bool :=
  match d.contentOf? boolean with
  | some [0xFF] => some true
  | some [0x00] => some false
  | _ => none

/-! ## Writing -/

/-- The bytes of a number, the highest first and at most `fuel` of them; none for zero. -/
def numberBytes : Nat → Nat → List UInt8
  | 0, _ => []
  | fuel + 1, n => if n = 0 then [] else numberBytes fuel (n / 256) ++ [UInt8.ofNat (n % 256)]

/-- The bytes of a number, with zeros in front up to a width. -/
def paddedBytes (width n : Nat) : List UInt8 :=
  let bytes := numberBytes width n
  List.replicate (width - bytes.length) 0 ++ bytes

/-- The form of a length. -/
def lengthBytes (n : Nat) : List UInt8 :=
  if n < 0x80 then [UInt8.ofNat n]
  else
    let bytes := numberBytes n n
    UInt8.ofNat (0x80 + bytes.length) :: bytes

/-- The bytes of a piece. -/
def write (d : Der) : List UInt8 := d.tag :: lengthBytes d.content.length ++ d.content

/-- An integer that is not negative. -/
def ofNat (n : Nat) : Der :=
  let bytes := numberBytes (n + 1) n
  ⟨integer, if bytes.head?.all (0x80 ≤ ·) then 0 :: bytes else bytes⟩

/-- A string of whole bytes, as bits. -/
def ofBits (bytes : List UInt8) : Der := ⟨bitString, 0 :: bytes⟩

/-- A sequence of pieces. -/
def ofList (ds : List Der) : Der := ⟨sequence, ds.flatMap write⟩

/-- Whole bytes are read back. -/
@[simp] theorem wholeBits?_ofBits (bytes : List UInt8) : (ofBits bytes).wholeBits? = some bytes :=
  rfl

end Der

end OrderBroker.Crypto
