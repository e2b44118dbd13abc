import OrderBroker.Calendar.Date
import OrderBroker.Crypto.Der

/-!
# ASN.1, read freely

The outline of ASN.1 data in any of its encodings, as far as a key can be found in it: sequences,
strings of bits and bytes, and object identifiers. Everything else is checked for the form of its
kind and then passed over. Lengths and tags need not be written in the shortest way, and whether a
piece calls itself constructed makes no difference.

No sequence and no set may be empty, and neither may the whole.
-/

namespace OrderBroker.Crypto

/-- The outline of a piece of data. -/
inductive Asn1 where
  | sequence (items : List Asn1)
  /-- The bytes of a string of bits or bytes. -/
  | string (content : List UInt8)
  /-- The numbers of an object identifier. -/
  | objectId (arcs : List Nat)
  | other

namespace Asn1

/-! ## Tags and lengths -/

/-- A number in groups of seven bits, all but the last of which are marked as having a successor. -/
def groups? (n : Nat) : List UInt8 → Option (Nat × List UInt8)
  | [] => none
  | b :: rest =>
    let n := n * 128 + b.toNat % 128
    if b < 0x80 then some (n, rest) else groups? n rest

/-- What a piece says of itself before its length. -/
structure Tag where
  /-- Its number is one of those that every kind of data has in common. -/
  isUniversal : Bool
  number : Nat

/-- The tag at the front, and what follows it. -/
def tag? : List UInt8 → Option (Tag × List UInt8)
  | [] => none
  | b :: rest =>
    let isUniversal := b < 0x40
    let small := b.toNat % 32
    if small = 31 then (groups? 0 rest).map fun (n, rest) => (⟨isUniversal, n⟩, rest)
    else some (⟨isUniversal, small⟩, rest)

/-- The most bytes of a length. -/
def maxLengthBytes : Nat := 8

/-- The length at the front, and what follows it. -/
def length? : List UInt8 → Option (Nat × List UInt8)
  | [] => none
  | b :: rest =>
    if b < 0x80 then some (b.toNat, rest)
    else
      let count := b.toNat - 0x80
      if count ≤ maxLengthBytes ∧ count ≤ rest.length then
        some (Der.number (rest.take count), rest.drop count)
      else none

/-! ## Contents -/

/-- The numbers of an object identifier after the first two. -/
def arcs? : Nat → List UInt8 → Option (List Nat)
  | _, [] => some []
  | 0, _ => none
  | fuel + 1, bytes => do
    let (n, rest) ← groups? 0 bytes
    return n :: (← arcs? fuel rest)

/-- An object identifier. Its first byte stands for two numbers. -/
def objectId? : List UInt8 → Option Asn1
  | [] => none
  | b :: rest =>
    let first := min (b.toNat / 40) 2
    (arcs? rest.length rest).map fun arcs => .objectId (first :: (b.toNat - 40 * first) :: arcs)

/-- A string of bits, of which no more may be unused than there are. -/
def bits? : List UInt8 → Option Asn1
  | [] => some (.string [])
  | unused :: rest => if rest.length * 8 < unused.toNat then none else some (.string rest)

/-- The bytes are a text. -/
def isText (bytes : List UInt8) : Bool := (String.fromUTF8? ⟨bytes.toArray⟩).isSome

/-- May stand in the plainest kind of text. -/
def isPlain (b : UInt8) : Bool :=
  let c := Char.ofNat b.toNat
  c.isAlphanum || [' ', Char.ofNat 0x27, '(', ')', '+', ',', '-', '.', '/', ':', '=', '?'].contains c

/-! ## Moments -/

/-- The numbers of a moment: two digits each, after the four of the year. -/
def isMomentOf (year : Nat) (rest : List Nat) : Bool :=
  match rest with
  | [month, day, hour, minute, second] =>
    1 ≤ day && day ≤ daysInMonth year month && hour < 24 && minute < 60 && second < 60
  | _ => false

/-- The numbers of pairs of digits. -/
def pairs : List Char → List Nat
  | a :: b :: rest => ((a.toNat - 48) * 10 + (b.toNat - 48)) :: pairs rest
  | _ => []

/-- Fourteen digits are a moment. -/
def isMoment (digits : List Char) : Bool :=
  digits.length = 14 && digits.all Char.isDigit &&
    match pairs digits with
    | a :: b :: rest => isMomentOf (a * 100 + b) rest
    | _ => false

/-- A moment of the years from 1950 to 2049, which are written with two digits. -/
def isShortMoment (bytes : List UInt8) : Bool :=
  let cs := bytes.map fun b => Char.ofNat b.toNat
  bytes.length = 13 && cs.getLast? = some 'Z' &&
    isMoment ((if pairs (cs.take 2) < [50] then ['2', '0'] else ['1', '9']) ++ cs.take 12)

/-- The length of a moment with all nine places after the point. -/
def longMoment : Nat := 25

/-- A moment of any year, perhaps with a sign and with places after a point; what is missing of the
places is filled up with zeros. -/
def isLongMoment (bytes : List UInt8) : Bool :=
  let cs := bytes.map fun b => Char.ofNat b.toNat
  let cs := if cs.contains '.' then cs else cs.take 14 ++ '.' :: cs.drop 14
  let cs := cs.dropLast ++ List.replicate (longMoment - cs.length) '0' ++ cs.drop (cs.length - 1)
  let cs := if cs.head? = some '+' ∨ cs.head? = some '-' then cs.drop 1 else cs
  let (digits, places) := (cs.take 14, cs.drop 14)
  15 ≤ bytes.length && isMoment digits && places.length = 11 && places.head? = some '.' &&
    ((places.drop 1).take 9).all Char.isDigit && places.getLast? = some 'Z'

/-! ## Pieces -/

/-- The outline of a piece, of whose content `inner` finds the pieces. -/
def piece? (inner : List UInt8 → Option (List Asn1)) (t : Tag) (content : List UInt8) :
    Option Asn1 :=
  let passIf (isRight : Bool) : Option Asn1 := if isRight then some .other else none
  if ¬ t.isUniversal then some .other
  else match t.number with
    | 0x01 => passIf (content.length = 1)
    | 0x03 => bits? content
    | 0x04 => some (.string content)
    | 0x06 => objectId? content
    | 0x0C | 0x14 | 0x1C | 0x1E => passIf (isText content)
    | 0x10 => (inner content).map .sequence
    | 0x11 => (inner content).map fun _ => .other
    | 0x13 => passIf (content.all isPlain)
    | 0x17 => passIf (isShortMoment content)
    | 0x18 => passIf (isLongMoment content)
    | _ => some .other

/-- The pieces that bytes are made of; every piece and every level takes one from `fuel`. -/
def readAll? : Nat → List UInt8 → Option (List Asn1)
  | _, [] => some []
  | 0, _ => none
  | fuel + 1, bytes => do
    let (t, rest) ← tag? bytes
    let (n, rest) ← length? rest
    if rest.length < n then none
    let inner (content : List UInt8) := (readAll? fuel content).filter (!·.isEmpty)
    return (← piece? inner t (rest.take n)) :: (← readAll? fuel (rest.drop n))

/-- The pieces that bytes are made of, of which there has to be one. -/
def ofBytes? (bytes : List UInt8) : Option (List Asn1) :=
  (readAll? bytes.length bytes).filter (!·.isEmpty)

/-! ## Searching -/

mutual

/-- The first answer that a piece gives, or one of the pieces in it. -/
def find? {α : Type} (ask : Asn1 → Option α) : Asn1 → Option α
  | .sequence items => findIn? ask items
  | piece => ask piece

/-- The first answer among pieces, and the pieces in their sequences, one after the other. -/
def findIn? {α : Type} (ask : Asn1 → Option α) : List Asn1 → Option α
  | [] => none
  | piece :: rest =>
    match find? ask piece with
    | some answer => some answer
    | none => findIn? ask rest

end

end Asn1

end OrderBroker.Crypto
