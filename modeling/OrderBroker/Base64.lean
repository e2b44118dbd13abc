/-!
# Base64

Bytes as text over a 64-letter alphabet, three bytes to four letters. Two alphabets are used:
`standard`, padded to a multiple of four letters, for documents and vendor requests, and
`urlSafe`, without padding, for signed tokens. Only canonical text is read back: the letters of a
last short group must leave its unused bits zero, and padding stands exactly where the alphabet
wants it. `decodeFreely?` asks for neither.
-/

namespace OrderBroker

/-- What tells one base64 alphabet from the other: its last two letters, and whether a short
last group is filled up with `=`. -/
structure Base64 where
  letter62 : Char
  letter63 : Char
  padded : Bool

namespace Base64

/-- The alphabet ending in `+` and `/`, padded. -/
def standard : Base64 := ⟨'+', '/', true⟩

/-- The alphabet ending in `-` and `_`, without padding. -/
def urlSafe : Base64 := ⟨'-', '_', false⟩

/-- The letter of a value below 64. -/
def letter (b : Base64) (n : Nat) : Char :=
  if n < 26 then Char.ofNat (65 + n)
  else if n < 52 then Char.ofNat (71 + n)
  else if n < 62 then Char.ofNat (n - 4)
  else if n = 62 then b.letter62
  else b.letter63

/-- The value of a letter. -/
def value? (b : Base64) (c : Char) : Option Nat :=
  let n := c.toNat
  if 65 ≤ n ∧ n ≤ 90 then some (n - 65)
  else if 97 ≤ n ∧ n ≤ 122 then some (n - 71)
  else if 48 ≤ n ∧ n ≤ 57 then some (n + 4)
  else if c = b.letter62 then some 62
  else if c = b.letter63 then some 63
  else none

/-! ## Writing -/

/-- The padding after a short last group. -/
def padding (b : Base64) (n : Nat) : String :=
  if b.padded then String.ofList (List.replicate n '=') else ""

/-- Appends the letters of the bytes to a text. -/
def encodeOnto (b : Base64) (out : String) : List UInt8 → String
  | x :: y :: z :: rest =>
    let n := x.toNat * 65536 + y.toNat * 256 + z.toNat
    encodeOnto b ((((out.push (b.letter (n / 262144))).push (b.letter (n / 4096 % 64))).push
      (b.letter (n / 64 % 64))).push (b.letter (n % 64))) rest
  | [x, y] =>
    let n := x.toNat * 256 + y.toNat
    ((out.push (b.letter (n / 1024))).push (b.letter (n / 16 % 64))).push
      (b.letter (n % 16 * 4)) ++ b.padding 1
  | [x] => (out.push (b.letter (x.toNat / 4))).push (b.letter (x.toNat % 4 * 16)) ++ b.padding 2
  | [] => out

/-- The bytes as text. -/
def encode (b : Base64) (bytes : ByteArray) : String := b.encodeOnto "" bytes.data.toList

/-- The number of letters of a padded text, without writing it. -/
def encodedLength (bytes : ByteArray) : Nat := (bytes.size + 2) / 3 * 4

/-! ## Reading -/

/-- Appends the bytes of a whole group of four letters. -/
def decodeGroup (b : Base64) (out : ByteArray) (p q r s : Char) : Option ByteArray := do
  let n := (← b.value? p) * 262144 + (← b.value? q) * 4096 + (← b.value? r) * 64 + (← b.value? s)
  return ((out.push (UInt8.ofNat (n / 65536))).push (UInt8.ofNat (n / 256))).push (UInt8.ofNat n)

/-- Appends the two bytes of a last group of three letters, whose last two bits are zero. -/
def decodeThree (b : Base64) (out : ByteArray) (p q r : Char) : Option ByteArray := do
  let n := (← b.value? p) * 4096 + (← b.value? q) * 64 + (← b.value? r)
  if n % 4 = 0 then return (out.push (UInt8.ofNat (n / 1024))).push (UInt8.ofNat (n / 4)) else none

/-- Appends the byte of a last group of two letters, whose last four bits are zero. -/
def decodeTwo (b : Base64) (out : ByteArray) (p q : Char) : Option ByteArray := do
  let n := (← b.value? p) * 64 + (← b.value? q)
  if n % 16 = 0 then return out.push (UInt8.ofNat (n / 16)) else none

/-- Appends the bytes that the letters stand for, or fails where the text is not canonical. -/
def decodeOnto (b : Base64) (out : ByteArray) : List Char → Option ByteArray
  | [] => some out
  | [p, q] => if b.padded then none else b.decodeTwo out p q
  | [p, q, r] => if b.padded then none else b.decodeThree out p q r
  | p :: q :: r :: s :: rest =>
    if rest.isEmpty ∧ b.padded ∧ s = '=' then
      if r = '=' then b.decodeTwo out p q else b.decodeThree out p q r
    else
      match b.decodeGroup out p q r s with
      | some out => decodeOnto b out rest
      | none => none
  | _ => none

/-- The bytes that a canonical text stands for. -/
def decode? (b : Base64) (text : String) : Option ByteArray := b.decodeOnto .empty text.toList

/-! ## Reading freely -/

/-- The whole bytes of the values of letters; what is left of a last group is not looked at. -/
def wholeBytes : List Nat → List UInt8
  | p :: q :: r :: s :: rest =>
    UInt8.ofNat (p * 4 + q / 16) :: UInt8.ofNat (q * 16 + r / 4) :: UInt8.ofNat (r * 64 + s) ::
      wholeBytes rest
  | [p, q, r] => [UInt8.ofNat (p * 4 + q / 16), UInt8.ofNat (q * 16 + r / 4)]
  | [p, q] => [UInt8.ofNat (p * 4 + q / 16)]
  | _ => []

/-- Reads letters with or without their padding, and whatever the unused bits are. A last letter
must not stand alone, and padding fills a group up or is left out. -/
def decodeFreely? (b : Base64) (text : List Char) : Option (List UInt8) :=
  let letters := (text.reverse.dropWhile (· = '=')).reverse
  let marks := text.length - letters.length
  let short := letters.length % 4
  if short = 1 ∨ (marks ≠ 0 ∧ (short = 0 ∨ short + marks ≠ 4)) then none
  else (letters.mapM b.value?).map wholeBytes

end Base64

end OrderBroker
