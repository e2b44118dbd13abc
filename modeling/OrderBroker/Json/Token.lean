/-!
# JSON tokens

The words of a JSON text, read from its bytes. A string token keeps the raw bytes between its
quotes, because a value that nobody asks for need not be a valid text; it must hold no control
character and only well-formed escapes. A numeral keeps its digits, because only its reader knows
whether it has to fit a word.
-/

namespace OrderBroker.Json

/-- A number as it is written. The fraction is empty where there is no point, and the exponent
carries its sign. -/
structure Numeral where
  negative : Bool
  whole : List Nat
  fraction : List Nat
  exponent : Option (Bool × List Nat)
  deriving DecidableEq, Repr, Inhabited

/-- A word of a JSON text. -/
inductive Token where
  | openArray
  | closeArray
  | openObject
  | closeObject
  | comma
  | colon
  | null
  | bool (b : Bool)
  | string (raw : List UInt8)
  | number (n : Numeral)
  deriving DecidableEq, Repr, Inhabited

/-- A blank of JSON: space, tab, line feed or carriage return. -/
def isJsonBlank (b : UInt8) : Bool := b = 0x20 ∨ b = 0x09 ∨ b = 0x0A ∨ b = 0x0D

/-- A decimal digit. -/
def isDigitByte (b : UInt8) : Bool := 48 ≤ b ∧ b ≤ 57

/-- A hexadecimal digit. -/
def isHexByte (b : UInt8) : Bool := (48 ≤ b ∧ b ≤ 57) ∨ (97 ≤ b ∧ b ≤ 102) ∨ (65 ≤ b ∧ b ≤ 70)

/-- A letter that makes a one-letter escape. -/
def isEscapeByte (b : UInt8) : Bool :=
  b = 0x22 ∨ b = 0x5C ∨ b = 0x2F ∨ b = 0x62 ∨ b = 0x66 ∨ b = 0x6E ∨ b = 0x72 ∨ b = 0x74

/-- The raw bytes of a string up to its closing quote, and what follows the quote. -/
def scanString (seen : List UInt8) : List UInt8 → Option (List UInt8 × List UInt8)
  | [] => none
  | b :: rest =>
    if b = 0x22 then some (seen.reverse, rest)
    else if b < 0x20 then none
    else if b ≠ 0x5C then scanString (b :: seen) rest
    else match rest with
      | [] => none
      | e :: rest =>
        if isEscapeByte e then scanString (e :: b :: seen) rest
        else if e ≠ 0x75 then none
        else match rest with
          | h1 :: h2 :: h3 :: h4 :: rest =>
            if isHexByte h1 && isHexByte h2 && isHexByte h3 && isHexByte h4 then
              scanString (h4 :: h3 :: h2 :: h1 :: e :: b :: seen) rest
            else none
          | _ => none

/-- The digits at the front, as numbers, and what follows them. -/
def scanDigits (s : List UInt8) : List Nat × List UInt8 :=
  let (ds, rest) := s.span isDigitByte
  (ds.map (fun b => b.toNat - 48), rest)

/-- The fraction at the front, if a point opens one: at least one digit. -/
def scanFraction (s : List UInt8) : Option (List Nat × List UInt8) :=
  match s with
  | b :: rest =>
    if b = 0x2E then
      let (ds, rest) := scanDigits rest
      if ds.isEmpty then none else some (ds, rest)
    else some ([], s)
  | [] => some ([], [])

/-- The exponent at the front, if a letter opens one: a sign or none, and at least one digit. The
flag says that the exponent is negative. -/
def scanExponent (s : List UInt8) : Option (Option (Bool × List Nat) × List UInt8) :=
  match s with
  | b :: rest =>
    if b = 0x65 ∨ b = 0x45 then
      let (negative, rest) := match rest with
        | c :: more => if c = 0x2D then (true, more) else if c = 0x2B then (false, more)
          else (false, rest)
        | [] => (false, [])
      let (ds, rest) := scanDigits rest
      if ds.isEmpty then none else some (some (negative, ds), rest)
    else some (none, s)
  | [] => some (none, [])

/-- The numeral at the front: a leading zero stands alone. -/
def scanNumeral (s : List UInt8) : Option (Numeral × List UInt8) := do
  let (negative, s) := match s with
    | b :: rest => if b = 0x2D then (true, rest) else (false, s)
    | [] => (false, [])
  let (whole, s) := scanDigits s
  if whole.isEmpty then none
  if whole.head? = some 0 ∧ 1 < whole.length then none
  let (fraction, s) ← scanFraction s
  let (exponent, s) ← scanExponent s
  return (⟨negative, whole, fraction, exponent⟩, s)

/-- What follows a word that the text starts with. -/
def afterWord (word : List UInt8) (s : List UInt8) : Option (List UInt8) :=
  if word.isPrefixOf s then some (s.drop word.length) else none

/-- The token at the front of a text that starts with no blank. -/
def Token.scan : List UInt8 → Option (Token × List UInt8)
  | [] => none
  | b :: rest =>
    if b = 0x22 then (scanString [] rest).map fun (raw, rest) => (.string raw, rest)
    else if b = 0x5B then some (.openArray, rest)
    else if b = 0x5D then some (.closeArray, rest)
    else if b = 0x7B then some (.openObject, rest)
    else if b = 0x7D then some (.closeObject, rest)
    else if b = 0x2C then some (.comma, rest)
    else if b = 0x3A then some (.colon, rest)
    else if b = 0x6E then (afterWord [0x75, 0x6C, 0x6C] rest).map (.null, ·)
    else if b = 0x74 then (afterWord [0x72, 0x75, 0x65] rest).map (.bool true, ·)
    else if b = 0x66 then (afterWord [0x61, 0x6C, 0x73, 0x65] rest).map (.bool false, ·)
    else (scanNumeral (b :: rest)).map fun (n, rest) => (.number n, rest)

/-- Reads tokens while there is text, at most `fuel` of them, in front of those already seen. -/
def Token.scanAll (seen : List Token) : Nat → List UInt8 → Option (List Token)
  | 0, s => if (s.dropWhile isJsonBlank).isEmpty then some seen.reverse else none
  | fuel + 1, s =>
    match s.dropWhile isJsonBlank with
    | [] => some seen.reverse
    | b :: rest =>
      match Token.scan (b :: rest) with
      | some (t, rest) => scanAll (t :: seen) fuel rest
      | none => none

/-- The tokens of a text. Every token takes a byte, so there are at most as many. -/
def Token.ofBytes? (s : List UInt8) : Option (List Token) := Token.scanAll [] s.length s

end OrderBroker.Json
