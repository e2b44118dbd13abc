import OrderBroker.Text.Natural

/-!
# Strings inside JSON text

A character is escaped where it is a quote, a backslash or a control character, and stands for
itself otherwise. Reading works on the bytes between the quotes: escapes are undone first, and the
result has to be UTF-8. A surrogate escape counts only in a pair.
-/

namespace OrderBroker.Json.Escape

/-! ## Writing -/

/-- The characters that stand for one character between quotes. -/
def escape (c : Char) : List Char :=
  if c = '"' then ['\\', '"']
  else if c = '\\' then ['\\', '\\']
  else if 0x20 ≤ c.toNat then [c]
  else if c.toNat = 0x08 then ['\\', 'b']
  else if c.toNat = 0x09 then ['\\', 't']
  else if c.toNat = 0x0A then ['\\', 'n']
  else if c.toNat = 0x0C then ['\\', 'f']
  else if c.toNat = 0x0D then ['\\', 'r']
  else ['\\', 'u', '0', '0', Nat.digitChar (c.toNat / 16), Nat.digitChar (c.toNat % 16)]

/-- The characters that stand for a text between quotes. -/
def escapeText (s : List Char) : List Char := s.flatMap escape

/-- Appends a quoted text. -/
def writeText (out : String) (s : String) : String :=
  (s.foldl (fun out c => (escape c).foldl String.push out) (out.push '"')).push '"'

/-! ## Reading -/

/-- The value of four hexadecimal digits. -/
def hexValue4? (a b c d : UInt8) : Option Nat := do
  let a ← Text.hexValue? a.toNat
  let b ← Text.hexValue? b.toNat
  let c ← Text.hexValue? c.toNat
  let d ← Text.hexValue? d.toNat
  return a * 4096 + b * 256 + c * 16 + d

/-- The byte for a one-letter escape. -/
def simpleEscape? (b : UInt8) : Option UInt8 :=
  if b = 0x22 ∨ b = 0x5C ∨ b = 0x2F then some b
  else if b = 0x62 then some 0x08
  else if b = 0x66 then some 0x0C
  else if b = 0x6E then some 0x0A
  else if b = 0x72 then some 0x0D
  else if b = 0x74 then some 0x09
  else none

/-- Appends the UTF-8 bytes of a code point. -/
def pushCodePoint (out : ByteArray) (n : Nat) : ByteArray :=
  (String.utf8EncodeChar (Char.ofNat n)).foldl ByteArray.push out

/-- The leading half of a surrogate pair. -/
def isLeading (n : Nat) : Bool := 0xD800 ≤ n ∧ n < 0xDC00

/-- The trailing half of a surrogate pair. -/
def isTrailing (n : Nat) : Bool := 0xDC00 ≤ n ∧ n < 0xE000

/-- Appends the bytes that the raw bytes of a string stand for. -/
def unescapeOnto (out : ByteArray) : List UInt8 → Option ByteArray
  | [] => some out
  | b :: rest =>
    if b ≠ 0x5C then unescapeOnto (out.push b) rest
    else match rest with
      | [] => none
      | e :: rest =>
        if e ≠ 0x75 then
          match simpleEscape? e with
          | some b => unescapeOnto (out.push b) rest
          | none => none
        else match rest with
          | h1 :: h2 :: h3 :: h4 :: rest =>
            match hexValue4? h1 h2 h3 h4 with
            | none => none
            | some n =>
              if isTrailing n then none
              else if ¬ isLeading n then unescapeOnto (pushCodePoint out n) rest
              else match rest with
                | s :: u :: h1 :: h2 :: h3 :: h4 :: rest =>
                  if s = 0x5C ∧ u = 0x75 then
                    match hexValue4? h1 h2 h3 h4 with
                    | some m =>
                      if isTrailing m then
                        unescapeOnto
                          (pushCodePoint out (0x10000 + (n - 0xD800) * 0x400 + (m - 0xDC00))) rest
                      else none
                    | none => none
                  else none
                | _ => none
          | _ => none

/-- The text that the raw bytes of a string stand for. -/
def unescape? (raw : List UInt8) : Option String :=
  (unescapeOnto .empty raw).bind String.fromUTF8?

end OrderBroker.Json.Escape
