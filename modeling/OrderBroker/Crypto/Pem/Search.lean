import OrderBroker.Base64
import OrderBroker.Crypto.Pem
import OrderBroker.Text.Blank

/-!
# The first PEM section of a text

A section may stand anywhere, and its marks need not be on lines of their own. The marks are
searched for in one pass: a byte at which a partial match breaks off is not looked at again, so that
a sixth dash in front of an opening mark hides it.

Headers may stand in front of the base64, with an empty line after them; each is a name and a value
with one colon between them.
-/

namespace OrderBroker.Crypto.Pem

/-- Searches for the rest of a mark, after bytes that are given with the latest first. -/
def searchFor (mark left seen : List UInt8) : List UInt8 → Option (List UInt8 × List UInt8)
  | [] => none
  | b :: rest =>
    match if left.head? = some b then left.drop 1 else mark with
    | [] => some (((b :: seen).drop mark.length).reverse, rest)
    | left => searchFor mark left (b :: seen) rest

/-- What stands before and after the first occurrence of a mark. -/
def cut (mark text : List UInt8) : Option (List UInt8 × List UInt8) := searchFor mark mark [] text

/-- A mark that starts inside of a broken match is not found. -/
example : cut (mark "ab") (mark "aab") = none := by decide +kernel

/-- A blank between the end of a label and what follows. -/
def isGap (b : UInt8) : Bool := b = 0x20 || b = 0x09 || b = 0x0A || b = 0x0D

/-- The headers of a body and what stands after them; there are none without an empty line. -/
def splitHeaders (body : List UInt8) : List UInt8 × List UInt8 :=
  ((cut (mark "\n\n") body).orElse fun _ => cut (mark "\r\n\r\n") body).getD ([], body)

/-- Every line of the headers has one colon. -/
def areHeaders (text : List Char) : Bool :=
  let lines := text.splitOn '\n'
  let lines := if lines.getLast? = some [] then lines.dropLast else lines
  lines.all (·.count ':' = 1)

/-- The text of bytes. -/
def text? (bytes : List UInt8) : Option String := String.fromUTF8? ⟨bytes.toArray⟩

/-- The bytes of base64 text once blanks are taken out. -/
def packed? (text : String) : Option (List UInt8) :=
  (Base64.standard.decode? (String.ofList (text.toList.filter (!Text.isBlank ·)))).map
    (·.data.toList)

/-- The first section of a text, whose labels at both ends have to agree. -/
def first? (bytes : List UInt8) : Option Pem := do
  let (_, rest) ← cut opening bytes
  let (label, rest) ← cut dashes rest
  let (body, rest) ← cut closing (rest.dropWhile isGap)
  let (label', _) ← cut dashes rest
  if label.isEmpty ∨ label ≠ label' then none
  let (headers, data) := splitHeaders body
  if ¬ areHeaders (← text? headers).toList then none
  return ⟨← text? label, ← packed? (← text? data)⟩

end OrderBroker.Crypto.Pem
