import OrderBroker.Json.Basic
import OrderBroker.Json.Double
import OrderBroker.Json.Escape

/-!
# Writing JSON

A document as compact text: no blanks, members in the order of the document, integers in decimal
and doubles by their shortest digits.
-/

namespace OrderBroker.Json

/-- The text of a number. -/
def Number.text : Number → String
  | .int i => if i < 0 then "-" ++ String.ofList (Nat.toDigits 10 i.natAbs)
    else String.ofList (Nat.toDigits 10 i.natAbs)
  | .real bits => Double.text bits

mutual

/-- Appends the text of a document. -/
def writeOnto (out : String) : Json → String
  | .null => out ++ "null"
  | .bool true => out ++ "true"
  | .bool false => out ++ "false"
  | .number n => out ++ n.text
  | .string s => Escape.writeText out s
  | .array items => (writeItems (out.push '[') true items).push ']'
  | .object members => (writeMembers (out.push '\x7b') true members).push '\x7d'

/-- Appends the items of an array; `first` says that no comma goes before the next one. -/
def writeItems (out : String) (first : Bool) : List Json → String
  | [] => out
  | item :: rest =>
    writeItems (writeOnto (if first then out else out.push ',') item) false rest

/-- Appends the members of an object; `first` says that no comma goes before the next one. -/
def writeMembers (out : String) (first : Bool) : List (String × Json) → String
  | [] => out
  | (key, value) :: rest =>
    writeMembers
      (writeOnto ((Escape.writeText (if first then out else out.push ',') key).push ':') value)
      false rest

end

/-- The text of a document. -/
def render (j : Json) : String := writeOnto "" j

end OrderBroker.Json
