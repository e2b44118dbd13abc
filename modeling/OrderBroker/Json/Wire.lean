import OrderBroker.Json.Printer
import OrderBroker.Json.Record

/-!
# Types with a JSON form

A type of the wire vocabulary is written as a document and read from a syntax tree.
-/

namespace OrderBroker

/-- Values that are written as JSON and read from it. -/
class Wire (α : Type) where
  /-- The document that is written. -/
  toJson : α → Json
  /-- What a syntax tree is read as. -/
  ofTree? : Json.Tree → Option α

namespace Wire

variable {α : Type} [Wire α]

/-- The JSON text of a value. -/
def encode (a : α) : String := (toJson a).render

/-- The value of the bytes of a JSON text. -/
def decodeBytes? (bytes : List UInt8) : Option α := (Json.Tree.ofBytes? bytes).bind ofTree?

/-- The value of a JSON text. -/
def decode? (text : String) : Option α := decodeBytes? (Json.utf8 text)

end Wire

namespace Json

/-- The syntax tree of a number as it is written. -/
def Number.toTree : Number → Tree
  | .int i => .number ⟨i < 0, (Nat.toDigits 10 i.natAbs).map (fun c => c.toNat - 48), [], none⟩
  | n@(.real _) => (ofTokens? n).getD .null
where
  /-- A double goes through its text. -/
  ofTokens? (n : Number) : Option Tree := (Token.ofBytes? (utf8 n.text)).bind Tree.ofTokens?

mutual

/-- The syntax tree of a document. -/
def toTree : Json → Tree
  | .null => .null
  | .bool b => .bool b
  | .number n => n.toTree
  | .string s => .string (utf8 (String.ofList (Escape.escapeText s.toList)))
  | .array items => .array (toTrees items)
  | .object members => .object (toMembers members)

/-- The syntax trees of items. -/
def toTrees : List Json → List Tree
  | [] => []
  | j :: rest => toTree j :: toTrees rest

/-- The syntax trees of members. -/
def toMembers : List (String × Json) → List (List UInt8 × Tree)
  | [] => []
  | (k, j) :: rest =>
    (utf8 (String.ofList (Escape.escapeText k.toList)), toTree j) :: toMembers rest

end

/-- Free-form values are kept as they are, with 127 levels of nesting. -/
instance : Wire Json where
  toJson j := j
  ofTree? t := ofTree? maxDepth t

end Json

end OrderBroker
