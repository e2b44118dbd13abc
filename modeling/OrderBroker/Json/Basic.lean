/-!
# JSON documents

The documents that the broker writes and the free-form values that it keeps. Members of an object
stand in the order in which they are written: the declared order for the broker's own records, the
byte order of the keys for free-form objects.
-/

namespace OrderBroker

/-- A number: an integer of a 64-bit word, or a double given by its bits. -/
inductive Json.Number where
  | int (i : Int)
  | real (bits : UInt64)
  deriving DecidableEq, Repr

/-- A document. -/
inductive Json where
  | null
  | bool (b : Bool)
  | number (n : Json.Number)
  | string (s : String)
  | array (items : List Json)
  | object (members : List (String × Json))
  deriving Inhabited, Repr

namespace Json

/-- A natural number as a document. -/
def nat (n : Nat) : Json := .number (.int n)

/-- The member of an object with this key. -/
def get? (key : String) : Json → Option Json
  | .object ms => ms.lookup key
  | _ => none

/-- The text of a string document. -/
def text? : Json → Option String
  | .string s => some s
  | _ => none

/-- The members that are present: a record leaves out the fields that it omits. -/
def record (fields : List (Option (String × Json))) : Json := .object (fields.filterMap id)

/-- A member that is always written. -/
def field (key : String) (value : Json) : Option (String × Json) := some (key, value)

/-- A member that is left out where it has nothing to say. -/
def fieldIf (present : Bool) (key : String) (value : Json) : Option (String × Json) :=
  if present then some (key, value) else none

end Json

end OrderBroker
