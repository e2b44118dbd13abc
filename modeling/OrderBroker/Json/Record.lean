import OrderBroker.Json.Value

/-!
# Records

How a record is read from a syntax tree. The record states its fields as data, in declared order,
each with the keys that name it. A tree is one of two forms:

- an object, whose members are sorted onto the fields by key; a member with any other key is
  skipped whatever its value is, and two members of one field are an error;
- an array of the fields in declared order, from which fields may be missing at the end.

A reader then asks for each field by its name: `required`, `withDefault` or, for a field that only
the object form may leave out, `optional`.
-/

namespace OrderBroker.Json

/-- The name of a field and the further keys that name it. -/
structure FieldKeys where
  name : String
  aliases : List String := []

/-- This key names the field. -/
def FieldKeys.names (f : FieldKeys) (key : String) : Bool := key = f.name ∨ key ∈ f.aliases

/-- The fields of a record, in declared order. -/
abbrev Fields := List FieldKeys

/-- Fields that go by one key each. -/
def Fields.ofNames (names : List String) : Fields := names.map (⟨·, []⟩)

/-- The name of the field that a key stands for. -/
def Fields.name? (fs : Fields) (key : String) : Option String :=
  (fs.find? (·.names key)).map (·.name)

/-- The values given for the fields of a record. -/
structure Record where
  /-- Given as an object and not as an array. -/
  keyed : Bool
  values : List (String × Tree)

namespace Record

/-- The members of an object that belong to the record, under the names of their fields and in
front of those already found. Every key has to be a text. -/
def known? (fs : Fields) (found : List (String × Tree)) :
    List (List UInt8 × Tree) → Option (List (String × Tree))
  | [] => some found
  | (raw, t) :: rest =>
    match Escape.unescape? raw with
    | none => none
    | some key =>
      match fs.name? key with
      | none => known? fs found rest
      | some name =>
        if found.any (·.1 = name) then none else known? fs ((name, t) :: found) rest

/-- Sorts a tree onto the fields of a record. -/
def ofTree? (fs : Fields) : Tree → Option Record
  | .object members => (known? fs [] members).map (⟨true, ·⟩)
  | .array items =>
    if items.length ≤ fs.length then some ⟨false, (fs.map (·.name)).zip items⟩ else none
  | _ => none

/-- The value given for a field. -/
def find? (r : Record) (name : String) : Option Tree := r.values.lookup name

/-- A field that must be given. -/
def required {α : Type} (r : Record) (name : String) (read : Tree → Option α) : Option α :=
  (r.find? name).bind read

/-- A field that may be left out. -/
def withDefault {α : Type} (r : Record) (name : String) (default : α) (read : Tree → Option α) :
    Option α :=
  match r.find? name with
  | some t => read t
  | none => some default

/-- A value that may be null. -/
def nullable {α : Type} (read : Tree → Option α) : Tree → Option (Option α)
  | .null => some none
  | t => (read t).map some

/-- A field that may be null, and that only an object may leave out. -/
def optional {α : Type} (r : Record) (name : String) (read : Tree → Option α) :
    Option (Option α) :=
  match r.find? name with
  | some t => nullable read t
  | none => if r.keyed then some none else none

end Record

/-! ## Plain values -/

namespace Tree

/-- A text. -/
def text? : Tree → Option String
  | .string raw => Escape.unescape? raw
  | _ => none

/-- A truth value. -/
def flag? : Tree → Option Bool
  | .bool b => some b
  | _ => none

/-- A natural number up to a bound, written without point and exponent. -/
def natural? (max : Nat) : Tree → Option Nat
  | .number n =>
    match n.number? with
    | some (.int i) => if 0 ≤ i ∧ i ≤ max then some i.toNat else none
    | _ => none
  | _ => none

/-- A list of values. -/
def list? {α : Type} (read : Tree → Option α) : Tree → Option (List α)
  | .array items => items.mapM read
  | _ => none

/-- A name of an enumeration, as a string or as the only key of an object whose value is null. -/
def name? : Tree → Option String
  | .string raw => Escape.unescape? raw
  | .object [(raw, .null)] => Escape.unescape? raw
  | _ => none

/-- The value that goes by a name of an enumeration. -/
def oneOf? {α : Type} (names : List (String × α)) (t : Tree) : Option α :=
  t.name?.bind fun name => names.lookup name

/-- The value that goes by a name of an enumeration, where any other name stands for one value. -/
def oneOfOr? {α : Type} (names : List (String × α)) (other : α) (t : Tree) : Option α :=
  t.name?.map fun name => (names.lookup name).getD other

end Tree

end OrderBroker.Json
