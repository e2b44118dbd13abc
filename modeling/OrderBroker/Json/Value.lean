import OrderBroker.Json.Basic
import OrderBroker.Json.Double
import OrderBroker.Json.Escape
import OrderBroker.Json.Tree

/-!
# Free-form values

A syntax tree decoded as a document of its own, with no record to say what to expect. Every string
must be a text, every number must fit, objects end up sorted by key with the last of equal keys
winning, and at most 127 arrays and objects may enclose one another.
-/

namespace OrderBroker.Json

/-! ## Numbers -/

/-- The size of the largest exponent that is read. -/
def exponentMax : Nat := 2147483647

/-- Reads digits into a number that must not pass `limit`; the digits that no longer fit are left
over. -/
def takeDigits (limit : Nat) (n : Nat) : List Nat → Nat × List Nat
  | [] => (n, [])
  | d :: ds => if limit < n * 10 + d then (n, d :: ds) else takeDigits limit (n * 10 + d) ds

/-- The double nearest to a word, with a sign. -/
def signed (negative : Bool) (f : Float) : Number :=
  .real (if negative then (-f).toBits else f.toBits)

/-- A numeral with a fraction, an exponent or too many digits: the leading digits that fit a word
are scaled in double arithmetic. Whole digits beyond the word only raise the exponent, and
fraction digits beyond it are ignored. -/
def Numeral.double? (n : Numeral) : Option Number := do
  let (whole, more) := takeDigits Text.wordMax 0 n.whole
  let (significand, ignored) := takeDigits Text.wordMax whole n.fraction
  let exponent : Int := more.length - (n.fraction.length - ignored.length : Nat)
  let f := (UInt64.ofNat significand).toFloat
  match n.exponent with
  | none => return signed n.negative (← Double.scale f exponent)
  | some (negative, ds) =>
    let (e, excess) := takeDigits exponentMax 0 ds
    if excess.isEmpty then
      return signed n.negative
        (← Double.scale f (if negative then exponent - e else exponent + e))
    else if significand ≠ 0 ∧ ¬ negative then none
    else return signed n.negative 0.0

/-- An integer stays one while it fits a signed or an unsigned word; minus zero is a double. -/
def Numeral.number? (n : Numeral) : Option Number :=
  let (whole, more) := takeDigits Text.wordMax 0 n.whole
  if more.isEmpty ∧ n.fraction.isEmpty ∧ n.exponent = none then
    if ¬ n.negative then some (.int whole)
    else if whole = 0 ∨ UInt64.size / 2 < whole then some (signed true (UInt64.ofNat whole).toFloat)
    else some (.int (-whole))
  else n.double?

/-! ## Objects -/

/-- Puts a member in its place by key; an equal key takes the new value. -/
def insertMember (key : String) (value : Json) : List (String × Json) → List (String × Json)
  | [] => [(key, value)]
  | (k, v) :: rest =>
    if key < k then (key, value) :: (k, v) :: rest
    else if key = k then (key, value) :: rest
    else (k, v) :: insertMember key value rest

/-- Members sorted by key, the last of equal keys winning. -/
def sortMembers (members : List (String × Json)) : List (String × Json) :=
  members.foldl (fun sorted (k, v) => insertMember k v sorted) []

/-! ## Values -/

/-- How deep arrays and objects may be nested in what is kept. -/
def maxDepth : Nat := 127

/-- Decodes a tree as a free-form value inside of which `room` more levels may open. -/
def ofTree? : Nat → Tree → Option Json
  | _, .null => some .null
  | _, .bool b => some (.bool b)
  | _, .number n => n.number?.map .number
  | _, .string raw => (Escape.unescape? raw).map .string
  | 0, _ => none
  | room + 1, .array items => (items.mapM (ofTree? room)).map .array
  | room + 1, .object members =>
    (members.mapM fun (k, t) => do return (← Escape.unescape? k, ← ofTree? room t)).map
      (.object ∘ sortMembers)

/-- The free-form value of a text. -/
def ofBytes? (s : List UInt8) : Option Json := (Tree.ofBytes? s).bind (ofTree? maxDepth)

/-- The UTF-8 bytes of a text. -/
def utf8 (s : String) : List UInt8 := s.toUTF8.data.toList

/-- The free-form value of a text. -/
def ofText? (s : String) : Option Json := ofBytes? (utf8 s)

end OrderBroker.Json
