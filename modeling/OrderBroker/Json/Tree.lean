import OrderBroker.Json.Token

/-!
# JSON syntax trees

A JSON text as it was written: strings and keys undecoded, numerals with their digits, members in
their order and with their repetitions. What a record skips is therefore only checked for its
syntax, to any depth, and what it keeps is decoded by the record.

The reader takes one token at a time. Its state holds the open arrays and objects, innermost
first, so its depth costs no recursion.
-/

namespace OrderBroker.Json

/-- A JSON text as it was written. -/
inductive Tree where
  | null
  | bool (b : Bool)
  | number (n : Numeral)
  | string (raw : List UInt8)
  | array (items : List Tree)
  | object (members : List (List UInt8 × Tree))
  deriving Inhabited

namespace Tree

/-- An array or object that is still open, with what it holds so far, the latest first. An object
waits for the value of a key. -/
inductive Frame where
  | array (items : List Tree)
  | object (members : List (List UInt8 × Tree)) (key : List UInt8)

/-- What has been read and what may come next. -/
inductive State where
  /-- A value has to come. -/
  | value (outer : List Frame)
  /-- An array was opened: its first item or its end. -/
  | itemOrEnd (outer : List Frame)
  /-- An object was opened: its first key or its end. -/
  | keyOrEnd (outer : List Frame)
  /-- After a comma in an object: a key. -/
  | key (members : List (List UInt8 × Tree)) (outer : List Frame)
  /-- After a key: its colon. -/
  | colon (members : List (List UInt8 × Tree)) (key : List UInt8) (outer : List Frame)
  /-- A value is complete: a comma, the end of what holds it, or the end of the text. -/
  | after (t : Tree) (outer : List Frame)

/-- The state after the first token of a value. -/
def State.begin (outer : List Frame) : Token → Option State
  | .openArray => some (.itemOrEnd outer)
  | .openObject => some (.keyOrEnd outer)
  | .null => some (.after .null outer)
  | .bool b => some (.after (.bool b) outer)
  | .string raw => some (.after (.string raw) outer)
  | .number n => some (.after (.number n) outer)
  | _ => none

/-- The state after one more token, where the grammar allows the token. -/
def State.step : State → Token → Option State
  | .value outer, t => State.begin outer t
  | .itemOrEnd outer, .closeArray => some (.after (.array []) outer)
  | .itemOrEnd outer, t => State.begin (.array [] :: outer) t
  | .keyOrEnd outer, .closeObject => some (.after (.object []) outer)
  | .keyOrEnd outer, .string k => some (.colon [] k outer)
  | .key ms outer, .string k => some (.colon ms k outer)
  | .colon ms k outer, .colon => some (.value (.object ms k :: outer))
  | .after t (.array items :: outer), .comma => some (.value (.array (t :: items) :: outer))
  | .after t (.array items :: outer), .closeArray =>
    some (.after (.array (t :: items).reverse) outer)
  | .after t (.object ms k :: outer), .comma => some (.key ((k, t) :: ms) outer)
  | .after t (.object ms k :: outer), .closeObject =>
    some (.after (.object ((k, t) :: ms).reverse) outer)
  | _, _ => none

/-- The state after all tokens. -/
def State.run : State → List Token → Option State
  | s, [] => some s
  | s, t :: ts =>
    match s.step t with
    | some s => run s ts
    | none => none

/-- The value of a finished text. -/
def State.result? : State → Option Tree
  | .after t [] => some t
  | _ => none

/-- The tree of a sequence of tokens that is one value. -/
def ofTokens? (ts : List Token) : Option Tree := ((State.value []).run ts).bind State.result?

/-- The tree of a text that is one value and blanks around it. -/
def ofBytes? (s : List UInt8) : Option Tree := (Token.ofBytes? s).bind ofTokens?

end Tree

end OrderBroker.Json
