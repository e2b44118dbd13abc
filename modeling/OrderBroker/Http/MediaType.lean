import OrderBroker.Text.Ascii

/-!
# Media types

What a content type says: a type, a subtype, perhaps the format that the subtype is built on, and
parameters. A text is read whole or not at all, so that a fault in a parameter is a fault in the
media type, although nothing is done with parameters.

The parameters are recognised character by character; `Parameters.step` says what may follow what,
and `Parameters.isComplete` where a text may end.
-/

namespace OrderBroker.Http

/-- A media type without its parameters. -/
structure MediaType where
  main : List Char
  sub : List Char
  /-- What stands after the last plus sign of the subtype: the format that it is built on. -/
  suffix : Option (List Char) := none
  deriving DecidableEq, Repr

namespace MediaType

/-! ## Characters -/

/-- The characters of tokens that are neither letters nor digits. -/
def tokenMarks : List Char :=
  ['!', '#', '$', '%', '&', Char.ofNat 0x27, '*', '+', '-', '.', '^', '_', Char.ofNat 0x60, '|', '~']

/-- May stand in a token. -/
def isTokenChar (c : Char) : Bool := c.isAlphanum || tokenMarks.contains c

/-- Is shown in ASCII, as every character of a media type is. -/
def isShown (c : Char) : Bool := 0x20 ≤ c.toNat && c.toNat < 0x7F

/-! ## Parameters -/

/-- Where the reading of parameters stands. -/
inductive Parameters where
  /-- Before a name. -/
  | start
  | name
  /-- After the equals sign. -/
  | valueStart
  | value
  /-- After the quotation mark that opens a value. -/
  | quotedStart
  | quoted
  /-- After the quotation mark that closes a value. -/
  | closed
  deriving DecidableEq, Repr

namespace Parameters

/-- Takes a character. The first character of a quoted value belongs to it whatever it is, and only
spaces may stand between the end of such a value and the next parameter. -/
def step : Parameters → Char → Option Parameters
  | .start, c => if c = ' ' then some .start else if isTokenChar c then some .name else none
  | .name, c => if c = '=' then some .valueStart else if isTokenChar c then some .name else none
  | .valueStart, c =>
    if c = '"' then some .quotedStart else if isTokenChar c then some .value else none
  | .value, c => if c = ';' then some .start else if isTokenChar c then some .value else none
  | .quotedStart, _ => some .quoted
  | .quoted, c => if c = '"' then some .closed else some .quoted
  | .closed, c => if c = ';' then some .start else if c = ' ' then some .closed else none

/-- The text may end here. A value may be empty at the very end. -/
def isComplete : Parameters → Bool
  | .start | .valueStart | .value | .closed => true
  | .name | .quotedStart | .quoted => false

end Parameters

/-- The parameters, which stand after the first semicolon, read to their end. -/
def readsParameters (text : List Char) : Bool :=
  (text.foldlM Parameters.step .start).any (·.isComplete)

/-! ## The whole -/

/-- A subtype without its suffix, and the suffix. A plus sign at the front is part of the subtype. -/
def cutSuffix (sub : List Char) : List Char × Option (List Char) :=
  let back := sub.reverse
  let suffix := (back.takeWhile (· ≠ '+')).reverse
  match back.drop (suffix.length + 1) with
  | [] => (sub, none)
  | front => (front.reverse, some suffix)

/-- Only the last plus sign counts. -/
example : cutSuffix "a+b+json".toList = ("a+b".toList, some "json".toList) := by decide

/-- Reads a media type. -/
def parse? (text : List Char) : Option MediaType :=
  let main := text.takeWhile isTokenChar
  match main, text.drop main.length with
  | _ :: _, '/' :: rest =>
    let written := rest.takeWhile isTokenChar
    let (sub, suffix) := cutSuffix written
    match written, rest.drop written.length with
    | _, [] => some ⟨main, sub, suffix⟩
    | _ :: _, ';' :: parameters =>
      if text.all isShown && readsParameters parameters then some ⟨main, sub, suffix⟩ else none
    | _, _ => none
  | _, _ => none

/-- Two names in any case. -/
def sameName (name : List Char) (small : String) : Bool :=
  Text.asciiLower (String.ofList name) = small

/-- JSON, or a format built on it. -/
def isJson (m : MediaType) : Bool :=
  sameName m.main "application" &&
    (sameName m.sub "json" || m.suffix.any (sameName · "json"))

end MediaType

end OrderBroker.Http
