import OrderBroker.Json.Record

/-!
# Headers of signed tokens

What the header of a token has to look like, and the algorithm that it names. The members that a
header is known for have to be of their kinds, and every other member has to be a text. A header may
bring a public key. The key is not used, but it has to be one: a common part, and the numbers of one
of four families of keys.
-/

namespace OrderBroker.Crypto.TokenHeader

open Json (Tree Record Fields)

/-! ## Kinds of members -/

/-- A list of texts. -/
def isTexts (t : Tree) : Bool := (t.list? (·.text?)).isSome

/-- The name of an enumeration inside of a value that was taken in whole: a text, or the only key
of an object, whose value is null or an object without members. -/
def nameWithin? : Tree → Option String
  | .object [(raw, .object [])] => Json.Escape.unescape? raw
  | t => t.name?

/-- A field is not given, or it is null, or it is of some kind. -/
def isNothingOr (r : Record) (isRight : Tree → Bool) (name : String) : Bool :=
  match r.find? name with
  | none | some .null => true
  | some t => isRight t

/-- A field is given and of some kind. -/
def isGiven (r : Record) (isRight : Tree → Bool) (name : String) : Bool :=
  (r.find? name).any isRight

/-- A text. -/
def isText (t : Tree) : Bool := t.text?.isSome

/-! ## Public keys -/

/-- The members that any key may have, apart from those that are no texts. -/
def keyTexts : List String := ["use", "kid", "x5u", "x5t", "x5t#S256"]

/-- The members that any key may have and that are lists of texts. -/
def keyLists : List String := ["key_ops", "x5c"]

/-- The part that all keys have in common. -/
def isCommonPart (key : Tree) : Bool :=
  match Record.ofTree? (Fields.ofNames (keyTexts ++ keyLists ++ ["alg"])) key with
  | some r =>
    keyTexts.all (isNothingOr r isText) && keyLists.all (isNothingOr r isTexts) &&
      isNothingOr r (fun t => (nameWithin? t).isSome) "alg"
  | none => false

/-- A family of keys. -/
structure Family where
  /-- What the family is called in keys. -/
  type : String
  /-- A key names its curve. -/
  hasCurve : Bool
  /-- The members that are given as texts. -/
  parts : List String

/-- The families of keys. -/
def families : List Family := [
  ⟨"EC", true, ["x", "y"]⟩, ⟨"RSA", false, ["n", "e"]⟩, ⟨"oct", false, ["k"]⟩,
  ⟨"OKP", true, ["x"]⟩]

/-- The curves that a key may name. -/
def curves : List String := ["P-256", "P-384", "P-521", "Ed25519"]

/-- The key is of a family. Only the family's own members may not be repeated. -/
def Family.has (f : Family) (key : Tree) : Bool :=
  let curve := if f.hasCurve then ["crv"] else []
  match Record.ofTree? (Fields.ofNames ("kty" :: curve ++ f.parts)) key with
  | some r =>
    isGiven r (fun t => nameWithin? t = some f.type) "kty" &&
      curve.all (isGiven r fun t => (nameWithin? t).any curves.contains) &&
      f.parts.all (isGiven r isText)
  | none => false

/-- A public key. -/
def isKey : Tree → Bool
  | .object members => isCommonPart (.object members) && families.any (·.has (.object members))
  | _ => false

/-! ## Headers -/

/-- The members that are texts or null. -/
def textMembers : List String := [
  "typ", "cty", "jku", "kid", "x5u", "x5t", "x5t#S256", "enc", "zip", "url", "nonce"]

/-- The members that are lists of texts or null. -/
def listMembers : List String := ["x5c", "crit"]

/-- The members that a header is known for. -/
def fields : Fields := Fields.ofNames (textMembers ++ listMembers ++ ["jwk", "alg"])

/-- A member is known, or a text. -/
def isKnownOrText (member : List UInt8 × Tree) : Bool :=
  match Json.Escape.unescape? member.1 with
  | some key => (fields.name? key).isSome || isText member.2
  | none => false

/-- Every member is of its kind. -/
def isWellFormed (r : Record) (members : List (List UInt8 × Tree)) : Bool :=
  textMembers.all (isNothingOr r isText) && listMembers.all (isNothingOr r isTexts) &&
    isNothingOr r isKey "jwk" && members.all isKnownOrText

/-- The algorithm that a header names. -/
def algorithm? (header : List UInt8) : Option String := do
  match ← Tree.ofBytes? header with
  | .object members =>
    let _ ← Json.ofTree? Json.maxDepth (.object members)
    let r ← Record.ofTree? fields (.object members)
    if isWellFormed r members then r.required "alg" (·.name?) else none
  | _ => none

end OrderBroker.Crypto.TokenHeader
