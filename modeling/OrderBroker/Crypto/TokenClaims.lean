import OrderBroker.Json.Record

/-!
# Claims of signed tokens

What a token says, as far as it is looked at. Five claims are known: when the token ends and starts
to hold, about whom it is, and by and for whom it was made. None of them has to be there, and none
is weighed; but they have to be of a form that lets them be read past. Without their names they are
given all five, in their order.
-/

namespace OrderBroker.Crypto.TokenClaims

open Json (Tree Record Fields)

/-- The claims that are numbers where they make sense. -/
def moments : List String := ["exp", "nbf"]

/-- Whom a token is about. -/
def subject : String := "sub"

/-- Every claim that is known, in order. -/
def names : List String := moments ++ [subject, "iss", "aud"]

/-- The value holds other values. -/
def holdsValues : Tree → Bool
  | .array (_ :: _) | .object (_ :: _) => true
  | _ => false

/-- The value is made to hold other values. -/
def isContainer : Tree → Bool
  | .array _ | .object _ => true
  | _ => false

/-- The known claims can be read past. -/
def isReadable (r : Record) : Bool :=
  moments.all (fun name => !(r.find? name).any holdsValues) && !(r.find? subject).any isContainer

/-- The payload is JSON that gives claims. -/
def isClaims (payload : List UInt8) : Bool :=
  match Tree.ofBytes? payload with
  | some t =>
    let known := Record.ofTree? (Fields.ofNames names) t
    (Json.ofTree? Json.maxDepth t).isSome &&
      known.any fun r => (r.keyed || r.values.length = names.length) && isReadable r
  | none => false

end OrderBroker.Crypto.TokenClaims
