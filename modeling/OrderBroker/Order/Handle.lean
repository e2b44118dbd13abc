import OrderBroker.Order.Request

/-!
# Order handles

A handle is the vendor's acknowledgment of a started order. The broker keeps no sessions: the
caller owns the handle and hands it back with every further operation.
-/

namespace OrderBroker.Order

/-- What the user is asked for: to identify themselves, or to sign. -/
inductive Mode where
  | auth
  | sign
  deriving DecidableEq, Repr, Inhabited

namespace Mode

/-- The name of a mode. -/
def name : Mode → String
  | .auth => "AUTH"
  | .sign => "SIGN"

instance : Wire Mode where
  toJson m := .string m.name
  ofTree? := Json.Tree.oneOf? [("AUTH", .auth), ("SIGN", .sign)]

end Mode

/-- A started order. -/
structure Handle where
  request : Request
  mode : Mode
  /-- The vendor's name for the order. -/
  reference : String
  /-- A short-lived token for a code to scan or a link. -/
  startToken : String := ""
  /-- A link that starts the authenticator on the user's own device. -/
  uri : String := ""
  deriving DecidableEq

namespace Handle

instance : Wire Handle where
  toJson h := .record [
    Json.field "req" (Wire.toJson h.request),
    Json.field "mode" (Wire.toJson h.mode),
    Json.field "ref" (.string h.reference),
    Json.field "inferred" (.string h.startToken),
    Json.field "URI" (.string h.uri)]
  ofTree? t := do
    let r ← Json.Record.ofTree? (Json.Fields.ofNames ["req", "mode", "ref", "inferred", "URI"]) t
    return {
      request := ← r.required "req" Wire.ofTree?
      mode := ← r.required "mode" Wire.ofTree?
      reference := ← r.required "ref" (·.text?)
      startToken := ← r.withDefault "inferred" "" (·.text?)
      uri := ← r.withDefault "URI" "" (·.text?) }

/-- The name of the provider that the order belongs to. -/
def providerName (h : Handle) : String := h.request.provider.name

end Handle

end OrderBroker.Order
