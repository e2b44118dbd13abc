import OrderBroker.Order.Handle
import OrderBroker.Order.Status

/-!
# Outcomes

What is known of an order when its vendor is asked: the status and, for an approved order, who
approved it and the evidence.
-/

namespace OrderBroker.Order

/-- The answer to a question about an order. -/
structure Outcome where
  handle : Handle
  status : Status
  info : Person := .unknown
  signature : ByteArray := .empty
  /-- What only one vendor tells, sorted by key. -/
  extra : List (String × Json) := []

namespace Outcome

/-- An outcome that names nobody, for every status but an approval. -/
def withoutInfo (handle : Handle) (status : Status) : Outcome := { handle, status }

/-- A free-form object inside a record. -/
def extraOfTree? (t : Json.Tree) : Option (List (String × Json)) :=
  match Json.ofTree? (Json.maxDepth - 1) t with
  | some (.object members) => some members
  | _ => none

instance : Wire Outcome where
  toJson o := .record [
    Json.field "inter" (Wire.toJson o.handle),
    Json.field "status" (Wire.toJson o.status),
    Json.field "info" (Wire.toJson o.info),
    Json.field "signature" (bytesToJson o.signature),
    Json.fieldIf (!o.extra.isEmpty) "extra" (.object o.extra)]
  ofTree? t := do
    let r ← Json.Record.ofTree? (Json.Fields.ofNames ["inter", "status", "info", "signature", "extra"]) t
    return {
      handle := ← r.required "inter" Wire.ofTree?
      status := ← r.required "status" Wire.ofTree?
      info := ← r.withDefault "info" .unknown Wire.ofTree?
      signature := ← r.withDefault "signature" .empty bytesOfTree?
      extra := ← r.withDefault "extra" [] extraOfTree? }

end Outcome

/-- The names of the providers that take orders. -/
structure ProviderList where
  providers : List String
  deriving DecidableEq, Repr

namespace ProviderList

instance : Wire ProviderList where
  toJson p := .record [Json.field "providers" (.array (p.providers.map .string))]
  ofTree? t := do
    let r ← Json.Record.ofTree? (Json.Fields.ofNames ["providers"]) t
    return { providers := ← r.required "providers" (·.list? (·.text?)) }

end ProviderList

end OrderBroker.Order
