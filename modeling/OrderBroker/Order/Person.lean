import OrderBroker.Calendar.Date
import OrderBroker.Json.Wire
import OrderBroker.Net.IpAddress

/-!
# Persons

Whom an order is for, and who approved it. The same record carries the identifiers a caller names
and the identity that a vendor reports.
-/

namespace OrderBroker.Order

/-- The subject of an order, or the person who approved one. -/
structure Person where
  /-- The vendor finds out who it is, by a scanned code or a link on the user's own device. -/
  inferred : Bool := false
  ssn : String := ""
  /-- The two-letter country code of the number. -/
  ssnCountry : String := ""
  email : String := ""
  phone : String := ""
  name : String := ""
  surname : String := ""
  /-- The address of the user's device as the caller sees it. -/
  ip : Option IpAddress := none
  dateOfBirth : Option Date := none
  deriving DecidableEq, Repr

namespace Person

/-- A person about whom nothing is said. -/
def unknown : Person := {}

/-- No identifier is given. -/
def isAnonymous (p : Person) : Bool := p.ssn = "" ∧ p.email = "" ∧ p.phone = ""

/-- The fields in declared order. -/
def fields : Json.Fields :=
  Json.Fields.ofNames
    ["inferred", "ssn", "ssn_country", "email", "phone", "name", "surname", "ip", "date_of_birth"]

instance : Wire Person where
  toJson p := .record [
    Json.field "inferred" (.bool p.inferred),
    Json.field "ssn" (.string p.ssn),
    Json.field "ssn_country" (.string p.ssnCountry),
    Json.field "email" (.string p.email),
    Json.field "phone" (.string p.phone),
    Json.field "name" (.string p.name),
    Json.field "surname" (.string p.surname),
    p.ip.map fun ip => ("ip", .string ip.text),
    p.dateOfBirth.map fun d => ("date_of_birth", .string d.text)]
  ofTree? t := do
    let r ← Json.Record.ofTree? fields t
    return {
      inferred := ← r.withDefault "inferred" false (·.flag?)
      ssn := ← r.withDefault "ssn" "" (·.text?)
      ssnCountry := ← r.withDefault "ssn_country" "" (·.text?)
      email := ← r.withDefault "email" "" (·.text?)
      phone := ← r.withDefault "phone" "" (·.text?)
      name := ← r.withDefault "name" "" (·.text?)
      surname := ← r.withDefault "surname" "" (·.text?)
      ip := ← r.withDefault "ip" none
        (Json.Record.nullable fun t => t.text?.bind IpAddress.parse?)
      dateOfBirth := ← r.withDefault "date_of_birth" none
        (Json.Record.nullable fun t => t.text?.bind Date.parse?) }

end Person

end OrderBroker.Order
