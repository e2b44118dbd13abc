import OrderBroker.Base64
import OrderBroker.Json.Wire
import OrderBroker.Text.Uppercase

/-!
# Freja subjects

Whom a Freja order is addressed to: a person by number, telephone or email, or whoever scans the
code. A personal number travels with its country as base64 of a JSON record.
-/

namespace OrderBroker.Freja

/-- How a person is named. -/
inductive SubjectKind where
  | phone
  | email
  | ssn
  | inferred
  deriving DecidableEq, Repr, Inhabited

namespace SubjectKind

/-- The name of a kind. -/
def name : SubjectKind → String
  | .phone => "PHONE"
  | .email => "EMAIL"
  | .ssn => "SSN"
  | .inferred => "INFERRED"

instance : Wire SubjectKind where
  toJson k := .string k.name
  ofTree? := Json.Tree.oneOf?
    [("PHONE", .phone), ("EMAIL", .email), ("SSN", .ssn), ("INFERRED", .inferred)]

end SubjectKind

/-- A personal number and the country that gave it. -/
structure Ssn where
  country : String := ""
  ssn : String := ""
  deriving DecidableEq, Repr

namespace Ssn

instance : Wire Ssn where
  toJson s := .record [
    Json.field "country" (.string s.country),
    Json.field "ssn" (.string s.ssn)]
  ofTree? t := do
    let r ← Json.Record.ofTree? (Json.Fields.ofNames ["country", "ssn"]) t
    return { country := ← r.required "country" (·.text?), ssn := ← r.required "ssn" (·.text?) }

end Ssn

/-- Whom an order is addressed to. -/
structure Subject where
  kind : SubjectKind
  info : String
  deriving DecidableEq, Repr

namespace Subject

instance : Wire Subject where
  toJson s := .record [
    Json.field "userInfoType" (Wire.toJson s.kind),
    Json.field "userInfo" (.string s.info)]
  ofTree? t := do
    let r ← Json.Record.ofTree? (Json.Fields.ofNames ["userInfoType", "userInfo"]) t
    return {
      kind := ← r.required "userInfoType" Wire.ofTree?
      info := ← r.required "userInfo" (·.text?) }

/-- Whoever scans the code. -/
def inferred : Subject := ⟨.inferred, "N/A"⟩

/-- The person with this email address. -/
def email (email : String) : Subject := ⟨.email, email⟩

/-- The person with this telephone number. -/
def phone (phone : String) : Subject := ⟨.phone, phone⟩

/-- The person with this number, whose country is written in capitals. -/
def ssn (country ssn : String) : Subject :=
  ⟨.ssn, Base64.standard.encode
    (Wire.encode ({ country := Text.uppercase country, ssn } : Ssn)).toUTF8⟩

end Subject

end OrderBroker.Freja
