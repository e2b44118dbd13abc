import OrderBroker.Failure
import OrderBroker.Freja.Subject
import OrderBroker.Order.Status

/-!
# Freja results

What Freja tells of an order, how that reads in the common vocabulary, and what Freja says when it
refuses a request.
-/

namespace OrderBroker.Freja

/-! ## Results -/

/-- The status of an order at Freja. A status of any other name is unknown. -/
inductive ResultStatus where
  | started
  | deliveredToMobile
  | canceled
  | rpCanceled
  | expired
  | approved
  | rejected
  | unknown
  deriving DecidableEq, Repr, Inhabited

namespace ResultStatus

/-- The name of a status. -/
def name : ResultStatus → String
  | .started => "STARTED"
  | .deliveredToMobile => "DELIVERED_TO_MOBILE"
  | .canceled => "CANCELED"
  | .rpCanceled => "RP_CANCELED"
  | .expired => "EXPIRED"
  | .approved => "APPROVED"
  | .rejected => "REJECTED"
  | .unknown => "UNKNOWN"

/-- The statuses that Freja knows. -/
def known : List ResultStatus :=
  [.started, .deliveredToMobile, .canceled, .rpCanceled, .expired, .approved, .rejected]

/-- Freja will not move the order any further. -/
def isFinal : ResultStatus → Bool
  | .canceled | .rpCanceled | .expired | .approved | .rejected => true
  | _ => false

/-- The common status. -/
def common : ResultStatus → Order.Status
  | .started | .deliveredToMobile => .pending
  | .canceled => .canceled
  | .rpCanceled => .rpCanceled
  | .expired => .expired
  | .approved => .approved
  | .rejected => .rejected
  | .unknown => .unknown

instance : Wire ResultStatus where
  toJson s := .string s.name
  ofTree? := Json.Tree.oneOfOr? (known.map fun s => (s.name, s)) .unknown

end ResultStatus

/-- A user's name. -/
structure BasicUserInfo where
  name : String := ""
  surname : String := ""
  deriving DecidableEq, Repr

namespace BasicUserInfo

instance : Wire BasicUserInfo where
  toJson b := .record [
    Json.field "name" (.string b.name),
    Json.field "surname" (.string b.surname)]
  ofTree? t := do
    let r ← Json.Record.ofTree? (Json.Fields.ofNames ["name", "surname"]) t
    return {
      name := ← r.withDefault "name" "" (·.text?)
      surname := ← r.withDefault "surname" "" (·.text?) }

end BasicUserInfo

/-- What Freja tells about a user. -/
structure Attributes where
  basicUserInfo : BasicUserInfo := {}
  emailAddress : String := ""
  dateOfBirth : String := ""
  customIdentifier : String := ""
  ssn : Ssn := {}
  relyingPartyUserId : String := ""
  integratorSpecificUserId : String := ""
  deriving DecidableEq, Repr

namespace Attributes

instance : Wire Attributes where
  toJson a := .record [
    Json.field "basicUserInfo" (Wire.toJson a.basicUserInfo),
    Json.field "emailAddress" (.string a.emailAddress),
    Json.field "dateOfBirth" (.string a.dateOfBirth),
    Json.field "customIdentifier" (.string a.customIdentifier),
    Json.field "ssn" (Wire.toJson a.ssn),
    Json.field "relyingPartyUserId" (.string a.relyingPartyUserId),
    Json.field "integratorSpecificUserId" (.string a.integratorSpecificUserId)]
  ofTree? t := do
    let r ← Json.Record.ofTree? (Json.Fields.ofNames
      ["basicUserInfo", "emailAddress", "dateOfBirth", "customIdentifier", "ssn",
        "relyingPartyUserId", "integratorSpecificUserId"]) t
    return {
      basicUserInfo := ← r.withDefault "basicUserInfo" {} Wire.ofTree?
      emailAddress := ← r.withDefault "emailAddress" "" (·.text?)
      dateOfBirth := ← r.withDefault "dateOfBirth" "" (·.text?)
      customIdentifier := ← r.withDefault "customIdentifier" "" (·.text?)
      ssn := ← r.withDefault "ssn" {} Wire.ofTree?
      relyingPartyUserId := ← r.withDefault "relyingPartyUserId" "" (·.text?)
      integratorSpecificUserId := ← r.withDefault "integratorSpecificUserId" "" (·.text?) }

end Attributes

/-- What Freja tells of an order. -/
structure Result where
  /-- The order's name, under the key of either mode. -/
  reference : String := ""
  status : ResultStatus := .unknown
  attributes : Attributes := {}
  /-- The result once more, signed by Freja. -/
  details : String := ""
  deriving DecidableEq, Repr

namespace Result

/-- The fields of a result: its reference goes by the keys of both modes. -/
def fields : Json.Fields :=
  [⟨"authRef", ["signRef"]⟩, ⟨"status", []⟩, ⟨"requestedAttributes", []⟩, ⟨"details", []⟩]

instance : Wire Result where
  toJson o := .record [
    Json.field "authRef" (.string o.reference),
    Json.field "status" (Wire.toJson o.status),
    Json.field "requestedAttributes" (Wire.toJson o.attributes),
    Json.field "details" (.string o.details)]
  ofTree? t := do
    let r ← Json.Record.ofTree? fields t
    return {
      reference := ← r.withDefault "authRef" "" (·.text?)
      status := ← r.withDefault "status" .unknown Wire.ofTree?
      attributes := ← r.withDefault "requestedAttributes" {} Wire.ofTree?
      details := ← r.withDefault "details" "" (·.text?) }

end Result

/-! ## Refusals -/

/-- What Freja says when it refuses a request. The code may be anything. -/
structure Refusal where
  code : Json := .null
  message : String := ""

namespace Refusal

/-- Reads a refusal. -/
def ofTree? (t : Json.Tree) : Option Refusal := do
  let r ← Json.Record.ofTree? (Json.Fields.ofNames ["code", "message"]) t
  return {
    code := ← r.withDefault "code" .null (Json.ofTree? (Json.maxDepth - 1))
    message := ← r.withDefault "message" "" (·.text?) }

/-- The code as a 32-bit number, given as one or as its decimal text. -/
def codeNumber? (r : Refusal) : Option Nat :=
  match r.code with
  | .number (.int i) => if 0 ≤ i ∧ i < UInt32.size then some i.toNat else none
  | .string s => (Text.readNatural (UInt32.size - 1) s).toOption
  | _ => none

end Refusal

/-- What the documented codes mean. -/
def codeDescriptions : List (Nat × String) := [
  (1001, "Invalid or missing userInfoType."),
  (1002, "Invalid or missing userInfo."),
  (1003, "Invalid restrict."),
  (1004, "You are not allowed to call this method."),
  (1005, "User has disabled your service."),
  (1007, "Invalid min registration level."),
  (1008, "Unknown Relying Party."),
  (1009, "You are not allowed to request integratorSpecificUserId parameter."),
  (1010, "JSON request cannot be parsed."),
  (1012, "User with the specified userInfo does not exist in Freja eID database."),
  (1100, "Invalid reference (for example, nonexistent or expired)."),
  (1200, "Invalid or missing includePrevious parameter."),
  (2000, "Authentication request failed. Previous authentication request was rejected due to security reasons."),
  (2002, "Invalid attributesToReturn parameter."),
  (2003, "Custom identifier has to exist when it is requested."),
  (3000, "Invalid or missing dataToSignType."),
  (3001, "Invalid or missing dataToSign."),
  (3002, "Invalid or missing signatureType."),
  (3003, "Invalid expiry time."),
  (3004, "Invalid push notification."),
  (3005, "Invalid attributesToReturn parameter."),
  (3006, "Custom identifier has to exist when it is requested."),
  (3007, "Invalid title.")]

/-- What a documented code means. -/
def describe? (code : Nat) : Option String := codeDescriptions.lookup code

/-- The error that an answer with an error status makes. A body that is a refusal with a code gives
the code in decimal, or as its JSON text where it is no 32-bit number, and the message, or the
meaning of the code where there is none. Any other body is the message itself. -/
def rejectionOf (status : Nat) (body : String) : Cause :=
  match (Json.Tree.ofBytes? (Json.utf8 body)).bind Refusal.ofTree? with
  | none => .rejected status "" body
  | some r =>
    match r.code with
    | .null => .rejected status "" body
    | code =>
      let number := r.codeNumber?
      let text := match number with
        | some n => Text.decimal n
        | none => code.render
      let message := match r.message, number.bind describe? with
        | "", some description => description
        | message, _ => message
      .rejected status text message

end OrderBroker.Freja
