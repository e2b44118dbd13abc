import OrderBroker.Bytes
import OrderBroker.Freja.Subject
import OrderBroker.Order.Handle
import OrderBroker.Text.Ascii
import OrderBroker.Text.Natural

/-!
# Freja orders

What Freja is told to start an order. A request is a name, an equals sign and base64 of a JSON
record. Every mode has its own paths, request names and key for the reference of an order.
-/

namespace OrderBroker.Freja

/-! ## Requests on the wire -/

/-- The body of a request: its name and the base64 of its record. -/
def encodeBody (name : String) (record : Json) : String :=
  name ++ "=" ++ Base64.standard.encode record.render.toUTF8

/-- The paths and names of one mode. -/
structure Endpoints where
  init : String
  initRequest : String
  results : String
  resultsRequest : String
  resultsField : String
  oneResult : String
  oneResultRequest : String
  cancel : String
  cancelRequest : String
  /-- The key under which an order is named. -/
  refKey : String
  deriving DecidableEq, Repr

/-- The paths and names of identification orders. -/
def authEndpoints : Endpoints where
  init := "/authentication/1.0/initAuthentication"
  initRequest := "initAuthRequest"
  results := "/authentication/1.0/getResults"
  resultsRequest := "getAuthResultsRequest"
  resultsField := "authenticationResults"
  oneResult := "/authentication/1.0/getOneResult"
  oneResultRequest := "getOneAuthResultRequest"
  cancel := "/authentication/1.0/cancel"
  cancelRequest := "cancelAuthRequest"
  refKey := "authRef"

/-- The paths and names of signing orders. -/
def signEndpoints : Endpoints where
  init := "/sign/1.0/initSignature"
  initRequest := "initSignRequest"
  results := "/sign/1.0/getResults"
  resultsRequest := "getSignResultsRequest"
  resultsField := "signatureResults"
  oneResult := "/sign/1.0/getOneResult"
  oneResultRequest := "getOneSignResultRequest"
  cancel := "/sign/1.0/cancel"
  cancelRequest := "cancelSignRequest"
  refKey := "signRef"

/-- The paths and names of a mode. -/
def endpoints : Order.Mode → Endpoints
  | .auth => authEndpoints
  | .sign => signEndpoints

/-! ## Parts of orders -/

/-- How well a user must be known to Freja. -/
inductive RegistrationLevel where
  | basic
  | extended
  | plus
  deriving DecidableEq, Repr

namespace RegistrationLevel

instance : Inhabited RegistrationLevel := ⟨.extended⟩

/-- The name of a level. -/
def name : RegistrationLevel → String
  | .basic => "BASIC"
  | .extended => "EXTENDED"
  | .plus => "PLUS"

/-- The levels by name. -/
def named : List (String × RegistrationLevel) :=
  [("BASIC", .basic), ("EXTENDED", .extended), ("PLUS", .plus)]

instance : Wire RegistrationLevel where
  toJson l := .string l.name
  ofTree? := Json.Tree.oneOf? named

/-- The level of a name in either case, or what is said of a name that no level has. -/
def parse (text : String) : Except String RegistrationLevel :=
  let name := Text.asciiUpper text
  match named.lookup name with
  | some level => .ok level
  | none => .error ("unknown registration level " ++ name)

end RegistrationLevel

/-- What Freja tells about a user. -/
inductive Attribute where
  | basicUserInfo
  | emailAddress
  | dateOfBirth
  | ssn
  | relyingPartyUserId
  | integratorSpecificUserId
  | customIdentifier
  deriving DecidableEq, Repr, Inhabited

namespace Attribute

/-- The name of an attribute. -/
def name : Attribute → String
  | .basicUserInfo => "BASIC_USER_INFO"
  | .emailAddress => "EMAIL_ADDRESS"
  | .dateOfBirth => "DATE_OF_BIRTH"
  | .ssn => "SSN"
  | .relyingPartyUserId => "RELYING_PARTY_USER_ID"
  | .integratorSpecificUserId => "INTEGRATOR_SPECIFIC_USER_ID"
  | .customIdentifier => "CUSTOM_IDENTIFIER"

/-- Every attribute. -/
def all : List Attribute :=
  [.basicUserInfo, .emailAddress, .dateOfBirth, .ssn, .relyingPartyUserId,
    .integratorSpecificUserId, .customIdentifier]

/-- The attributes that every order asks for. -/
def defaults : List Attribute := [.basicUserInfo, .ssn, .dateOfBirth, .emailAddress]

instance : Wire Attribute where
  toJson a := .record [Json.field "attribute" (.string a.name)]
  ofTree? t := do
    let r ← Json.Record.ofTree? (Json.Fields.ofNames ["attribute"]) t
    r.required "attribute" (Json.Tree.oneOf? (all.map fun a => (a.name, a)))

end Attribute

/-- Attributes as they stand in an order: left out where there are none. -/
def attributesField (attributes : List Attribute) : Option (String × Json) :=
  Json.fieldIf (attributes ≠ []) "attributesToReturn" (.array (attributes.map Wire.toJson))

/-- Whether only a text is signed, or hidden bytes along with it. -/
inductive SignatureKind where
  | simple
  | extended
  deriving DecidableEq, Repr, Inhabited

namespace SignatureKind

/-- The name of a kind. -/
def name : SignatureKind → String
  | .simple => "SIMPLE"
  | .extended => "EXTENDED"

/-- What is said of the data to sign. -/
def dataKind : SignatureKind → String
  | .simple => "SIMPLE_UTF8_TEXT"
  | .extended => "EXTENDED_UTF8_TEXT"

instance : Wire SignatureKind where
  toJson k := .string k.name
  ofTree? := Json.Tree.oneOf? [("SIMPLE", .simple), ("EXTENDED", .extended)]

end SignatureKind

/-- A message on the user's device. -/
structure PushNotification where
  title : String
  text : String
  deriving DecidableEq, Repr

namespace PushNotification

instance : Wire PushNotification where
  toJson p := .record [
    Json.field "title" (.string p.title),
    Json.field "text" (.string p.text)]
  ofTree? t := do
    let r ← Json.Record.ofTree? (Json.Fields.ofNames ["title", "text"]) t
    return { title := ← r.required "title" (·.text?), text := ← r.required "text" (·.text?) }

end PushNotification

/-! ## Orders -/

/-- An order to identify a user. -/
structure AuthRequest where
  subject : Subject
  attributes : List Attribute := Attribute.defaults
  level : RegistrationLevel := default
  deriving DecidableEq, Repr

/-- The record of an identification order. -/
def AuthRequest.toJson (q : AuthRequest) : Json := .record [
  Json.field "userInfoType" (Wire.toJson q.subject.kind),
  Json.field "userInfo" (.string q.subject.info),
  attributesField q.attributes,
  Json.field "minRegistrationLevel" (Wire.toJson q.level)]

/-- What is signed: a text that is shown, and hidden bytes. -/
structure DataToSign where
  text : String := ""
  binary : ByteArray := .empty
  deriving DecidableEq

/-- The kind of signature follows from the data. -/
def DataToSign.kind (d : DataToSign) : SignatureKind :=
  if d.binary.size = 0 then .simple else .extended

/-- The record of the data: both parts in base64, the bytes only where there are any. -/
def DataToSign.toJson (d : DataToSign) : Json := .record [
  Json.field "text" (.string (Base64.standard.encode d.text.toUTF8)),
  Json.fieldIf (d.binary.size ≠ 0) "binaryData" (.string (Base64.standard.encode d.binary))]

/-- An order to have something signed. -/
structure SignRequest where
  subject : Subject
  data : DataToSign
  level : RegistrationLevel := default
  title : String := ""
  push : Option PushNotification := none
  /-- Milliseconds since the epoch. -/
  expiry : Option Int := none
  attributes : List Attribute := []
  deriving DecidableEq

/-- Why an order may not be started. -/
inductive SignFault where
  | inferredSubject
  | textTooLong
  | binaryTooLarge
  | titleTooLong
  deriving DecidableEq, Repr

/-- The longest text, in characters. -/
def maxText : Nat := 4096

/-- The most bytes. -/
def maxBinary : Nat := 5 * 1024 * 1024

/-- The longest title, in characters. -/
def maxTitle : Nat := 128

/-- The words for a fault. -/
def SignFault.text : SignFault → String
  | .inferredSubject => "inferred user info type is not allowed for signing"
  | .textTooLong => "text to sign exceeds " ++ Text.decimal maxText ++ " characters"
  | .binaryTooLarge => "binary data to sign exceeds " ++ Text.decimal maxBinary ++ " bytes"
  | .titleTooLong => "title exceeds " ++ Text.decimal maxTitle ++ " characters"

namespace SignRequest

/-- The record of a signing order. -/
def toJson (q : SignRequest) : Json := .record [
  Json.field "userInfoType" (Wire.toJson q.subject.kind),
  Json.field "userInfo" (.string q.subject.info),
  Json.field "minRegistrationLevel" (Wire.toJson q.level),
  Json.fieldIf (q.title ≠ "") "title" (.string q.title),
  q.push.map fun p => ("pushNotification", Wire.toJson p),
  q.expiry.map fun t => ("expiry", .number (.int t)),
  Json.field "signatureType" (Wire.toJson q.data.kind),
  Json.field "dataToSignType" (.string q.data.kind.dataKind),
  Json.field "dataToSign" q.data.toJson,
  attributesField q.attributes]

/-- The order names somebody and keeps to the limits. -/
def check (q : SignRequest) : Except SignFault Unit :=
  if q.subject.kind = .inferred then .error .inferredSubject
  else if maxText < q.data.text.length then .error .textTooLong
  else if maxBinary < q.data.binary.size then .error .binaryTooLarge
  else if maxTitle < q.title.length then .error .titleTooLong
  else .ok ()

end SignRequest

end OrderBroker.Freja
