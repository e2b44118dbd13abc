import OrderBroker.Base64
import OrderBroker.Bytes
import OrderBroker.Crypto.Hmac
import OrderBroker.Json.Wire
import OrderBroker.Text.Natural

/-!
# BankID orders

What BankID is told to start an order, and what it answers. Texts and bytes of an order are sent
as base64; the limits on them are limits on the length of that base64 text. Callers give the same
order as plain texts.
-/

namespace OrderBroker.BankId

/-! ## Requirements -/

/-- What the user or the user's device has to be. -/
structure Requirement where
  pinCode : Bool := false
  mrtd : Bool := false
  cardReader : String := ""
  certificatePolicies : List String := []
  personalNumber : String := ""
  deriving DecidableEq, Repr

namespace Requirement

instance : Wire Requirement where
  toJson q := .record [
    Json.fieldIf q.pinCode "pinCode" (.bool q.pinCode),
    Json.fieldIf q.mrtd "mrtd" (.bool q.mrtd),
    Json.fieldIf (q.cardReader ≠ "") "cardReader" (.string q.cardReader),
    Json.fieldIf (q.certificatePolicies ≠ []) "certificatePolicies"
      (.array (q.certificatePolicies.map .string)),
    Json.fieldIf (q.personalNumber ≠ "") "personalNumber" (.string q.personalNumber)]
  ofTree? t := do
    let r ← Json.Record.ofTree? (Json.Fields.ofNames
      ["pinCode", "mrtd", "cardReader", "certificatePolicies", "personalNumber"]) t
    return {
      pinCode := ← r.withDefault "pinCode" false (·.flag?)
      mrtd := ← r.withDefault "mrtd" false (·.flag?)
      cardReader := ← r.withDefault "cardReader" "" (·.text?)
      certificatePolicies := ← r.withDefault "certificatePolicies" [] (·.list? (·.text?))
      personalNumber := ← r.withDefault "personalNumber" "" (·.text?) }

end Requirement

/-! ## Starting an order -/

/-- An order to identify the user or to have something signed. -/
structure StartRequest where
  /-- The address of the user's device as the caller sees it. -/
  endUserIp : String := ""
  requirement : Requirement := {}
  /-- Shown to the user. -/
  visible : String := ""
  /-- Signed along, but not shown. -/
  hidden : ByteArray := .empty
  /-- How the visible text is set: plain where empty. -/
  format : String := ""
  deriving DecidableEq

/-- The one layout besides plain text that BankID knows. -/
def simpleMarkdown : String := "simpleMarkdownV1"

/-- Why an order may not be started. -/
inductive StartFault where
  | missingIp
  | invalidFormat
  | missingVisible
  | visibleTooLong (max : Nat)
  | hiddenTooLong (max : Nat)
  deriving DecidableEq, Repr

/-- The words for a fault. -/
def StartFault.text : StartFault → String
  | .missingIp => "missing ip address"
  | .invalidFormat => "invalid userVisibleDataFormat"
  | .missingVisible => "missing userVisibleData"
  | .visibleTooLong max => "userVisibleData is more than " ++ Text.decimal max ++ " characters long"
  | .hiddenTooLong max => "userNonVisibleData is more than " ++ Text.decimal max ++ " characters long"

namespace StartRequest

/-- Reads an order as callers give it: plain texts, the hidden one being its UTF-8 bytes. -/
def ofTree? (t : Json.Tree) : Option StartRequest := do
  let r ← Json.Record.ofTree? (Json.Fields.ofNames
    ["endUserIp", "requirement", "userVisibleData", "userNonVisibleData",
      "userVisibleDataFormat"]) t
  return {
    endUserIp := ← r.withDefault "endUserIp" "" (·.text?)
    requirement := ← r.withDefault "requirement" {} Wire.ofTree?
    visible := ← r.withDefault "userVisibleData" "" (·.text?)
    hidden := ← r.withDefault "userNonVisibleData" .empty fun t => t.text?.map String.toUTF8
    format := ← r.withDefault "userVisibleDataFormat" "" (·.text?) }

/-- The order as BankID is told it: a field is left out where it is empty. -/
def toJson (q : StartRequest) : Json := .record [
  Json.field "endUserIp" (.string q.endUserIp),
  Json.fieldIf (q.requirement ≠ {}) "requirement" (Wire.toJson q.requirement),
  Json.fieldIf (q.visible ≠ "") "userVisibleData"
    (.string (Base64.standard.encode q.visible.toUTF8)),
  Json.fieldIf (q.hidden.size ≠ 0) "userNonVisibleData" (.string (Base64.standard.encode q.hidden)),
  Json.fieldIf (q.format ≠ "") "userVisibleDataFormat" (.string q.format)]

/-- What holds for every order: there is an address, and the layout is known. -/
def checkCommon (q : StartRequest) : Except StartFault Unit :=
  if q.endUserIp = "" then .error .missingIp
  else if q.format ≠ "" ∧ q.format ≠ simpleMarkdown then .error .invalidFormat
  else .ok ()

/-- The base64 texts keep to their limits. -/
def checkLengths (q : StartRequest) (maxVisible maxHidden : Nat) : Except StartFault Unit :=
  if maxVisible < Base64.encodedLength q.visible.toUTF8 then .error (.visibleTooLong maxVisible)
  else if maxHidden < Base64.encodedLength q.hidden then .error (.hiddenTooLong maxHidden)
  else .ok ()

/-- The order may be started to identify the user. -/
def checkAuth (q : StartRequest) : Except StartFault Unit := do
  q.checkCommon
  q.checkLengths 1500 1500

/-- The order may be started to have something signed, which has to be shown. -/
def checkSign (q : StartRequest) : Except StartFault Unit := do
  q.checkCommon
  if q.visible = "" then .error .missingVisible
  q.checkLengths 40000 200000

end StartRequest

/-! ## A started order -/

/-- BankID's answer to a started order. -/
structure StartedOrder where
  orderRef : String
  autoStartToken : String
  qrStartToken : String := ""
  qrStartSecret : String := ""
  deriving DecidableEq, Repr

namespace StartedOrder

instance : Wire StartedOrder where
  toJson o := .record [
    Json.field "orderRef" (.string o.orderRef),
    Json.field "autoStartToken" (.string o.autoStartToken),
    Json.field "qrStartToken" (.string o.qrStartToken),
    Json.field "qrStartSecret" (.string o.qrStartSecret)]
  ofTree? t := do
    let r ← Json.Record.ofTree? (Json.Fields.ofNames
      ["orderRef", "autoStartToken", "qrStartToken", "qrStartSecret"]) t
    return {
      orderRef := ← r.required "orderRef" (·.text?)
      autoStartToken := ← r.required "autoStartToken" (·.text?)
      qrStartToken := ← r.withDefault "qrStartToken" "" (·.text?)
      qrStartSecret := ← r.withDefault "qrStartSecret" "" (·.text?) }

end StartedOrder

/-- The content of the code to scan, some seconds after the order was started: the start token, the
seconds, and a keyed digest of the seconds under the start secret. -/
def qrCode (startToken startSecret : String) (seconds : Nat) : String :=
  let time := Text.decimal seconds
  "bankid." ++ startToken ++ "." ++ time ++ "." ++
    (Crypto.hmacSha256 startSecret.toUTF8 time.toUTF8).hex

/-- The content of the order's code. -/
def StartedOrder.qrCode (o : StartedOrder) (seconds : Nat) : String :=
  BankId.qrCode o.qrStartToken o.qrStartSecret seconds

/-- A code to scan, with the link that starts the authenticator on the user's own device. -/
structure QrCode where
  orderRef : String
  uri : String
  qr : String
  deriving DecidableEq, Repr

namespace QrCode

instance : Wire QrCode where
  toJson c := .record [
    Json.field "orderRef" (.string c.orderRef),
    Json.field "uri" (.string c.uri),
    Json.field "qr" (.string c.qr)]
  ofTree? t := do
    let r ← Json.Record.ofTree? (Json.Fields.ofNames ["orderRef", "uri", "qr"]) t
    return {
      orderRef := ← r.required "orderRef" (·.text?)
      uri := ← r.required "uri" (·.text?)
      qr := ← r.required "qr" (·.text?) }

/-- The code of an order after some seconds. -/
def of (o : StartedOrder) (seconds : Nat) : QrCode :=
  ⟨o.orderRef, "bankid:///?autostarttoken=" ++ o.autoStartToken ++ "&redirect=null",
    o.qrCode seconds⟩

end QrCode

end OrderBroker.BankId
