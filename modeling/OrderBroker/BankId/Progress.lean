import OrderBroker.Json.Wire
import OrderBroker.Order.Status

/-!
# BankID progress

What BankID is asked about a started order, what it tells, and how that reads in the common
vocabulary.
-/

namespace OrderBroker.BankId

/-! ## Questions -/

/-- Names an order. -/
structure OrderName where
  orderRef : String := ""
  deriving DecidableEq, Repr

namespace OrderName

instance : Wire OrderName where
  toJson n := .record [Json.field "orderRef" (.string n.orderRef)]
  ofTree? t := do
    let r ← Json.Record.ofTree? (Json.Fields.ofNames ["orderRef"]) t
    return { orderRef := ← r.withDefault "orderRef" "" (·.text?) }

end OrderName

/-- What is said of an order without a name. -/
def missingOrderRef : String := "missing order ref"

/-- Asks to wait until an order changes, or until it is over. -/
structure ChangeQuery where
  orderRef : String := ""
  untilFinished : Bool := false
  deriving DecidableEq, Repr

namespace ChangeQuery

instance : Wire ChangeQuery where
  toJson q := .record [
    Json.field "orderRef" (.string q.orderRef),
    Json.field "onFinished" (.bool q.untilFinished)]
  ofTree? t := do
    let r ← Json.Record.ofTree? (Json.Fields.ofNames ["orderRef", "onFinished"]) t
    return {
      orderRef := ← r.withDefault "orderRef" "" (·.text?)
      untilFinished := ← r.withDefault "onFinished" false (·.flag?) }

end ChangeQuery

/-- Asks about an order once, or waits for a change, or until it is over. -/
structure CollectQuery where
  orderRef : String := ""
  waitForChange : Bool := false
  waitUntilFinished : Bool := false
  deriving DecidableEq, Repr

/-- Reads a question as callers give it. -/
def CollectQuery.ofTree? (t : Json.Tree) : Option CollectQuery := do
  let r ← Json.Record.ofTree? (Json.Fields.ofNames
    ["orderRef", "waitForChange", "waitUntilFinished"]) t
  return {
    orderRef := ← r.withDefault "orderRef" "" (·.text?)
    waitForChange := ← r.withDefault "waitForChange" false (·.flag?)
    waitUntilFinished := ← r.withDefault "waitUntilFinished" false (·.flag?) }

/-! ## Answers -/

/-- The status of an order at BankID. A status of any other name is unknown. -/
inductive OrderStatus where
  | pending
  | complete
  | failed
  | unknown
  deriving DecidableEq, Repr, Inhabited

namespace OrderStatus

/-- The name of a status. -/
def name : OrderStatus → String
  | .pending => "pending"
  | .complete => "complete"
  | .failed => "failed"
  | .unknown => "unknown"

/-- The order is over. -/
def isFinished : OrderStatus → Bool
  | .complete | .failed => true
  | _ => false

instance : Wire OrderStatus where
  toJson s := .string s.name
  ofTree? := Json.Tree.oneOfOr?
    [("pending", .pending), ("complete", .complete), ("failed", .failed)] .unknown

end OrderStatus

/-- The user who approved an order. -/
structure User where
  personalNumber : String := ""
  name : String := ""
  givenName : String := ""
  surname : String := ""
  deriving DecidableEq, Repr

namespace User

instance : Wire User where
  toJson u := .record [
    Json.field "personalNumber" (.string u.personalNumber),
    Json.field "name" (.string u.name),
    Json.field "givenName" (.string u.givenName),
    Json.field "surname" (.string u.surname)]
  ofTree? t := do
    let r ← Json.Record.ofTree? (Json.Fields.ofNames
      ["personalNumber", "name", "givenName", "surname"]) t
    return {
      personalNumber := ← r.withDefault "personalNumber" "" (·.text?)
      name := ← r.withDefault "name" "" (·.text?)
      givenName := ← r.withDefault "givenName" "" (·.text?)
      surname := ← r.withDefault "surname" "" (·.text?) }

end User

/-- The device that the order was approved on. -/
structure Device where
  ipAddress : String := ""
  uhi : String := ""
  deriving DecidableEq, Repr

namespace Device

instance : Wire Device where
  toJson d := .record [
    Json.field "ipAddress" (.string d.ipAddress),
    Json.field "uhi" (.string d.uhi)]
  ofTree? t := do
    let r ← Json.Record.ofTree? (Json.Fields.ofNames ["ipAddress", "uhi"]) t
    return {
      ipAddress := ← r.withDefault "ipAddress" "" (·.text?)
      uhi := ← r.withDefault "uhi" "" (·.text?) }

end Device

/-- Whether the user's passport was read as well. -/
structure StepUp where
  mrtd : Bool := false
  deriving DecidableEq, Repr

namespace StepUp

instance : Wire StepUp where
  toJson s := .record [Json.field "mrtd" (.bool s.mrtd)]
  ofTree? t := do
    let r ← Json.Record.ofTree? (Json.Fields.ofNames ["mrtd"]) t
    return { mrtd := ← r.withDefault "mrtd" false (·.flag?) }

end StepUp

/-- What a complete order brought. -/
structure Completion where
  user : User := {}
  device : Device := {}
  bankIdIssueDate : String := ""
  stepUp : StepUp := {}
  signature : String := ""
  ocspResponse : String := ""
  deriving DecidableEq, Repr

namespace Completion

instance : Wire Completion where
  toJson c := .record [
    Json.field "user" (Wire.toJson c.user),
    Json.field "device" (Wire.toJson c.device),
    Json.field "bankIdIssueDate" (.string c.bankIdIssueDate),
    Json.field "stepUp" (Wire.toJson c.stepUp),
    Json.field "signature" (.string c.signature),
    Json.field "ocspResponse" (.string c.ocspResponse)]
  ofTree? t := do
    let r ← Json.Record.ofTree? (Json.Fields.ofNames
      ["user", "device", "bankIdIssueDate", "stepUp", "signature", "ocspResponse"]) t
    return {
      user := ← r.withDefault "user" {} Wire.ofTree?
      device := ← r.withDefault "device" {} Wire.ofTree?
      bankIdIssueDate := ← r.withDefault "bankIdIssueDate" "" (·.text?)
      stepUp := ← r.withDefault "stepUp" {} Wire.ofTree?
      signature := ← r.withDefault "signature" "" (·.text?)
      ocspResponse := ← r.withDefault "ocspResponse" "" (·.text?) }

end Completion

/-- What BankID tells of an order. -/
structure Progress where
  orderRef : String
  status : OrderStatus
  /-- Where the user stands, or why the order failed. -/
  hintCode : String := ""
  completion : Option Completion := none
  deriving DecidableEq, Repr

namespace Progress

instance : Wire Progress where
  toJson p := .record [
    Json.field "orderRef" (.string p.orderRef),
    Json.field "status" (Wire.toJson p.status),
    Json.field "hintCode" (.string p.hintCode),
    p.completion.map fun c => ("completionData", Wire.toJson c)]
  ofTree? t := do
    let r ← Json.Record.ofTree? (Json.Fields.ofNames
      ["orderRef", "status", "hintCode", "completionData"]) t
    return {
      orderRef := ← r.required "orderRef" (·.text?)
      status := ← r.required "status" Wire.ofTree?
      hintCode := ← r.withDefault "hintCode" "" (·.text?)
      completion := ← r.withDefault "completionData" none (Json.Record.nullable Wire.ofTree?) }

end Progress

/-- What BankID says when it refuses a request. -/
structure Refusal where
  errorCode : String := ""
  details : String := ""
  deriving DecidableEq, Repr

/-- Reads a refusal. -/
def Refusal.ofTree? (t : Json.Tree) : Option Refusal := do
  let r ← Json.Record.ofTree? (Json.Fields.ofNames ["errorCode", "details"]) t
  return {
    errorCode := ← r.withDefault "errorCode" "" (·.text?)
    details := ← r.withDefault "details" "" (·.text?) }

/-! ## In the common vocabulary -/

/-- The hint code of an order that the user is about to approve, whose code has been scanned. -/
def userSignHint : String := "userSign"

/-- The common status for BankID's status and hint. `userCancel` is the user's refusal, `cancelled`
the caller's. -/
def commonStatus (status : OrderStatus) (hint : String) : Order.Status :=
  match status with
  | .pending => if hint = "started" ∨ hint = userSignHint then .ongoing else .pending
  | .failed =>
    if hint = "expiredTransaction" then .expired
    else if hint = "userCancel" then .canceled
    else if hint = "cancelled" then .rpCanceled
    else if hint = "startFailed" then .startFailed
    else .failed
  | .complete => .approved
  | .unknown => .unknown

end OrderBroker.BankId
