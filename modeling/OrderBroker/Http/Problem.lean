import OrderBroker.Failure
import OrderBroker.Json.Wire

/-!
# Problem answers

The error body that every endpoint answers with, and the HTTP status and body of every failure. A
vendor's own error keeps the vendor's name, status, code and words; everything else is said in the
broker's name.
-/

namespace OrderBroker.Http

/-- The body of an error answer. -/
structure ErrorBody where
  /-- Who says so: the broker or one of the vendors. -/
  origin : String
  /-- The status of the vendor's answer, where the vendor refused. -/
  statusCode : Option Nat
  code : String
  detail : String
  deriving DecidableEq, Repr

namespace ErrorBody

instance : Wire ErrorBody where
  toJson b := .record [
    Json.field "origin" (.string b.origin),
    b.statusCode.map fun n => ("statusCode", .nat n),
    Json.field "code" (.string b.code),
    Json.field "detail" (.string b.detail)]
  ofTree? t := do
    let r ← Json.Record.ofTree? (Json.Fields.ofNames ["origin", "statusCode", "code", "detail"]) t
    return {
      origin := ← r.required "origin" (·.text?)
      statusCode := ← r.optional "statusCode" (·.natural? 65535)
      code := ← r.required "code" (·.text?)
      detail := ← r.required "detail" (·.text?) }

/-- The name under which the broker reports its own errors. -/
def brokerOrigin : String := "Twofer"

/-- The name under which a vendor's errors are reported. -/
def vendorOrigin : Vendor → String
  | .bankId => "BankIDv6"
  | .freja => "FrejaID"

end ErrorBody

/-- The HTTP status for a class of failures. -/
def statusOf : FailureKind → Nat
  | .validation => 400
  | .notFound => 404
  | .cancelled => 408
  | .vendor | .transport | .invalidResponse => 502
  | .internal => 500

/-- The code that an error body gives to a class of failures. -/
def codeOf : FailureKind → String
  | .validation => "invalidRequest"
  | .notFound => "notFound"
  | .vendor => "vendorError"
  | .transport => "transportError"
  | .invalidResponse => "invalidResponse"
  | .cancelled => "cancelled"
  | .internal => "internal"

/-- An error answer. -/
structure Problem where
  status : Nat
  body : ErrorBody
  deriving DecidableEq, Repr

namespace Problem

/-- An error in the broker's own name. -/
def own (status : Nat) (code detail : String) : Problem :=
  ⟨status, { origin := ErrorBody.brokerOrigin, statusCode := none, code, detail }⟩

/-- The request makes no sense. -/
def badRequest (detail : String) : Problem := own 400 "invalidRequest" detail

/-- There is no such thing. -/
def notFound (detail : String) : Problem := own 404 "notFound" detail

/-- The broker is at fault. -/
def internal (detail : String) : Problem := own 500 "internal" detail

/-- The answer for a failure. -/
def ofFailure (f : Failure) : Problem :=
  match f with
  | .at vendor (.rejected status code detail) =>
    ⟨statusOf .vendor,
      { origin := ErrorBody.vendorOrigin vendor, statusCode := some status, code, detail }⟩
  | .unknownProvider _ => own (statusOf f.kind) "providerNotFound" f.message
  | _ => own (statusOf f.kind) (codeOf f.kind) f.message

end Problem

end OrderBroker.Http
