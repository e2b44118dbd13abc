import OrderBroker.Text.Natural

/-!
# Failures

Every way in which an operation on an order fails. A failure is either the broker's own, when no
provider can be chosen, or one of a vendor's: a request that was refused before it was sent, an
answer that is an error, an answer that cannot be used, or no answer.

`Failure.kind` sorts failures into the few classes that callers tell apart, and `Failure.message`
is the one place where they are worded.
-/

namespace OrderBroker

/-- The vendors that orders are placed with. -/
inductive Vendor where
  | bankId
  | freja
  deriving DecidableEq, Repr

namespace Vendor

/-- The provider name that callers route by. -/
def name : Vendor → String
  | .bankId => "BankID"
  | .freja => "FrejaID"

/-- How the vendor is called in messages. -/
def tag : Vendor → String
  | .bankId => "bankid"
  | .freja => "freja"

end Vendor

/-- The classes of failures. -/
inductive FailureKind where
  /-- Refused before any request to a vendor. -/
  | validation
  | notFound
  /-- The vendor answered with an error. -/
  | vendor
  /-- The vendor did not answer. -/
  | transport
  /-- The vendor's answer cannot be used. -/
  | invalidResponse
  /-- The caller gave up. -/
  | cancelled
  | internal
  deriving DecidableEq, Repr

/-- Why an operation at a vendor failed. -/
inductive Cause where
  /-- The request is not one that may be sent. -/
  | validation (reason : String)
  /-- The vendor answered with an error status. -/
  | rejected (status : Nat) (code detail : String)
  /-- There was no answer. -/
  | transport (reason : String)
  /-- The answer is not what the vendor promises. -/
  | invalidResponse (reason : String)
  /-- The signature over the answer does not hold. -/
  | unverified (reason : String)
  /-- The connection to the vendor cannot be set up. -/
  | configuration (reason : String)
  /-- Nobody asks the vendor for results any more. -/
  | pollerStopped
  /-- The caller gave up. -/
  | cancelled
  deriving DecidableEq, Repr

/-- Why an operation failed. -/
inductive Failure where
  /-- No provider has this name. -/
  | unknownProvider (name : String)
  /-- The request does not say what to do. -/
  | invalidRequest (reason : String)
  /-- The operation failed at a vendor. -/
  | at (vendor : Vendor) (cause : Cause)
  deriving DecidableEq, Repr

namespace Cause

/-- The class of a cause. -/
def kind : Cause → FailureKind
  | .validation _ => .validation
  | .rejected .. => .vendor
  | .transport _ => .transport
  | .invalidResponse _ | .unverified _ => .invalidResponse
  | .configuration _ | .pollerStopped => .internal
  | .cancelled => .cancelled

/-- The words for a cause, after the vendor's tag. The vendors' errors are worded each in its own
way. -/
def text (vendor : Vendor) : Cause → String
  | .validation reason => "invalid request: " ++ reason
  | .rejected _ code detail =>
    match vendor with
    | .bankId => code ++ ", " ++ detail
    | .freja => "got code " ++ code ++ ", " ++ detail
  | .transport reason => "request failed: " ++ reason
  | .invalidResponse reason => "response was invalid: " ++ reason
  | .unverified reason => "JWS verification failed: " ++ reason
  | .configuration reason => "configuration error: " ++ reason
  | .pollerStopped => "poller is not running"
  | .cancelled => "operation cancelled by caller"

/-- The code of a vendor's error, unless it is empty. -/
def code? : Cause → Option String
  | .rejected _ code _ => if code = "" then none else some code
  | _ => none

end Cause

namespace Failure

/-- The class of a failure. -/
def kind : Failure → FailureKind
  | .unknownProvider _ => .notFound
  | .invalidRequest _ => .validation
  | .at _ cause => cause.kind

/-- The words for a failure. -/
def message : Failure → String
  | .unknownProvider name => "could not find eid provider " ++ name
  | .invalidRequest reason => "invalid request: " ++ reason
  | .at vendor cause => vendor.tag ++ ": " ++ cause.text vendor

/-- The vendor at which the operation failed. -/
def vendor? : Failure → Option Vendor
  | .at vendor _ => some vendor
  | _ => none

/-- The caller gave up. -/
def isCancelled (f : Failure) : Bool := f.kind = .cancelled

end Failure

end OrderBroker
