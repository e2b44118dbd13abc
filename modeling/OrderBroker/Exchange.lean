import OrderBroker.Bytes
import OrderBroker.Failure

/-!
# Exchanges with vendors

One request to a vendor and the reading of its answer. What a client of a vendor offers is such an
exchange, or the failure of a request that may not be sent; when it is carried out is decided
elsewhere.
-/

namespace OrderBroker

/-- How a vendor is called. -/
inductive CallMethod where
  | get
  | post
  deriving DecidableEq, Repr

/-- The name of a method. -/
def CallMethod.name : CallMethod → String
  | .get => "GET"
  | .post => "POST"

/-- A request to a vendor. -/
structure Call where
  vendor : Vendor
  method : CallMethod
  url : String
  contentType : String := ""
  body : String := ""
  deriving DecidableEq, Repr

/-- What becomes of a request. -/
inductive Answer where
  | replied (status : Nat) (body : ByteArray)
  /-- There was no answer in time, or nobody to give one. -/
  | lost (reason : String)
  deriving DecidableEq

/-- A status of success. -/
def isSuccess (status : Nat) : Bool := 200 ≤ status ∧ status < 300

/-- A request and the reading of its answer. -/
structure Exchange (α : Type) where
  call : Call
  read : Answer → Except Failure α

namespace Exchange

variable {α β : Type}

/-- Goes on with what was read. -/
def andThen (x : Exchange α) (f : α → Except Failure β) : Exchange β :=
  ⟨x.call, fun answer => (x.read answer).bind f⟩

/-- Any answer will do. -/
def reach (vendor : Vendor) (url : String) : Exchange Unit where
  call := { vendor, method := .get, url }
  read
    | .replied _ _ => .ok ()
    | .lost reason => .error (.at vendor (.transport reason))

end Exchange

/-- An address without the slashes at its end. -/
def withoutSlashes (url : String) : String :=
  String.ofList (url.toList.reverse.dropWhile (· = '/')).reverse

end OrderBroker
