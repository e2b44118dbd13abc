import OrderBroker.BankId.Order
import OrderBroker.BankId.Progress
import OrderBroker.BankId.Settings
import OrderBroker.Exchange
import OrderBroker.Text.Lossy

/-!
# BankID's requests

The five requests that BankID takes, all of them JSON both ways. An answer with an error status is
a refusal: with BankID's own code and words where its body gives a code, and otherwise with the body
itself.
-/

namespace OrderBroker.BankId

/-- What is needed to call BankID. Times are in milliseconds. -/
structure Client where
  baseUrl : String
  pollInterval : Nat
  requestTimeout : Nat
  deriving DecidableEq, Repr

/-- The failure that an answer with an error status is. -/
def refused (status : Nat) (body : String) : Failure :=
  match (Json.Tree.ofBytes? (Json.utf8 body)).bind Refusal.ofTree? with
  | some r =>
    if r.errorCode = "" then .at .bankId (.rejected status "" body)
    else .at .bankId (.rejected status r.errorCode r.details)
  | none => .at .bankId (.rejected status "" body)

/-- Reads an answer. -/
def readAnswer {α : Type} (read : Json.Tree → Option α) : Answer → Except Failure α
  | .lost reason => .error (.at .bankId (.transport reason))
  | .replied status body =>
    if isSuccess status then
      match (Json.Tree.ofBytes? body.data.toList).bind read with
      | some a => .ok a
      | none => .error (.at .bankId (.invalidResponse "the answer is not of the promised form"))
    else .error (refused status (Text.lossyText body))

/-- A request that may not be sent. -/
def invalid (reason : String) : Failure := .at .bankId (.validation reason)

/-- Where orders to identify the user are started. -/
def authPath : String := "/rp/v6.0/auth"

/-- Where orders to sign are started. -/
def signPath : String := "/rp/v6.0/sign"

/-- Where an order is asked about. -/
def collectPath : String := "/rp/v6.0/collect"

/-- Where an order is cancelled. -/
def cancelPath : String := "/rp/v6.0/cancel"

namespace Client

/-- The client of valid settings. -/
def ofSettings (s : Settings) : Except Failure Client :=
  match s.tls.check with
  | .ok () => .ok ⟨withoutSlashes s.baseUrl, s.pollInterval, s.requestTimeout⟩
  | .error fault => .error (.at .bankId (.configuration fault.text))

/-- Sends a document. -/
def post {α : Type} (c : Client) (path : String) (body : Json) (read : Json.Tree → Option α) :
    Exchange α where
  call := {
    vendor := .bankId, method := .post, url := c.baseUrl ++ path
    contentType := "application/json", body := body.render }
  read := readAnswer read

/-- Sees whether BankID answers at all. -/
def ping (c : Client) : Exchange Unit := Exchange.reach .bankId c.baseUrl

/-- Starts an order to identify the user. -/
def auth (c : Client) (q : StartRequest) : Except Failure (Exchange StartedOrder) :=
  match q.checkAuth with
  | .ok () => .ok (c.post authPath q.toJson Wire.ofTree?)
  | .error fault => .error (invalid fault.text)

/-- Starts an order to sign. -/
def sign (c : Client) (q : StartRequest) : Except Failure (Exchange StartedOrder) :=
  match q.checkSign with
  | .ok () => .ok (c.post signPath q.toJson Wire.ofTree?)
  | .error fault => .error (invalid fault.text)

/-- Asks about an order once. -/
def collectOnce (c : Client) (orderRef : String) : Except Failure (Exchange Progress) :=
  if orderRef = "" then .error (invalid missingOrderRef)
  else .ok (c.post collectPath (Wire.toJson (OrderName.mk orderRef)) Wire.ofTree?)

/-- Cancels an order. The answer may be any JSON. -/
def cancel (c : Client) (orderRef : String) : Except Failure (Exchange Unit) :=
  if orderRef = "" then .error (invalid missingOrderRef)
  else .ok (c.post cancelPath (Wire.toJson (OrderName.mk orderRef)) fun _ => some ())

end Client

end OrderBroker.BankId
