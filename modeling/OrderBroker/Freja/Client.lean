import OrderBroker.Crypto.SignedToken
import OrderBroker.Exchange
import OrderBroker.Freja.Order
import OrderBroker.Freja.Result
import OrderBroker.Freja.Settings
import OrderBroker.Text.Blank
import OrderBroker.Text.Lossy

/-!
# Freja's requests

The requests that Freja takes: a named base64 record each way out, JSON each way back. A blank body
of an answer stands for an empty record. Where a verification key is configured, an approval counts
only if Freja's signature over it holds.
-/

namespace OrderBroker.Freja

/-- What is needed to call Freja. Times are in milliseconds. -/
structure Client where
  baseUrl : String
  pollInterval : Nat
  requestTimeout : Nat
  level : RegistrationLevel
  tokenKey : Option Crypto.TokenKey
  deriving DecidableEq, Repr

/-- A request that may not be sent. -/
def invalid (reason : String) : Failure := .at .freja (.validation reason)

/-- An answer that is not what Freja promises. -/
def unusable (reason : String) : Failure := .at .freja (.invalidResponse reason)

/-- Reads the text of a successful answer. -/
def readText {α : Type} (read : Json.Tree → Option α) (text : String) : Except Failure α :=
  let text := if Text.isBlankText text then "{}" else text
  match (Json.Tree.ofBytes? (Json.utf8 text)).bind read with
  | some a => .ok a
  | none => .error (unusable "the answer is not of the promised form")

/-- Reads an answer. -/
def readAnswer {α : Type} (read : Json.Tree → Option α) : Answer → Except Failure α
  | .lost reason => .error (.at .freja (.transport reason))
  | .replied status body =>
    if isSuccess status then readText read (Text.lossyText body)
    else .error (.at .freja (rejectionOf status (Text.lossyText body)))

/-- The name that an answer gives to a new order. -/
def referenceOf (key : String) (reply : Json) : Except Failure String :=
  match (reply.get? key).bind Json.text? with
  | some reference =>
    if reference = "" then .error (unusable ("missing " ++ key)) else .ok reference
  | none => .error (unusable ("missing " ++ key))

/-- The results in an answer; none where it does not mention them. -/
def resultsOf (field : String) (reply : Json) : Except Failure (List Result) :=
  match reply.get? field with
  | none => .ok []
  | some results =>
    match results.toTree.list? Wire.ofTree? with
    | some results => .ok results
    | none => .error (unusable "the results are not of the promised form")

namespace Client

/-- The client of valid settings. -/
def ofSettings (s : Settings) : Except Failure Client := do
  match s.tls.check with
  | .error fault => .error (.at .freja (.configuration fault.text))
  | .ok () =>
    let client : Client :=
      ⟨withoutSlashes s.baseUrl, s.pollInterval, s.requestTimeout, s.level, none⟩
    match s.tokenKey with
    | none => .ok client
    | some pem =>
      match Crypto.TokenKey.ofPem? pem with
      | some key => .ok { client with tokenKey := some key }
      | none =>
        .error (.at .freja (.configuration "invalid JWS public key: the PEM holds no RSA key"))

/-- Sends a record. -/
def post {α : Type} (c : Client) (path name : String) (record : Json)
    (read : Json.Tree → Option α) : Exchange α where
  call := {
    vendor := .freja, method := .post, url := c.baseUrl ++ path
    contentType := "text", body := encodeBody name record }
  read := readAnswer read

/-- Sees whether Freja answers at all. -/
def ping (c : Client) : Exchange Unit := Exchange.reach .freja c.baseUrl

/-- Starts an order to identify a user, which answers with the order's name. -/
def initAuth (c : Client) (q : AuthRequest) : Exchange String :=
  (c.post authEndpoints.init authEndpoints.initRequest q.toJson Wire.ofTree?).andThen
    (referenceOf authEndpoints.refKey)

/-- Starts an order to sign, which answers with the order's name. -/
def initSign (c : Client) (q : SignRequest) : Except Failure (Exchange String) :=
  match q.check with
  | .error fault => .error (invalid fault.text)
  | .ok () =>
    .ok ((c.post signEndpoints.init signEndpoints.initRequest q.toJson Wire.ofTree?).andThen
      (referenceOf signEndpoints.refKey))

/-- The record that names an order. -/
def orderName (mode : Order.Mode) (reference : String) : Except Failure Json :=
  let key := (endpoints mode).refKey
  if reference = "" then .error (invalid (key ++ " is required"))
  else .ok (.object [(key, .string reference)])

/-- Asks for the result of one order. -/
def oneResult (c : Client) (mode : Order.Mode) (reference : String) :
    Except Failure (Exchange Result) :=
  (orderName mode reference).map fun name =>
    c.post (endpoints mode).oneResult (endpoints mode).oneResultRequest name Wire.ofTree?

/-- The record that asks for every result there is. -/
def everyResult : Json := .object [("includePrevious", .string "ALL")]

/-- Asks for the results of all orders of the last ten minutes. -/
def allResults (c : Client) (mode : Order.Mode) : Exchange (List Result) :=
  (c.post (endpoints mode).results (endpoints mode).resultsRequest everyResult
    Wire.ofTree?).andThen (resultsOf (endpoints mode).resultsField)

/-- Cancels an order. The answer may be any JSON. -/
def cancel (c : Client) (mode : Order.Mode) (reference : String) :
    Except Failure (Exchange Unit) :=
  (orderName mode reference).map fun name =>
    c.post (endpoints mode).cancel (endpoints mode).cancelRequest name fun _ => some ()

/-- Checks Freja's signature over a result. Without a key every result is taken as it is. -/
def verify (c : Client) (result : Result) : Except Failure Unit :=
  match c.tokenKey with
  | none => .ok ()
  | some key =>
    match key.verify result.details with
    | .ok () => .ok ()
    | .error fault => .error (.at .freja (.unverified fault.text))

end Client

end OrderBroker.Freja
