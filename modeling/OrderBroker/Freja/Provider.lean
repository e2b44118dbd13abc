import OrderBroker.Activity
import OrderBroker.Freja.Client
import OrderBroker.Order.Outcome

/-!
# Freja as a provider

The common vocabulary in Freja's terms: whom an order is addressed to, what handle it has, and what
outcome a result is. Who approved an order, and the evidence for it, is told of approved orders
only, and only after the signature over the result was checked.
-/

namespace OrderBroker.Freja

open OrderBroker.Order (Request Person Handle Outcome Mode)

/-! ## Orders -/

/-- The person named by number, telephone or email, the first of them that is given. A number
counts only with its country. -/
def addressedSubject? (who : Person) : Option Subject :=
  if who.ssnCountry ≠ "" ∧ who.ssn ≠ "" then some (.ssn who.ssnCountry who.ssn)
  else if who.phone ≠ "" then some (.phone who.phone)
  else if who.email ≠ "" then some (.email who.email)
  else none

/-- Whom an identification order is addressed to: whoever scans the code, unless somebody is
named. -/
def authSubject (who : Person) : Subject :=
  if who.inferred then .inferred else (addressedSubject? who).getD .inferred

/-- A byte of a form value: letters, digits and four signs stand for themselves, a blank becomes a
plus sign, and everything else is written in hexadecimal. -/
def formByte (b : UInt8) : List Char :=
  let c := Char.ofNat b.toNat
  if c.isAlphanum || c == '*' || c == '-' || c == '.' || c == '_' then [c]
  else if c = ' ' then ['+']
  else
    let digit (n : Nat) : Char := Char.ofNat (if n < 10 then 48 + n else 55 + n)
    ['%', digit (b.toNat / 16), digit (b.toNat % 16)]

/-- A text as a form value. -/
def formValue (text : String) : String :=
  String.ofList (text.toUTF8.data.toList.flatMap formByte)

/-- The link that starts the authenticator on the user's own device. -/
def startLink (reference : String) : String :=
  "frejaeid://bindUserToTransaction?transactionReference=" ++ formValue reference

/-- The request as it is kept in the handle. -/
def keptRequest (q : Request) : Request := { q with who := some q.whoOrInferred }

/-- The handle of a started order. -/
def handleOf (q : Request) (mode : Mode) (reference : String) : Handle where
  request := keptRequest q
  mode := mode
  reference := reference
  startToken := reference
  uri := startLink reference

/-- What is said of an order to sign that is addressed to nobody. -/
def missingSubject : String := "ssn, phone or email must be supplied for signing"

/-- The data of a payload. -/
def dataOf (q : Request) : DataToSign :=
  match q.payload with
  | some payload => { text := payload.text, binary := payload.data }
  | none => {}

/-! ## Outcomes -/

/-- Who approved an order. -/
def personOf (a : Attributes) : Person where
  ssn := a.ssn.ssn
  ssnCountry := a.ssn.country
  email := a.emailAddress
  name := a.basicUserInfo.name
  surname := a.basicUserInfo.surname
  dateOfBirth := Date.parseBy? Date.hyphened a.dateOfBirth.toList

/-- The outcome that a result is. -/
def outcomeOf (c : Client) (h : Handle) (result : Result) : Except Failure Outcome :=
  match result.status.common with
  | .approved =>
    match c.verify result with
    | .ok () =>
      .ok { handle := h, status := .approved, info := personOf result.attributes
            signature := result.details.toUTF8 }
    | .error failure => .error failure
  | status => .ok (.withoutInfo h status)

/-! ## Operations -/

/-- What a wait sees of a result. -/
def sightingOf (c : Client) (h : Handle) (result : Result) : Sighting (Except Failure Outcome) where
  isOver := result.status.isFinal
  substate := result.status.name
  result := outcomeOf c h result

/-- The request failed because the order is over or unknown. -/
def saysOver : Failure → Bool
  | .at _ cause => cause.code? = some "1100"
  | _ => false

namespace Client

/-- Starts an order to identify the user. -/
def startAuth (c : Client) (q : Request) : Activity (Except Failure Handle) :=
  (Activity.ofExchange (.ok (c.initAuth {
    subject := authSubject q.whoOrInferred, level := c.level }))).map (·.map (handleOf q .auth))

/-- The order that a request to sign stands for. -/
def signRequest (c : Client) (q : Request) : Except Failure SignRequest :=
  match addressedSubject? q.whoOrInferred with
  | some subject =>
    .ok { subject, data := dataOf q, level := c.level, attributes := Attribute.defaults }
  | none => .error (invalid missingSubject)

/-- Starts an order to sign. -/
def startSign (c : Client) (q : Request) : Activity (Except Failure Handle) :=
  (Activity.ofExchange ((c.signRequest q).bind c.initSign)).map (·.map (handleOf q .sign))

/-- Asks about an order once. -/
def peekOrder (c : Client) (h : Handle) : Activity (Except Failure Outcome) :=
  (Activity.ofExchange (c.oneResult h.mode h.reference)).map (·.bind (outcomeOf c h))

/-- Waits for the final result of an order. -/
def collectOrder (c : Client) (h : Handle) (cancelOnError : Bool) :
    Activity (Except Failure Outcome) :=
  .collect h.mode h.reference (·.bind (outcomeOf c h)) cancelOnError
    (Activity.cancelCall? (c.cancel h.mode h.reference))

/-- Waits until an order is over or its status changes. -/
def changeOrder (c : Client) (h : Handle) (cancelOnError : Bool) :
    Activity (Except Failure Outcome) :=
  .polling
    { asksAtOnce := true, endsOnChange := true, interval := c.pollInterval
      cancelsAbandoned := cancelOnError, cancelled := .error (.at .freja .cancelled) }
    (c.oneResult h.mode h.reference) (sightingOf c h) (c.cancel h.mode h.reference)

/-- Cancels an order; one that is over or unknown counts as cancelled. -/
def cancelOrder (c : Client) (h : Handle) : Activity (Except Failure Unit) :=
  (Activity.ofExchange (c.cancel h.mode h.reference)).map fun
    | .error failure => if saysOver failure then .ok () else .error failure
    | .ok () => .ok ()

end Client

end OrderBroker.Freja
