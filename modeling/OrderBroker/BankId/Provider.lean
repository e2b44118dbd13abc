import OrderBroker.Activity
import OrderBroker.Order.Outcome

/-!
# BankID as a provider

The common vocabulary in BankID's terms: what a request becomes, what handle an order has, and what
outcome its progress is. Who approved an order, and the evidence for it, is told of approved orders
only.
-/

namespace OrderBroker.BankId

open OrderBroker.Order (Request Person Handle Outcome Mode)

/-! ## Orders -/

/-- The person of a request, with an address. -/
def addressedPerson (q : Request) : Person :=
  let who := q.whoOrInferred
  { who with ip := some (who.ip.getD IpAddress.loopback) }

/-- The request as it is kept in the handle. -/
def keptRequest (q : Request) : Request := { q with who := some (addressedPerson q) }

/-- The order that a request stands for. -/
def startRequest (q : Request) : StartRequest :=
  let who := addressedPerson q
  { endUserIp := (who.ip.getD IpAddress.loopback).text
    requirement := if who.ssn = "" then {} else { personalNumber := who.ssn }
    visible := (q.payload.getD {}).text
    hidden := (q.payload.getD {}).data }

/-- The link that starts the authenticator on the user's own device. -/
def startLink (autoStartToken : String) : String := "bankid:///?autostarttoken=" ++ autoStartToken

/-- The handle of a started order. -/
def handleOf (q : Request) (mode : Mode) (order : StartedOrder) : Handle where
  request := keptRequest q
  mode := mode
  reference := order.orderRef
  startToken := order.autoStartToken
  uri := startLink order.autoStartToken

/-! ## Outcomes -/

/-- The date that a personal number starts with. -/
def birthDate? (personalNumber : String) : Option Date := do
  let bytes := personalNumber.toUTF8
  if bytes.size < 8 then none
  else
    let digits ← String.fromUTF8? (bytes.extract 0 8)
    Date.parseBy? Date.compact digits.toList

/-- Who approved an order. -/
def personOf (c : Completion) : Person where
  ssn := c.user.personalNumber
  ssnCountry := "SE"
  name := c.user.givenName
  surname := c.user.surname
  ip := IpAddress.parse? c.device.ipAddress
  dateOfBirth := birthDate? c.user.personalNumber

/-- The evidence for an approval. -/
def evidenceOf (c : Completion) : Json := .record [
  Json.field "ocspResponse" (.string c.ocspResponse),
  Json.field "signature" (.string c.signature)]

/-- What only BankID tells. -/
def extraOf (c : Completion) : List (String × Json) := [
  ("bankIdIssueDate", .string c.bankIdIssueDate),
  ("fullName", .string c.user.name),
  ("givenName", .string c.user.givenName)]

/-- The outcome that an order's progress is. -/
def outcomeOf (h : Handle) (p : Progress) : Outcome :=
  match commonStatus p.status p.hintCode with
  | .approved =>
    let c := p.completion.getD {}
    { handle := h, status := .approved, info := personOf c
      signature := (evidenceOf c).render.toUTF8, extra := extraOf c }
  | status => .withoutInfo h status

/-! ## Operations -/

/-- What a wait sees of an order's progress. -/
def sightingOf {α : Type} (result : Progress → α) (p : Progress) : Sighting (Except Failure α) where
  isOver := p.status.isFinished
  substate := p.hintCode
  result := .ok (result p)

/-- What a wait gives when its caller gives up. -/
def cancelled {α : Type} : Except Failure α := .error (.at .bankId .cancelled)

/-- The request failed because the order is over. -/
def saysOver : Failure → Bool
  | .at _ cause => cause.code? = some "invalidParameters"
  | _ => false

namespace Client

/-- Waits until an order is over. -/
def collectWith {α : Type} (c : Client) (orderRef : String) (cancelOnError : Bool)
    (result : Progress → α) : Activity (Except Failure α) :=
  .polling
    { asksAtOnce := false, endsOnChange := false, interval := c.pollInterval
      cancelsAbandoned := cancelOnError, cancelled }
    (c.collectOnce orderRef) (sightingOf result) (c.cancel orderRef)

/-- Waits until an order is over or, unless the caller wishes to wait for that, its hint code
changes. -/
def changeWith {α : Type} (c : Client) (q : ChangeQuery) (cancelOnError : Bool)
    (result : Progress → α) : Activity (Except Failure α) :=
  .polling
    { asksAtOnce := true, endsOnChange := !q.untilFinished, interval := c.pollInterval
      cancelsAbandoned := cancelOnError, cancelled }
    (c.collectOnce q.orderRef) (sightingOf result) (c.cancel q.orderRef)

/-- Starts an order to identify the user. -/
def startAuth (c : Client) (q : Request) : Activity (Except Failure Handle) :=
  (Activity.ofExchange (c.auth (startRequest q))).map (·.map (handleOf q .auth))

/-- Starts an order to sign. -/
def startSign (c : Client) (q : Request) : Activity (Except Failure Handle) :=
  (Activity.ofExchange (c.sign (startRequest q))).map (·.map (handleOf q .sign))

/-- Asks about an order once. -/
def peekOrder (c : Client) (h : Handle) : Activity (Except Failure Outcome) :=
  (Activity.ofExchange (c.collectOnce h.reference)).map (·.map (outcomeOf h))

/-- Waits until an order is over. -/
def collectOrder (c : Client) (h : Handle) (cancelOnError : Bool) :
    Activity (Except Failure Outcome) :=
  c.collectWith h.reference cancelOnError (outcomeOf h)

/-- Waits until an order is over or its hint code changes. -/
def changeOrder (c : Client) (h : Handle) (cancelOnError : Bool) :
    Activity (Except Failure Outcome) :=
  c.changeWith { orderRef := h.reference } cancelOnError (outcomeOf h)

/-- Cancels an order; one that is over counts as cancelled. -/
def cancelOrder (c : Client) (h : Handle) : Activity (Except Failure Unit) :=
  (Activity.ofExchange (c.cancel h.reference)).map fun
    | .error failure => if saysOver failure then .ok () else .error failure
    | .ok () => .ok ()

end Client

end OrderBroker.BankId
