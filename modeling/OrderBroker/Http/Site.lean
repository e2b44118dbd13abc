import OrderBroker.Http.Message
import OrderBroker.Registry

/-!
# The site

The endpoints of the broker: the common operations under `/v1/eid`, BankID's own under `/bankid/v6`,
and the health checks. What a request leads to is an activity whose results are answers.

Every endpoint first reads its query, then its body, and only then looks for the provider and its
vendor.
-/

namespace OrderBroker.Http

/-- What the endpoints work with. -/
structure Site where
  registry : Registry
  style : StreamStyle
  deriving DecidableEq, Repr

/-- An endpoint that is read from. -/
inductive Page where
  | providers
  | health
  | liveness
  | readiness
  deriving DecidableEq, Repr

/-- An endpoint that something is sent to. -/
inductive Action where
  | auth
  | sign
  | peek
  | collect
  | change
  | cancel
  | bankIdAuth
  | bankIdSign
  | bankIdCollect
  | bankIdChange
  | bankIdCancel
  deriving DecidableEq, Repr

/-- An endpoint. -/
inductive Endpoint where
  | page (p : Page)
  | action (a : Action)
  deriving DecidableEq, Repr

namespace Endpoint

/-- The endpoints by path. -/
def table : List (String × Endpoint) := [
  ("/v1/eid/providers", .page .providers),
  ("/v1/eid/auth", .action .auth),
  ("/v1/eid/sign", .action .sign),
  ("/v1/eid/peek", .action .peek),
  ("/v1/eid/collect", .action .collect),
  ("/v1/eid/change", .action .change),
  ("/v1/eid/cancel", .action .cancel),
  ("/bankid/v6/auth", .action .bankIdAuth),
  ("/bankid/v6/sign", .action .bankIdSign),
  ("/bankid/v6/collect", .action .bankIdCollect),
  ("/bankid/v6/change", .action .bankIdChange),
  ("/bankid/v6/cancel", .action .bankIdCancel),
  ("/health", .page .health),
  ("/health/live", .page .liveness),
  ("/health/ready", .page .readiness)]

/-- The endpoint at a path. -/
def at? (path : String) : Option Endpoint := table.lookup path

/-- The methods that an endpoint takes. A page may also be asked for its head alone. -/
def methods : Endpoint → String
  | .page _ => "GET,HEAD"
  | .action _ => "POST"

end Endpoint

namespace Site

/-! ## Results as answers -/

/-- An answer that is there at once. -/
def now (r : Response) : Activity Message := .settled (.response r)

/-- The answers of an operation. -/
def respond {α : Type} (value : α → Response) (a : Activity (Except Failure α)) :
    Activity Message :=
  a.map fun result => .response (.ofResult value result)

/-- Reads the body and goes on with it. -/
def withBody {α : Type} (q : Request) (read : Json.Tree → Option α)
    (operation : α → Activity Message) : Activity Message :=
  match q.read read with
  | .ok a => operation a
  | .error p => now (.problem p)

/-- Reads a truth value of the query and goes on with it. -/
def withFlag (q : Request) (name : String) (operation : Bool → Activity Message) :
    Activity Message :=
  match Query.flag? q.query name with
  | some flag => operation flag
  | none => now .badQuery

/-- Goes on with BankID's client. -/
def withBankId (site : Site) (operation : BankId.Client → Activity Message) : Activity Message :=
  match site.registry.bankId with
  | some client => operation client
  | none => now (.problem (.ofFailure (.unknownProvider Vendor.bankId.name)))

/-! ## Endpoints -/

/-- The health of the broker and its vendors. -/
def health (site : Site) : Activity Message :=
  site.registry.reach.map fun r => .response (.document r.httpStatus (Wire.toJson r))

/-- Answers with a page. -/
def page (site : Site) : Page → Activity Message
  | .providers => now (.value (Order.ProviderList.mk site.registry.names))
  | .health | .readiness => site.health
  | .liveness => now (.value Liveness.ok)

/-- Starts a BankID order, and answers with its first code or with a stream of its progress. -/
def startBankId (site : Site) (q : Request)
    (start : BankId.Client → BankId.StartRequest →
      Except Failure (Exchange BankId.StartedOrder)) : Activity Message :=
  match Query.single? q.query "type" with
  | none => now .badQuery
  | some kind =>
    withBody q BankId.StartRequest.ofTree? fun request =>
      site.withBankId fun client =>
        match start client request with
        | .error failure => now (.problem (.ofFailure failure))
        | .ok x =>
          if kind = some "once" then
            respond (fun order => .value (BankId.QrCode.of order 0)) (.ofExchange (.ok x))
          else
            .orderStream client x.call
              (fun answer => match x.read answer with
                | .ok order => .ok order
                | .error failure => .error (.response (.problem (.ofFailure failure))))
              site.style (.response (.stream site.style.format)) .chunk

/-- Answers a question about a BankID order: once, or after a wait. -/
def collectBankId (client : BankId.Client) (query : BankId.CollectQuery) : Activity Message :=
  if query.waitForChange ∨ query.waitUntilFinished then
    respond .value
      (client.changeWith ⟨query.orderRef, query.waitUntilFinished⟩ false id)
  else respond .value (.ofExchange (client.collectOnce query.orderRef))

/-- Does what is asked for. -/
def act (site : Site) (q : Request) : Action → Activity Message
  | .auth => withBody q Wire.ofTree? fun r => respond .value (site.registry.auth r)
  | .sign => withBody q Wire.ofTree? fun r => respond .value (site.registry.sign r)
  | .peek => withBody q Wire.ofTree? fun h => respond .value (site.registry.peek h)
  | .collect =>
    withFlag q "cancelOnErr" fun cancelOnError =>
      withBody q Wire.ofTree? fun h => respond .value (site.registry.collect h cancelOnError)
  | .change =>
    withFlag q "cancelOnErr" fun cancelOnError =>
      withBody q Wire.ofTree? fun h => respond .value (site.registry.change h cancelOnError)
  | .cancel =>
    withBody q Wire.ofTree? fun h => respond (fun _ => .noContent) (site.registry.cancel h)
  | .bankIdAuth => site.startBankId q BankId.Client.auth
  | .bankIdSign => site.startBankId q BankId.Client.sign
  | .bankIdCollect =>
    withBody q BankId.CollectQuery.ofTree? fun query =>
      site.withBankId fun client => collectBankId client query
  | .bankIdChange =>
    withBody q Wire.ofTree? fun query =>
      site.withBankId fun client => respond .value (client.changeWith query false id)
  | .bankIdCancel =>
    withBody q Wire.ofTree? fun (name : BankId.OrderName) =>
      site.withBankId fun client =>
        respond (fun _ => .noContent) (.ofExchange (client.cancel name.orderRef))

/-- Lets an endpoint answer. -/
def serve (site : Site) (q : Request) : Endpoint → Activity Message
  | .page p =>
    if q.method = "GET" then site.page p
    else if q.method = "HEAD" then
      (site.page p).map (·.mapResponse fun r => { r with body := "" })
    else now (.wrongMethod (Endpoint.page p).methods)
  | .action a =>
    if q.method = "POST" then site.act q a else now (.wrongMethod (Endpoint.action a).methods)

/-- Finds the endpoint and lets it answer. Any path may be asked for the methods that it takes. -/
def route (site : Site) (q : Request) : Activity Message :=
  let endpoint := Endpoint.at? q.path
  if q.method = "OPTIONS" then now (.options (endpoint.map Endpoint.methods))
  else match endpoint with
    | some endpoint => site.serve q endpoint
    | none => now .noSuchPath

/-- What a request leads to. Every answer repeats the caller's name for the request. -/
def handle (site : Site) (q : Request) : Activity Message :=
  (site.route q).map (·.mapResponse fun r => { r with requestId := q.requestId })

end Site

end OrderBroker.Http
