import OrderBroker.BankId.Provider
import OrderBroker.Config
import OrderBroker.Freja.Provider
import OrderBroker.Http.Health

/-!
# Registry

The providers that are enabled, and the way from a request or handle to the provider that it names.
A handle carries everything that is known of an order, so the registry keeps nothing between calls.
-/

namespace OrderBroker

open OrderBroker.Order (Request Handle Outcome)

/-- The enabled providers. -/
structure Registry where
  bankId : Option BankId.Client := none
  freja : Option Freja.Client := none
  deriving DecidableEq, Repr

/-- A provider. -/
inductive ProviderClient where
  | bankId (client : BankId.Client)
  | freja (client : Freja.Client)
  deriving DecidableEq, Repr

namespace ProviderClient

/-- The vendor of a provider. -/
def vendor : ProviderClient → Vendor
  | .bankId _ => .bankId
  | .freja _ => .freja

/-- The request that sees whether the provider can be reached. -/
def ping : ProviderClient → Exchange Unit
  | .bankId client => client.ping
  | .freja client => client.ping

end ProviderClient

namespace Registry

/-- The providers of a configuration. -/
def ofConfig (config : Config) : Except Failure Registry := do
  let bankId ← match config.bankId with
    | some settings => (BankId.Client.ofSettings settings).map some
    | none => .ok none
  let freja ← match config.freja with
    | some settings => (Freja.Client.ofSettings settings).map some
    | none => .ok none
  return { bankId, freja }

/-- Every provider, in the order of their names. -/
def providers (r : Registry) : List ProviderClient :=
  (r.bankId.map .bankId).toList ++ (r.freja.map .freja).toList

/-- The names of the providers. -/
def names (r : Registry) : List String := r.providers.map (·.vendor.name)

/-- The provider of a name. -/
def provider (r : Registry) (name : String) : Except Failure ProviderClient :=
  if name = "" then .error (.invalidRequest "provider.name is required")
  else match r.providers.find? (·.vendor.name = name) with
    | some p => .ok p
    | none => .error (.unknownProvider name)

/-- Does something at the provider of a name, or fails at once. -/
def atProvider {α : Type} (r : Registry) (name : String)
    (operation : ProviderClient → Activity (Except Failure α)) : Activity (Except Failure α) :=
  match r.provider name with
  | .ok p => operation p
  | .error failure => .settled (.error failure)

/-- Starts an order to identify the user. -/
def auth (r : Registry) (q : Request) : Activity (Except Failure Handle) :=
  r.atProvider q.provider.name fun
    | .bankId client => client.startAuth q
    | .freja client => client.startAuth q

/-- Starts an order to sign. -/
def sign (r : Registry) (q : Request) : Activity (Except Failure Handle) :=
  r.atProvider q.provider.name fun
    | .bankId client => client.startSign q
    | .freja client => client.startSign q

/-- Asks about an order once. -/
def peek (r : Registry) (h : Handle) : Activity (Except Failure Outcome) :=
  r.atProvider h.providerName fun
    | .bankId client => client.peekOrder h
    | .freja client => client.peekOrder h

/-- Waits until an order is over. -/
def collect (r : Registry) (h : Handle) (cancelOnError : Bool) :
    Activity (Except Failure Outcome) :=
  r.atProvider h.providerName fun
    | .bankId client => client.collectOrder h cancelOnError
    | .freja client => client.collectOrder h cancelOnError

/-- Waits until something about an order changes. -/
def change (r : Registry) (h : Handle) (cancelOnError : Bool) :
    Activity (Except Failure Outcome) :=
  r.atProvider h.providerName fun
    | .bankId client => client.changeOrder h cancelOnError
    | .freja client => client.changeOrder h cancelOnError

/-- Cancels an order. -/
def cancel (r : Registry) (h : Handle) : Activity (Except Failure Unit) :=
  r.atProvider h.providerName fun
    | .bankId client => client.cancelOrder h
    | .freja client => client.cancelOrder h

/-- Sees which providers can be reached. -/
def reach (r : Registry) : Activity Http.Readiness :=
  .survey (r.providers.map (·.ping.call)) fun answers =>
    Http.Readiness.ofReached
      ((r.providers.zip answers).map fun (p, answer) =>
        (p.vendor.name, (p.ping.read answer).isOk))

end Registry

end OrderBroker
