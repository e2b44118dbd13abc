import OrderBroker.BankId.Client
import OrderBroker.Exchange
import OrderBroker.Freja.Result
import OrderBroker.Order.Handle
import OrderBroker.Stream.Format
import OrderBroker.Wait

/-!
# Activities

What has to be done for a caller, before any of it is done: nothing, one exchange with a vendor, a
wait that polls, and so on. An activity is a value, so that what a caller's wish leads to can be
read off: which requests may be sent, to whom, and what the caller gets for each answer.
-/

namespace OrderBroker

/-- How a BankID order is streamed. Times are in milliseconds. -/
structure StreamStyle where
  format : Stream.Format
  /-- The length of a tick. -/
  period : Nat
  deriving DecidableEq, Repr

/-- What has to be done for a caller who is given a `ρ`. -/
inductive Activity (ρ : Type) where
  /-- Nothing has to be done. -/
  | settled (result : ρ)
  /-- One request. -/
  | exchange (call : Call) (read : Answer → ρ)
  /-- Several requests at once. -/
  | survey (calls : List Call) (read : List Answer → ρ)
  /-- Polls an order. An abandoned order is cancelled by `cancel`. -/
  | wait (rule : Wait.Rule ρ) (question : Except ρ Call)
      (read : Answer → Except ρ (Sighting ρ)) (cancel : Option Call)
  /-- Waits for a result that Freja's poller finds. An abandoned order is cancelled by `cancel`. -/
  | collect (mode : Order.Mode) (reference : String) (read : Except Failure Freja.Result → ρ)
      (cancelsAbandoned : Bool) (cancel : Option Call)
  /-- Starts a BankID order and streams its progress: first `head`, then chunks. -/
  | orderStream (client : BankId.Client) (call : Call)
      (read : Answer → Except ρ BankId.StartedOrder) (style : StreamStyle) (head : ρ)
      (chunk : String → ρ)
  /-- Watches a BankID order: the items that `read` gives, and `closed` at the end. -/
  | watch (client : BankId.Client) (orderRef : String)
      (read : Except Failure BankId.Progress → ρ) (closed : ρ)

namespace Activity

variable {α ρ σ : Type}

/-- The sighting with another result. -/
def mapSighting (f : ρ → σ) (s : Sighting ρ) : Sighting σ :=
  { isOver := s.isOver, substate := s.substate, result := f s.result }

/-- What is read, or why nothing is, with another result. -/
def mapFailure (f : ρ → σ) : Except ρ α → Except σ α
  | .ok a => .ok a
  | .error r => .error (f r)

/-- The rule with another result. -/
def mapRule (f : ρ → σ) (rule : Wait.Rule ρ) : Wait.Rule σ where
  asksAtOnce := rule.asksAtOnce
  endsOnChange := rule.endsOnChange
  interval := rule.interval
  cancelsAbandoned := rule.cancelsAbandoned
  cancelled := f rule.cancelled

/-- The same activity for a caller who is given something else. -/
def map (f : ρ → σ) : Activity ρ → Activity σ
  | .settled result => .settled (f result)
  | .exchange call read => .exchange call (f ∘ read)
  | .survey calls read => .survey calls (f ∘ read)
  | .wait rule question read cancel =>
    .wait (mapRule f rule) (mapFailure f question)
      (fun answer => (mapFailure f (read answer)).map (mapSighting f)) cancel
  | .collect mode reference read cancelsAbandoned cancel =>
    .collect mode reference (f ∘ read) cancelsAbandoned cancel
  | .orderStream client call read style head chunk =>
    .orderStream client call (fun answer => mapFailure f (read answer)) style (f head) (f ∘ chunk)
  | .watch client orderRef read closed => .watch client orderRef (f ∘ read) (f closed)

/-- One exchange, unless the request may not be sent. -/
def ofExchange : Except Failure (Exchange α) → Activity (Except Failure α)
  | .ok x => .exchange x.call x.read
  | .error failure => .settled (.error failure)

/-- The request by which an order is cancelled, if it may be sent. -/
def cancelCall? (cancel : Except Failure (Exchange Unit)) : Option Call :=
  cancel.toOption.map (·.call)

/-- Polls an order by one question. -/
def polling (rule : Wait.Rule (Except Failure α)) (question : Except Failure (Exchange ρ))
    (sight : ρ → Sighting (Except Failure α)) (cancel : Except Failure (Exchange Unit)) :
    Activity (Except Failure α) :=
  match question with
  | .ok x =>
    .wait rule (.ok x.call)
      (fun answer => match x.read answer with
        | .ok a => .ok (sight a)
        | .error failure => .error (.error failure))
      (cancelCall? cancel)
  | .error failure =>
    .wait rule (.error (.error failure)) (fun _ => .error (.error failure)) (cancelCall? cancel)

end Activity

end OrderBroker
