import OrderBroker.Failure
import OrderBroker.Freja.Result

/-!
# Collecting a Freja order

The caller's side of waiting for an order's final result: the order is registered with the poller,
and the poller's answer is the result. A caller may give up once the registration is in the queue.

Only a result keeps the order from being abandoned; an abandoned order is cancelled at Freja if the
caller wishes so.
-/

namespace OrderBroker.Freja

namespace Collect

/-- Where the collecting of an order stands. -/
inductive Phase where
  /-- The registration waits for room in the queue. -/
  | registering
  | waiting
  | over
  deriving DecidableEq, Repr

/-- What is done. -/
inductive Effect (ρ : Type) where
  /-- Registers with the poller. -/
  | register
  /-- Tells the poller that nobody waits any more. -/
  | leave
  | finish (result : ρ)
  /-- Cancels the order at Freja. -/
  | cancelOrder
  deriving DecidableEq, Repr

end Collect

/-- The collecting of an order. -/
structure Collect (ρ : Type) where
  /-- What the caller is given for the poller's answer. -/
  read : Except Failure Result → ρ
  /-- An abandoned order is cancelled at Freja. -/
  cancelsAbandoned : Bool
  phase : Collect.Phase := .registering
  /-- The caller has given up. -/
  givenUp : Bool := false

namespace Collect

variable {ρ : Type}

/-- Starts to collect. -/
def start (read : Except Failure Result → ρ) (cancelsAbandoned givenUp : Bool) :
    Collect ρ × List (Effect ρ) :=
  ({ read, cancelsAbandoned, givenUp }, [.register])

/-- Ends without a result. -/
def abandon (c : Collect ρ) (effects : List (Effect ρ)) : Collect ρ × List (Effect ρ) :=
  ({ c with phase := .over }, effects ++ if c.cancelsAbandoned then [.cancelOrder] else [])

/-- Ends because the caller has given up. -/
def cancel (c : Collect ρ) : Collect ρ × List (Effect ρ) :=
  c.abandon [.leave, .finish (c.read (.error (.at .freja .cancelled)))]

/-- The registration is in the queue. -/
def registered (c : Collect ρ) : Collect ρ × List (Effect ρ) :=
  match c.phase with
  | .registering => if c.givenUp then c.cancel else ({ c with phase := .waiting }, [])
  | _ => (c, [])

/-- The poller answers. -/
def answered (c : Collect ρ) (outcome : Except Failure Result) : Collect ρ × List (Effect ρ) :=
  match c.phase, outcome with
  | .over, _ => (c, [])
  | _, .ok result => ({ c with phase := .over }, [.finish (c.read (.ok result))])
  | _, .error failure => c.abandon [.finish (c.read (.error failure))]

/-- The caller gives up and waits for the result that says so. -/
def giveUp (c : Collect ρ) : Collect ρ × List (Effect ρ) :=
  match c.phase with
  | .registering => ({ c with givenUp := true }, [])
  | .waiting => c.cancel
  | .over => (c, [])

/-- The caller is gone. -/
def drop (c : Collect ρ) : Collect ρ × List (Effect ρ) :=
  match c.phase with
  | .over => (c, [])
  | _ => c.abandon [.leave]

end Collect

end OrderBroker.Freja
