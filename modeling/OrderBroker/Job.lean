import OrderBroker.Activity
import OrderBroker.BankId.Watch
import OrderBroker.Freja.Collect
import OrderBroker.Http.OrderStream

/-!
# Jobs

An activity under way. A job takes what happens to it, one thing at a time: an answer from a vendor
or from Freja's poller, time that has passed, its caller's giving up or leaving. Every time it says
what it does: sends a request, registers with the poller, gives its result.

A job that gives a stream of items keeps them until they are taken.
-/

namespace OrderBroker

namespace Job

/-- What a job does. -/
inductive Effect (ρ : Type) where
  /-- Sends a request, whose answer comes back under the number. -/
  | send (slot : Nat) (call : Call)
  /-- Sends a request whose answer nobody waits for. -/
  | sendAway (call : Call)
  /-- Registers for an order's result. -/
  | register (mode : Order.Mode) (reference : String)
  /-- Does not wait for the result any more. -/
  | leave (mode : Order.Mode)
  /-- Gives what comes before a stream of items. -/
  | head (result : ρ)
  /-- Gives the result. -/
  | finish (result : ρ)

end Job

/-- An activity under way. -/
inductive Job (ρ : Type) where
  | over
  | exchange (read : Answer → ρ)
  /-- The answers to several requests, as far as they have come. -/
  | survey (answers : List (Option Answer)) (read : List Answer → ρ)
  | wait (w : Wait ρ) (question : Except ρ Call) (read : Answer → Except ρ (Sighting ρ))
      (cancel : Option Call)
  | collect (c : Freja.Collect ρ) (mode : Order.Mode) (reference : String) (cancel : Option Call)
  /-- A BankID order that is being started. -/
  | startStream (client : BankId.Client) (read : Answer → Except ρ BankId.StartedOrder)
      (style : StreamStyle) (head : ρ) (chunk : String → ρ)
  | stream (client : BankId.Client) (s : Http.OrderStream) (head : ρ) (chunk : String → ρ)
  /-- A watch that asks its first question. -/
  | startWatch (client : BankId.Client) (orderRef : String)
      (read : Except Failure BankId.Progress → ρ) (closed : ρ) (stopped : Bool)
  | watch (client : BankId.Client) (orderRef : String) (w : BankId.Watch)
      (read : Except Failure BankId.Progress → ρ) (closed : ρ)

namespace Job

variable {ρ : Type}

/-! ## Passing effects on -/

/-- The effects of a wait. -/
def waitEffects (question : Except ρ Call) (cancel : Option Call) :
    List (Wait.Effect ρ) → List (Effect ρ)
  | [] => []
  | .ask :: rest =>
    match question with
    | .ok call => .send 0 call :: waitEffects question cancel rest
    | .error _ => waitEffects question cancel rest
  | .finish result :: rest => .finish result :: waitEffects question cancel rest
  | .cancelOrder :: rest => (cancel.map .sendAway).toList ++ waitEffects question cancel rest

/-- A wait that has moved. A question that may not be sent is answered at once. -/
def ofWait (now : Nat) (question : Except ρ Call) (read : Answer → Except ρ (Sighting ρ))
    (cancel : Option Call) (step : Wait ρ × List (Wait.Effect ρ)) : Job ρ × List (Effect ρ) :=
  let (w, effects) := step
  match w.phase, question with
  | .asking, .error failure =>
    let (w, more) := w.answered now (.error failure)
    (.wait w question read cancel, waitEffects question cancel (effects ++ more))
  | _, _ => (.wait w question read cancel, waitEffects question cancel effects)

/-- The effects of the collecting of an order. -/
def collectEffects (mode : Order.Mode) (reference : String) (cancel : Option Call) :
    List (Freja.Collect.Effect ρ) → List (Effect ρ)
  | [] => []
  | .register :: rest => .register mode reference :: collectEffects mode reference cancel rest
  | .leave :: rest => .leave mode :: collectEffects mode reference cancel rest
  | .finish result :: rest => .finish result :: collectEffects mode reference cancel rest
  | .cancelOrder :: rest =>
    (cancel.map .sendAway).toList ++ collectEffects mode reference cancel rest

/-- The collecting of an order that has moved. -/
def ofCollect (mode : Order.Mode) (reference : String) (cancel : Option Call)
    (step : Freja.Collect ρ × List (Freja.Collect.Effect ρ)) : Job ρ × List (Effect ρ) :=
  (.collect step.1 mode reference cancel, collectEffects mode reference cancel step.2)

/-- A stream that has moved, and may ask. -/
def ofStream (now : Nat) (client : BankId.Client) (head : ρ) (chunk : String → ρ)
    (s : Http.OrderStream) (asks : Bool) : Job ρ × List (Effect ρ) :=
  if asks then
    match client.collectOnce s.order.orderRef with
    | .ok x => (.stream client s head chunk, [.send 0 x.call])
    | .error failure => (.stream client (s.answered now (.error failure)) head chunk, [])
  else (.stream client s head chunk, [])

/-- A watch that has moved, and may ask. -/
def ofWatch (now : Nat) (client : BankId.Client) (orderRef : String)
    (read : Except Failure BankId.Progress → ρ) (closed : ρ) (w : BankId.Watch) (asks : Bool) :
    Job ρ × List (Effect ρ) :=
  if asks then
    match client.collectOnce orderRef with
    | .ok x => (.watch client orderRef w read closed, [.send 0 x.call])
    | .error failure => (.watch client orderRef (w.answered now (.error failure)) read closed, [])
  else (.watch client orderRef w read closed, [])

/-- What an answer to a question about an order says. -/
def readProgress (client : BankId.Client) (orderRef : String) (answer : Answer) :
    Except Failure BankId.Progress :=
  (client.collectOnce orderRef).bind fun x => x.read answer

/-! ## What happens to a job -/

/-- Starts an activity, for a caller who may have given up already. -/
def start (now : Nat) (givenUp : Bool) : Activity ρ → Job ρ × List (Effect ρ)
  | .settled result => (.over, [.finish result])
  | .exchange call read => (.exchange read, [.send 0 call])
  | .survey calls read =>
    if calls.isEmpty then (.over, [.finish (read [])])
    else (.survey (calls.map fun _ => none) read, calls.mapIdx fun slot call => .send slot call)
  | .wait rule question read cancel =>
    ofWait now question read cancel (Wait.start now rule givenUp)
  | .collect mode reference read cancelsAbandoned cancel =>
    ofCollect mode reference cancel (Freja.Collect.start read cancelsAbandoned givenUp)
  | .orderStream client call read style head chunk =>
    (.startStream client read style head chunk, [.send 0 call])
  | .watch client orderRef read closed =>
    match client.collectOnce orderRef with
    | .ok x => (.startWatch client orderRef read closed givenUp, [.send 0 x.call])
    | .error failure => (.over, [.finish (read (.error failure))])

/-- Takes the answer to a request. -/
def answered (now slot : Nat) (answer : Answer) : Job ρ → Job ρ × List (Effect ρ)
  | .exchange read => (.over, [.finish (read answer)])
  | .survey answers read =>
    let answers := answers.set slot (some answer)
    match answers.mapM id with
    | some all => (.over, [.finish (read all)])
    | none => (.survey answers read, [])
  | .wait w question read cancel =>
    ofWait now question read cancel (w.answered now (read answer))
  | .startStream client read style head chunk =>
    match read answer with
    | .error result => (.over, [.finish result])
    | .ok order =>
      let s := Http.OrderStream.start order style.period client.pollInterval style.format
      let (job, effects) := ofStream now client head chunk s true
      (job, .head head :: effects)
  | .stream client s head chunk =>
    ofStream now client head chunk
      (s.answered now (readProgress client s.order.orderRef answer)) false
  | .startWatch client orderRef read closed stopped =>
    match readProgress client orderRef answer with
    | .error failure => (.over, [.finish (read (.error failure))])
    | .ok p =>
      ofWatch now client orderRef read closed
        (BankId.Watch.start now client.pollInterval p stopped) false
  | .watch client orderRef w read closed =>
    ofWatch now client orderRef read closed
      (w.answered now (readProgress client orderRef answer)) false
  | job => (job, [])

/-- The poller has queued the registration. -/
def registered : Job ρ → Job ρ × List (Effect ρ)
  | .collect c mode reference cancel => ofCollect mode reference cancel c.registered
  | job => (job, [])

/-- The poller answers. -/
def polled (outcome : Except Failure Freja.Result) : Job ρ → Job ρ × List (Effect ρ)
  | .collect c mode reference cancel => ofCollect mode reference cancel (c.answered outcome)
  | job => (job, [])

/-- Does what can be done now. -/
def advance (now : Nat) : Job ρ → Option (Job ρ × List (Effect ρ))
  | .wait w question read cancel => (w.advance now).map (ofWait now question read cancel)
  | .stream client s head chunk =>
    (s.advance now).map fun (s, asks) => ofStream now client head chunk s asks
  | .watch client orderRef w read closed =>
    (w.advance now).map fun (w, asks) => ofWatch now client orderRef read closed w asks
  | _ => none

/-- When it moves again by itself. -/
def due? : Job ρ → Option Nat
  | .wait w .. => w.due?
  | .stream _ s .. => s.due?
  | .watch _ _ w .. => w.due?
  | _ => none

/-- The caller gives up, and waits for the result that says so. -/
def giveUp (now : Nat) : Job ρ → Job ρ × List (Effect ρ)
  | .wait w question read cancel => ofWait now question read cancel w.giveUp
  | .collect c mode reference cancel => ofCollect mode reference cancel c.giveUp
  | .startWatch client orderRef read closed _ =>
    (.startWatch client orderRef read closed true, [])
  | .watch client orderRef w read closed =>
    (.watch client orderRef (w.stop now) read closed, [])
  | job => (job, [])

/-- The caller is gone. A stream notices at its next step, and a watch goes on unread. -/
def drop (now : Nat) : Job ρ → Job ρ × List (Effect ρ)
  | .wait w question read cancel => ofWait now question read cancel w.drop
  | .collect c mode reference cancel => ofCollect mode reference cancel c.drop
  | .stream client s head chunk => (.stream client s.leave head chunk, [])
  | .watch client orderRef w read closed => (.watch client orderRef w.abandon read closed, [])
  | _ => (.over, [])

/-! ## Items -/

/-- Takes an item. -/
def take : Job ρ → Option (ρ × Job ρ)
  | .stream client s head chunk =>
    s.take.map fun (text, s) => (chunk text, .stream client s head chunk)
  | .watch client orderRef w read closed =>
    w.take.map fun (item, w) => (read item, .watch client orderRef w read closed)
  | _ => none

/-- What the caller is given after the last item. -/
def closing? : Job ρ → Option ρ
  | .stream _ s head _ => if s.isClosed then some head else none
  | .watch _ _ w _ closed => if w.isClosed then some closed else none
  | _ => none

end Job

end OrderBroker
