import OrderBroker.Failure
import OrderBroker.Freja.Result

/-!
# The result poller

Freja tells results to whoever asks, so the orders of one mode that somebody waits for are asked for
together: one by one while they are few, and all at once when there are many. Whoever waits for an
order is answered with its first final result. Results are remembered for as long as Freja keeps
them, and a latecomer is answered from memory.

The poller takes one registration at a time, and asks at once after each that it has no answer to.
Otherwise it rests: for the polling interval after a registration, longer and longer while none
follows, and for half a minute where nobody waits. Those who have given up waiting are dropped at
the end of every round. `Poller.moves` lists what ends a rest, and `Poller.make` makes such a move.

Registrations wait in a queue of limited length, and beyond it for room in the queue.
-/

namespace OrderBroker.Freja

/-! ## Cadence -/

/-- How long to rest while nobody waits, in milliseconds. -/
def idleInterval : Nat := 30000

/-- How long to rest: the polling interval, twice as long after half a minute without a new order,
three times after a minute. -/
def nextSleep (interval waiting sinceRegistered : Nat) : Nat :=
  if waiting = 0 ∨ 90000 < sinceRegistered then idleInterval
  else if 60000 < sinceRegistered then interval * 3
  else if 30000 < sinceRegistered then interval * 2
  else interval

namespace Poller

/-- How long a result is remembered, in milliseconds. -/
def retention : Nat := 600000

/-- How many orders make it worth to ask for all results at once. -/
def bulkThreshold : Nat := 5

/-- How many registrations may be queued. -/
def queueSlots : Nat := 64

/-- Freja's code for an order that it does not know. -/
def unknownReference : String := "1100"

/-- Somebody who waits for an order. -/
structure Waiter where
  id : Nat
  /-- Has not given up. -/
  live : Bool := true
  deriving DecidableEq, Repr

/-- Somebody who wants to wait for an order. -/
structure Registration where
  waiter : Waiter
  reference : String
  deriving DecidableEq, Repr

/-- A result that is remembered. -/
structure Seen where
  time : Nat
  result : Result
  deriving DecidableEq, Repr

/-- Where a poller stands. -/
inductive Phase where
  | resting (due : Nat)
  /-- Asks for one order, and for others later in the same round. -/
  | single (reference : String) (later : List String)
  /-- Asks for all results. -/
  | bulk
  | stopped
  deriving DecidableEq, Repr

/-- What a poller that rests goes on with. -/
inductive Move where
  | stop
  /-- Takes a registration. -/
  | accept
  /-- Starts a round, because the rest is over. -/
  | round
  deriving DecidableEq, Repr

/-- What a poller does. -/
inductive Effect where
  | askOne (reference : String)
  | askAll
  /-- Tells somebody that the registration is in the queue. -/
  | registered (waiter : Nat)
  /-- Answers somebody who waits. -/
  | answer (waiter : Nat) (outcome : Except Failure Result)

end Poller

/-- The poller of one mode. -/
structure Poller where
  interval : Nat
  /-- Who waits for which order. -/
  waiting : List (String × List Poller.Waiter) := []
  seen : List Poller.Seen := []
  queue : List Poller.Registration := []
  /-- Those who wait for room in the queue. -/
  blocked : List Poller.Registration := []
  /-- When somebody last began to wait. -/
  registeredAt : Nat := 0
  phase : Poller.Phase
  /-- Told to stop. -/
  stopping : Bool := false

namespace Poller

/-- The poller at its start. -/
def start (now interval : Nat) : Poller :=
  { interval, registeredAt := now, phase := .resting (now + idleInterval) }

/-- What somebody is told when nobody asks any more. -/
def stoppedOutcome : Except Failure Result := .error (.at .freja .pollerStopped)

/-! ## Waiting and remembering -/

/-- Those who wait for an order. -/
def waitersOf (p : Poller) (reference : String) : List Waiter :=
  (p.waiting.lookup reference).getD []

/-- Adds somebody who waits for an order. -/
def addWaiter (waiter : Waiter) (reference : String) :
    List (String × List Waiter) → List (String × List Waiter)
  | [] => [(reference, [waiter])]
  | (r, ws) :: rest =>
    if r = reference then (r, ws ++ [waiter]) :: rest
    else (r, ws) :: addWaiter waiter reference rest

/-- Nobody waits for an order any more. -/
def withoutReference (reference : String) (p : Poller) : Poller :=
  { p with waiting := p.waiting.filter (·.1 ≠ reference) }

/-- Answers those who have not given up. -/
def answerAll (waiters : List Waiter) (outcome : Except Failure Result) : List Effect :=
  (waiters.filter (·.live)).map fun w => .answer w.id outcome

/-- The remembered result of an order. -/
def seen? (p : Poller) (reference : String) : Option Result :=
  (p.seen.find? (·.result.reference = reference)).map (·.result)

/-- Takes a result: a final one that is new answers those who wait for its order, and is
remembered. -/
def process (now : Nat) (p : Poller) (result : Result) : Poller × List Effect :=
  if result.status.isFinal ∧ (p.seen? result.reference).isNone then
    ({ p.withoutReference result.reference with seen := ⟨now, result⟩ :: p.seen },
      answerAll (p.waitersOf result.reference) (.ok result))
  else (p, [])

/-- Takes results one after the other. -/
def processAll (now : Nat) (p : Poller) : List Result → Poller × List Effect
  | [] => (p, [])
  | result :: rest =>
    let (p, effects) := p.process now result
    let (p, more) := processAll now p rest
    (p, effects ++ more)

/-- Those who wait for an order are told why there will be no result. -/
def fail (p : Poller) (reference : String) (failure : Failure) : Poller × List Effect :=
  (p.withoutReference reference, answerAll (p.waitersOf reference) (.error failure))

/-- Forgets old results, and those who have given up. -/
def prune (now : Nat) (p : Poller) : Poller :=
  { p with
    seen := p.seen.filter fun s => now - s.time < retention
    waiting := (p.waiting.map fun (r, ws) => (r, ws.filter (·.live))).filter (!·.2.isEmpty) }

/-! ## Rounds -/

/-- Ends a round: prunes and rests. -/
def endRound (now : Nat) (p : Poller) : Poller :=
  let p := p.prune now
  { p with phase :=
      .resting (now + nextSleep p.interval p.waiting.length (now - p.registeredAt)) }

/-- Asks for the next order of a round, or ends the round. -/
def askNext (now : Nat) (p : Poller) : List String → Poller × List Effect
  | reference :: later => ({ p with phase := .single reference later }, [.askOne reference])
  | [] => (p.endRound now, [])

/-- Starts a round. An order without a name cannot be asked for. -/
def startRound (now : Nat) (p : Poller) : Poller × List Effect :=
  if 0 < p.waiting.length ∧ p.waiting.length < bulkThreshold then
    p.askNext now ((p.waiting.map (·.1)).filter (· ≠ ""))
  else ({ p with phase := .bulk }, [.askAll])

/-- The failure says that Freja does not know the order. -/
def saysUnknown : Failure → Bool
  | .at _ cause => cause.code? = some unknownReference
  | _ => false

/-- Takes the result of one order. A failure other than that Freja does not know the order changes
nothing. -/
def answeredOne (now : Nat) (p : Poller) (answer : Except Failure Result) :
    Poller × List Effect :=
  match p.phase with
  | .single reference later =>
    let (p, effects) := match answer with
      | .ok result => p.process now result
      | .error failure => if saysUnknown failure then p.fail reference failure else (p, [])
    let (p, more) := p.askNext now later
    (p, effects ++ more)
  | _ => (p, [])

/-- Takes the results of all orders. A failure changes nothing. -/
def answeredAll (now : Nat) (p : Poller) (answer : Except Failure (List Result)) :
    Poller × List Effect :=
  match p.phase with
  | .bulk =>
    let (p, effects) := match answer with
      | .ok results => p.processAll now results
      | .error _ => (p, [])
    (p.endRound now, effects)
  | _ => (p, [])

/-! ## Registrations -/

/-- Wants to wait for an order. -/
def register (p : Poller) (waiter : Nat) (reference : String) : Poller × List Effect :=
  let registration : Registration := ⟨{ id := waiter }, reference⟩
  if p.phase = .stopped then (p, [.answer waiter stoppedOutcome])
  else if p.queue.length < queueSlots then
    ({ p with queue := p.queue ++ [registration] }, [.registered waiter])
  else ({ p with blocked := p.blocked ++ [registration] }, [])

/-- Lets the first of those who wait for room into the queue. -/
def fillQueue (p : Poller) : Poller × List Effect :=
  match p.blocked with
  | [] => (p, [])
  | registration :: rest =>
    ({ p with queue := p.queue ++ [registration], blocked := rest },
      [.registered registration.waiter.id])

/-- Takes a registration: answers it from memory, or asks at once. -/
def accept (now : Nat) (p : Poller) (registration : Registration) : Poller × List Effect :=
  match p.seen? registration.reference with
  | some result => (p.endRound now, answerAll [registration.waiter] (.ok result))
  | none =>
    { p with
      waiting := addWaiter registration.waiter registration.reference p.waiting
      registeredAt := now }.startRound now

/-- Somebody gives up waiting. -/
def giveUp (p : Poller) (waiter : Nat) : Poller :=
  let quit (w : Waiter) : Waiter := if w.id = waiter then { w with live := false } else w
  { p with
    waiting := p.waiting.map fun (r, ws) => (r, ws.map quit)
    queue := p.queue.map fun registration =>
      { registration with waiter := quit registration.waiter }
    blocked := p.blocked.filter (·.waiter.id ≠ waiter) }

/-! ## The run -/

/-- Stops, and tells everybody. -/
def stop (p : Poller) : Poller × List Effect :=
  ({ p with phase := .stopped, waiting := [], queue := [], blocked := [] },
    answerAll (p.waiting.flatMap (·.2) ++ (p.queue ++ p.blocked).map (·.waiter)) stoppedOutcome)

/-- Is told to stop, which it does at its next rest. -/
def shutdown (p : Poller) : Poller := { p with stopping := true }

/-- The next registration of the queue, whose place is free for another. -/
def acceptNext (now : Nat) (p : Poller) : Poller × List Effect :=
  match p.queue with
  | registration :: rest =>
    let (p, effects) := { p with queue := rest }.fillQueue
    let (p, more) := p.accept now registration
    (p, effects ++ more)
  | [] => (p, [])

/-- What a poller that rests may do now. Of several moves it makes any. -/
def moves (now : Nat) (p : Poller) : List Move :=
  match p.phase with
  | .resting due =>
    (if p.stopping then [.stop] else []) ++
    (if p.queue.isEmpty then [] else [.accept]) ++
    (if due ≤ now then [.round] else [])
  | _ => []

/-- Makes a move. -/
def make (now : Nat) (p : Poller) : Move → Poller × List Effect
  | .stop => p.stop
  | .accept => p.acceptNext now
  | .round => p.startRound now

/-- Makes the first move that may be made now. -/
def advance (now : Nat) (p : Poller) : Option (Poller × List Effect) :=
  (p.moves now).head?.map (p.make now)

/-- When it moves again by itself. -/
def due? (p : Poller) : Option Nat :=
  match p.phase with
  | .resting due => some due
  | _ => none

end Poller

end OrderBroker.Freja
