import OrderBroker.Rehearsal.Script
import OrderBroker.Service

/-!
# Rehearsals

The broker against scripted vendors, in virtual time. A world holds the service, the requests that
are on their way, and what is still to happen. Time stands still while anything can move; then it
goes on to the next moment at which something is due.

`World.step` makes one move, and `World.run` makes moves until nothing is left to do before the end.
-/

namespace OrderBroker.Rehearsal

/-- What is done to the broker from outside. -/
inductive Event (ρ : Type) where
  /-- A caller comes, who takes items from some time on. -/
  | arrive (id : Nat) (activity : Activity ρ) (readFrom : Nat)
  /-- A caller gives up, perhaps before coming. -/
  | giveUp (id : Nat)
  /-- A caller leaves. -/
  | leave (id : Nat)
  /-- The broker is told to stop, by a caller who is given `result`. -/
  | shutdown (id : Nat) (result : ρ)

/-- A request on its way. -/
structure Flight where
  due : Nat
  addressee : Addressee
  answer : Answer

/-- A request that reached a vendor. -/
structure Arrival where
  time : Nat
  request : String
  contentType : String
  body : String
  deriving DecidableEq, Repr

/-- The broker and its surroundings at some time. -/
structure World (ρ : Type) where
  now : Nat := 0
  service : Service ρ
  flights : List Flight := []
  script : Script
  /-- What reached the vendors, the latest first. -/
  arrivals : List Arrival := []
  /-- Those who gave up, whether they had come or not. -/
  givenUp : List Nat := []
  /-- What is still to happen, in order. -/
  agenda : List (Nat × Event ρ) := []

namespace World

variable {ρ : Type}

/-- The broker at its start. -/
def start (registry : Registry) (script : Script) (agenda : List (Nat × Event ρ)) : World ρ :=
  { service := Service.start 0 registry, script
    agenda := agenda.mergeSort fun a b => a.1 ≤ b.1 }

/-! ## Requests -/

/-- How long an answer of a vendor is waited for. -/
def timeoutOf (w : World ρ) : Vendor → Nat
  | .bankId => (w.service.registry.bankId.map (·.requestTimeout)).getD 0
  | .freja => (w.service.registry.freja.map (·.requestTimeout)).getD 0

/-- What becomes of a request, and when. -/
def fate (w : World ρ) (vendor : Vendor) (reply : Reply) : Nat × Answer :=
  let timeout := w.timeoutOf vendor
  if reply.hangs ∨ timeout ≤ reply.delay then (w.now + timeout, .lost "there was no answer in time")
  else (w.now + reply.delay, .replied reply.status reply.content)

/-- Puts the answer to a request on its way. -/
def fly (w : World ρ) (addressee : Option Addressee) (due : Nat) (answer : Answer) : World ρ :=
  { w with flights := w.flights ++ (addressee.map fun a => ⟨due, a, answer⟩).toList }

/-- Sends a request. A vendor that cannot be reached is noticed at once. -/
def send (w : World ρ) (o : Outgoing) : World ρ :=
  if w.script.listening o.call.vendor then
    let (reply, script) := w.script.reply o.call
    let (due, answer) := w.fate o.call.vendor reply
    let arrival : Arrival :=
      ⟨w.now, o.call.method.name ++ " " ++ w.script.pathOf o.call, o.call.contentType, o.call.body⟩
    { w with script, arrivals := arrival :: w.arrivals }.fly o.addressee due answer
  else w.fly o.addressee w.now (.lost "the vendor cannot be reached")

/-! ## Moves -/

/-- Lets something happen. -/
def happen (w : World ρ) : Event ρ → World ρ
  | .arrive id activity readFrom =>
    { w with service := w.service.arrive w.now id activity readFrom (w.givenUp.contains id) }
  | .giveUp id =>
    { w with service := w.service.giveUp w.now id, givenUp := id :: w.givenUp }
  | .leave id => { w with service := w.service.leave w.now id }
  | .shutdown id result =>
    { w with
      service := (w.service.arrive w.now id (.settled result) 0 false).shutdown }

/-- The first of the answers that are due. -/
def moveFlight? (w : World ρ) : Option (World ρ) :=
  match w.flights.findIdx? (·.due ≤ w.now) with
  | none => none
  | some i => w.flights[i]?.map fun f =>
    { w with
      flights := w.flights.eraseIdx i
      service := w.service.answered w.now f.addressee f.answer }

/-- Every moment at which something is due. -/
def dues (w : World ρ) : List Nat :=
  w.service.dues ++ w.flights.map (·.due) ++ (w.agenda.map (·.1)).take 1

/-- Goes on to the next moment at which something is due, if it comes before the end. -/
def wait? (horizon : Nat) (w : World ρ) : Option (World ρ) :=
  match (w.dues.filter (w.now < ·)).min? with
  | some due => if due ≤ horizon then some { w with now := due } else none
  | none => none

/-- One move: a request, what moves by itself, an answer, what happens from outside, and only then
time. -/
def step (horizon : Nat) (w : World ρ) : Option (World ρ) :=
  match w.service.outbox with
  | o :: rest => some ({ w with service.outbox := rest }.send o)
  | [] =>
    match w.service.step? w.now with
    | some service => some { w with service }
    | none =>
      w.moveFlight?.orElse fun _ =>
        match w.agenda with
        | (time, event) :: rest =>
          if time ≤ w.now then some ({ w with agenda := rest }.happen event) else w.wait? horizon
        | [] => w.wait? horizon

/-- Moves until nothing is left to do before the end, at most `fuel` times. -/
def run (horizon : Nat) : Nat → World ρ → World ρ
  | 0, w => w
  | fuel + 1, w =>
    match w.step horizon with
    | some w => run horizon fuel w
    | none => w

end World

end OrderBroker.Rehearsal
