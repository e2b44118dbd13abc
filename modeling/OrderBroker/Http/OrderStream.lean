import OrderBroker.BankId.Order
import OrderBroker.BankId.Watch
import OrderBroker.Http.Problem
import OrderBroker.Stream.Encoder

/-!
# Order streams

The answer to a started BankID order as a stream of events: a fresh code to scan at every tick until
the user has scanned one, the order's progress whenever it changes, and at most one error. The
stream ends with an order that is no longer pending, with an error, when the client has left, or
after its last tick.

The client reads from a body of a few chunks. A chunk that finds it full waits for room, and while
it waits the stream does nothing else. Once the stream has ended, its watch stops.

`OrderStream.moves` lists what a stream may do at some time, and `OrderStream.make` does it.
-/

namespace OrderBroker.Http

open BankId (StartedOrder QrCode Change Watch)

namespace OrderStream

/-- The name of an event that brings a code to scan. -/
def codeEvent : String := "qrcode"

/-- The name of an event that brings the order's progress. -/
def statusEvent : String := "status"

/-- The name of an event that brings an error. -/
def errorEvent : String := "error"

/-- How many ticks a stream lasts. -/
def ticks : Nat := 30

/-- How many chunks may wait for the client. -/
def bodySlots : Nat := 8

/-- What comes after a chunk. -/
inductive Next where
  | follow
  | nextTick
  | finish
  deriving DecidableEq, Repr

/-- Where a stream stands. -/
inductive Phase where
  /-- The watch asks its first question. -/
  | starting
  /-- Waits for a change, the next tick or the client's leaving. -/
  | following
  /-- A chunk waits for room in the body. -/
  | sending (chunk : String) (next : Next)
  | over
  deriving DecidableEq, Repr

/-- What a stream does by itself. -/
inductive Move where
  /-- Notices that the client has left. -/
  | leave
  /-- Takes what the watch hands over, or notices its end. -/
  | change
  /-- Shows the code of the next tick. -/
  | tick
  /-- Finds room in the body for the chunk that waits. -/
  | room
  /-- The watch moves. -/
  | watch
  deriving DecidableEq, Repr

end OrderStream

/-- A stream. Times are in milliseconds. -/
structure OrderStream where
  order : StartedOrder
  /-- The length of a tick. -/
  period : Nat
  /-- How long the watch rests between questions. -/
  pollInterval : Nat
  encoder : Stream.Encoder
  phase : OrderStream.Phase := .starting
  /-- When the ticks began. -/
  began : Nat := 0
  /-- The tick that comes next. -/
  tick : Nat := 1
  /-- The user has not scanned a code yet. -/
  showsCode : Bool := true
  /-- The chunks that the client has not read yet. -/
  body : List String := []
  clientLeft : Bool := false
  watch : Option Watch := none

namespace OrderStream

/-- Ends, and stops the watch. -/
def finish (now : Nat) (s : OrderStream) : OrderStream :=
  { s with phase := .over, watch := s.watch.map fun w => w.abandon.stop now }

/-- Goes on after a chunk. -/
def goOn (now : Nat) (s : OrderStream) : Next → OrderStream
  | .follow => { s with phase := .following }
  | .nextTick =>
    if s.tick < ticks then { s with phase := .following, tick := s.tick + 1 } else s.finish now
  | .finish => s.finish now

/-- Puts a chunk into the body, or waits for room. -/
def push (now : Nat) (s : OrderStream) (chunk : String) (next : Next) : OrderStream :=
  if s.clientLeft then s.finish now
  else if s.body.length < bodySlots then { s with body := s.body ++ [chunk] }.goOn now next
  else { s with phase := .sending chunk next }

/-- Sends an event. -/
def event (now : Nat) (s : OrderStream) (name : String) (data : Json) (next : Next) : OrderStream :=
  let (chunk, encoder) := s.encoder.event name data
  { s with encoder }.push now chunk next

/-- The code of a tick. -/
def code (s : OrderStream) (tick : Nat) : Json := Wire.toJson (QrCode.of s.order tick)

/-- Starts with the first code; the watch then asks its first question. -/
def start (order : StartedOrder) (period pollInterval : Nat) (format : Stream.Format) :
    OrderStream :=
  let s : OrderStream := { order, period, pollInterval, encoder := { format } }
  let (chunk, encoder) := s.encoder.event codeEvent (s.code 0)
  { s with encoder, body := [chunk] }

/-- Takes the answer to the question asked. -/
def answered (now : Nat) (s : OrderStream) (answer : Change) : OrderStream :=
  match s.phase, answer with
  | .starting, .error failure =>
    s.event now errorEvent (Wire.toJson (Problem.ofFailure failure).body) .finish
  | .starting, .ok p =>
    { s with
      phase := .following, began := now, watch := some (Watch.start now s.pollInterval p false) }
  | _, _ => { s with watch := s.watch.map fun w => w.answered now answer }

/-- Passes a change on. -/
def passOn (now : Nat) (s : OrderStream) : Change → OrderStream
  | .error failure =>
    s.event now errorEvent (Wire.toJson (Problem.ofFailure failure).body) .finish
  | .ok p =>
    { s with showsCode := s.showsCode && p.hintCode ≠ BankId.userSignHint }.event now statusEvent
      (Wire.toJson p) (if p.status = BankId.OrderStatus.pending then .follow else .finish)

/-- When the next tick is due. -/
def deadline (s : OrderStream) : Nat := s.began + s.period * s.tick

/-- The next tick: a fresh code, unless the user has scanned one or it is the last tick. -/
def onTick (now : Nat) (s : OrderStream) : OrderStream :=
  if s.showsCode ∧ s.tick < ticks then s.event now codeEvent (s.code s.tick) .nextTick
  else s.goOn now .nextTick

/-- Takes what the watch hands over, or ends with it. -/
def onChange (now : Nat) (s : OrderStream) : OrderStream :=
  match s.watch.bind Watch.take with
  | some (item, w) => { s with watch := some w }.passOn now item
  | none => s.finish now

/-- The watch hands something over, or is at its end. -/
def hasChange (s : OrderStream) : Bool :=
  s.watch.all fun w => w.take.isSome || w.isClosed

/-- Puts the chunk that waits into the body. -/
def onRoom (now : Nat) (s : OrderStream) : OrderStream :=
  match s.phase with
  | .sending chunk next => { s with body := s.body ++ [chunk] }.goOn now next
  | _ => s

/-- What may be done now. Of several moves any is made. -/
def moves (now : Nat) (s : OrderStream) : List Move :=
  (match s.phase with
    | .following =>
      (if s.clientLeft then [.leave] else []) ++
      (if s.hasChange then [.change] else []) ++
      (if s.deadline ≤ now then [.tick] else [])
    | .sending _ _ =>
      if s.clientLeft then [.leave] else if s.body.length < bodySlots then [.room] else []
    | _ => []) ++
  (if (s.watch.bind (Watch.advance now)).isSome then [.watch] else [])

/-- Makes a move; also whether BankID is asked. -/
def make (now : Nat) (s : OrderStream) : Move → OrderStream × Bool
  | .leave => (s.finish now, false)
  | .change => (s.onChange now, false)
  | .tick => (s.onTick now, false)
  | .room => (s.onRoom now, false)
  | .watch =>
    match s.watch.bind (Watch.advance now) with
    | some (w, asks) => ({ s with watch := some w }, asks)
    | none => (s, false)

/-- Makes the first move that may be made now; also whether BankID is asked. -/
def advance (now : Nat) (s : OrderStream) : Option (OrderStream × Bool) :=
  (s.moves now).head?.map (s.make now)

/-- When it moves again by itself. -/
def due? (s : OrderStream) : Option Nat :=
  match s.phase, s.watch.bind Watch.due? with
  | .following, some due => some (min s.deadline due)
  | .following, none => some s.deadline
  | _, due => due

/-- The client reads a chunk. -/
def take (s : OrderStream) : Option (String × OrderStream) :=
  match s.body with
  | chunk :: rest => some (chunk, { s with body := rest })
  | [] => none

/-- No chunk is left and none will come. -/
def isClosed (s : OrderStream) : Bool := s.phase = .over ∧ s.body = []

/-- The client leaves. -/
def leave (s : OrderStream) : OrderStream := { s with clientLeft := true, body := [] }

end OrderStream

end OrderBroker.Http
