import OrderBroker.Freja.Poller
import OrderBroker.Job
import OrderBroker.Registry

/-!
# The service

Everything that is under way in the broker at one time: the visits of its callers, Freja's pollers,
and the messages between the two. The service sends nothing itself. What it wants sent stands in its
outbox, and whoever carries the requests hands their answers back by the addressee that they stand
under.

`Service.step?` makes one move that needs nothing from outside; it is `none` where the service can
only wait, for an answer, a caller or the moment `Service.dues` names.
-/

namespace OrderBroker

/-- How a caller's visit ended. -/
inductive Ending (ρ : Type) where
  | done (time : Nat) (result : ρ)
  | left (time : Nat)

/-- A caller's visit. -/
structure Visit (ρ : Type) where
  job : Job ρ
  /-- Since when the caller takes items. -/
  readFrom : Nat := 0
  /-- What came before the items. -/
  head : Option ρ := none
  /-- The items taken, the latest first, each with its time. -/
  items : List (Nat × ρ) := []
  ending : Option (Ending ρ) := none

namespace Visit

variable {ρ : Type}

/-- Ends a visit that has not ended. -/
def finish (v : Visit ρ) (time : Nat) (result : ρ) : Visit ρ :=
  match v.ending with
  | none => { v with ending := some (.done time result) }
  | some _ => v

/-- What the caller takes now: an item, or what comes after the last one. -/
def read? (now : Nat) (v : Visit ρ) : Option (Visit ρ) :=
  if v.ending.isNone ∧ v.readFrom ≤ now then
    match v.job.take with
    | some (item, job) => some { v with job, items := (now, item) :: v.items }
    | none => v.job.closing?.map fun result => v.finish now result
  else none

/-- When a visit moves again by itself. -/
def due? (v : Visit ρ) : Option Nat :=
  let waits := v.ending.isNone && (v.job.take.isSome || v.job.closing?.isSome)
  match v.job.due?, waits with
  | some due, true => some (min due v.readFrom)
  | some due, false => some due
  | none, true => some v.readFrom
  | none, false => none

end Visit

/-- Whom an answer is for. -/
inductive Addressee where
  | job (id slot : Nat)
  | poller (mode : Order.Mode)
  deriving DecidableEq, Repr

/-- A message between the pollers and the jobs. -/
inductive Mail where
  | register (id : Nat) (mode : Order.Mode) (reference : String)
  | giveUp (id : Nat) (mode : Order.Mode)
  | registered (id : Nat)
  | polled (id : Nat) (outcome : Except Failure Freja.Result)

/-- A request to be sent, and whom its answer is for, if anybody waits for it. -/
structure Outgoing where
  addressee : Option Addressee
  call : Call
  deriving DecidableEq, Repr

/-- The broker at some time. -/
structure Service (ρ : Type) where
  registry : Registry
  /-- The pollers of identification and signing orders. -/
  authPoller : Option Freja.Poller := none
  signPoller : Option Freja.Poller := none
  /-- The callers who have come, by number. -/
  visits : List (Nat × Visit ρ) := []
  mail : List Mail := []
  /-- The requests to be sent, in order. -/
  outbox : List Outgoing := []

namespace Service

variable {ρ : Type}

/-- The service at its start. -/
def start (now : Nat) (registry : Registry) : Service ρ :=
  let poller := registry.freja.map fun client => Freja.Poller.start now client.pollInterval
  { registry, authPoller := poller, signPoller := poller }

/-- Puts a request into the outbox. -/
def send (s : Service ρ) (addressee : Option Addressee) (call : Call) : Service ρ :=
  { s with outbox := s.outbox ++ [⟨addressee, call⟩] }

/-- Puts a message into the mail. -/
def post (s : Service ρ) (m : Mail) : Service ρ := { s with mail := s.mail ++ [m] }

/-! ## Visits -/

/-- The visit of a number. -/
def visit? (s : Service ρ) (id : Nat) : Option (Visit ρ) := s.visits.lookup id

/-- Changes a visit. -/
def setVisit (s : Service ρ) (id : Nat) (v : Visit ρ) : Service ρ :=
  { s with visits := s.visits.map fun (i, old) => if i = id then (i, v) else (i, old) }

/-- Changes a visit, if there is one of the number. -/
def onVisit (s : Service ρ) (id : Nat) (f : Visit ρ → Visit ρ) : Service ρ :=
  match s.visit? id with
  | some v => s.setVisit id (f v)
  | none => s

/-- Does what a job does. -/
def perform (now id : Nat) (s : Service ρ) : Job.Effect ρ → Service ρ
  | .send slot call => s.send (some (.job id slot)) call
  | .sendAway call => s.send none call
  | .register mode reference => s.post (.register id mode reference)
  | .leave mode => s.post (.giveUp id mode)
  | .head result => s.onVisit id ({ · with head := some result })
  | .finish result => s.onVisit id (·.finish now result)

/-- A job has moved. -/
def moved (now id : Nat) (s : Service ρ) (v : Visit ρ) (step : Job ρ × List (Job.Effect ρ)) :
    Service ρ :=
  step.2.foldl (perform now id) (s.setVisit id { v with job := step.1 })

/-- Something happens to a job. -/
def onJob (now id : Nat) (s : Service ρ) (f : Job ρ → Job ρ × List (Job.Effect ρ)) : Service ρ :=
  match s.visit? id with
  | some v => s.moved now id v (f v.job)
  | none => s

/-! ## Pollers -/

/-- The poller of a mode. -/
def poller? (s : Service ρ) : Order.Mode → Option Freja.Poller
  | .auth => s.authPoller
  | .sign => s.signPoller

/-- Changes a poller. -/
def setPoller (s : Service ρ) (mode : Order.Mode) (p : Freja.Poller) : Service ρ :=
  match mode with
  | .auth => { s with authPoller := some p }
  | .sign => { s with signPoller := some p }

/-- Does what a poller does. -/
def performPoller (mode : Order.Mode) (s : Service ρ) : Freja.Poller.Effect → Service ρ
  | .askOne reference =>
    match s.registry.freja with
    | some client =>
      match client.oneResult mode reference with
      | .ok x => s.send (some (.poller mode)) x.call
      | .error _ => s
    | none => s
  | .askAll =>
    match s.registry.freja with
    | some client => s.send (some (.poller mode)) (client.allResults mode).call
    | none => s
  | .registered id => s.post (.registered id)
  | .answer id outcome => s.post (.polled id outcome)

/-- A poller has moved. -/
def movedPoller (s : Service ρ) (mode : Order.Mode)
    (step : Freja.Poller × List Freja.Poller.Effect) : Service ρ :=
  step.2.foldl (performPoller mode) (s.setPoller mode step.1)

/-- Something happens to a poller. -/
def onPoller (s : Service ρ) (mode : Order.Mode)
    (f : Freja.Poller → Freja.Poller × List Freja.Poller.Effect) : Service ρ :=
  match s.poller? mode with
  | some p => s.movedPoller mode (f p)
  | none => s

/-- A poller takes the answer to its question. -/
def answerPoller (now : Nat) (s : Service ρ) (mode : Order.Mode) (answer : Answer) : Service ρ :=
  match s.registry.freja with
  | none => s
  | some client =>
    s.onPoller mode fun p =>
      match p.phase with
      | .single reference _ =>
        p.answeredOne now ((client.oneResult mode reference).bind fun x => x.read answer)
      | _ => p.answeredAll now ((client.allResults mode).read answer)

/-! ## What comes from outside -/

/-- A caller comes, who takes items from some time on, and who may have given up already. -/
def arrive (now id : Nat) (s : Service ρ) (activity : Activity ρ) (readFrom : Nat)
    (givenUp : Bool) : Service ρ :=
  let (job, effects) := Job.start now givenUp activity
  effects.foldl (perform now id) { s with visits := s.visits ++ [(id, { job, readFrom })] }

/-- A caller gives up, and waits for the result that says so. -/
def giveUp (now id : Nat) (s : Service ρ) : Service ρ := s.onJob now id (Job.giveUp now)

/-- A caller leaves. Nobody leaves whose visit has ended. -/
def leave (now id : Nat) (s : Service ρ) : Service ρ :=
  match s.visit? id with
  | some v =>
    match v.ending with
    | some _ => s
    | none => s.moved now id { v with ending := some (.left now) } (v.job.drop now)
  | none => s

/-- A visit that has ended is not kept any longer. -/
def forget (id : Nat) (s : Service ρ) : Service ρ :=
  { s with visits := s.visits.filter (·.1 ≠ id) }

/-- An answer comes. -/
def answered (now : Nat) (s : Service ρ) (addressee : Addressee) (answer : Answer) : Service ρ :=
  match addressee with
  | .job id slot => s.onJob now id (Job.answered now slot answer)
  | .poller mode => s.answerPoller now mode answer

/-- The broker is told to stop: its pollers end. -/
def shutdown (s : Service ρ) : Service ρ :=
  { s with
    authPoller := s.authPoller.map Freja.Poller.shutdown
    signPoller := s.signPoller.map Freja.Poller.shutdown }

/-! ## Moves -/

/-- Delivers a message. -/
def deliver (now : Nat) (s : Service ρ) : Mail → Service ρ
  | .register id mode reference => s.onPoller mode (·.register id reference)
  | .giveUp id mode => s.onPoller mode fun p => (p.giveUp id, [])
  | .registered id => s.onJob now id Job.registered
  | .polled id outcome => s.onJob now id (Job.polled outcome)

/-- The first job that moves by itself now. -/
def moveJob? (now : Nat) (s : Service ρ) : Option (Service ρ) :=
  s.visits.findSome? fun (id, v) => (v.job.advance now).map (s.moved now id v)

/-- The first poller that moves by itself now. -/
def movePoller? (now : Nat) (s : Service ρ) : Option (Service ρ) :=
  [Order.Mode.auth, .sign].findSome? fun mode =>
    (s.poller? mode).bind fun p => (p.advance now).map (s.movedPoller mode)

/-- The first caller who takes something now. -/
def moveReader? (now : Nat) (s : Service ρ) : Option (Service ρ) :=
  s.visits.findSome? fun (id, v) => (v.read? now).map (s.setVisit id)

/-- One move: a message, then what moves by itself, then what a caller takes. -/
def step? (now : Nat) (s : Service ρ) : Option (Service ρ) :=
  match s.mail with
  | m :: rest => some ({ s with mail := rest }.deliver now m)
  | [] => ((s.moveJob? now).orElse fun _ => s.movePoller? now).orElse fun _ => s.moveReader? now

/-- Takes what has come for a caller, and tells whether it is the last: what comes before the items,
an item, or the result. -/
def take (id : Nat) (s : Service ρ) : Option ((ρ × Bool) × Service ρ) :=
  match s.visit? id with
  | none => none
  | some v =>
    match v.head, v.ending, v.job.take with
    | some head, _, _ => some ((head, false), s.setVisit id { v with head := none })
    | none, some (.done _ result), _ => some ((result, true), s.forget id)
    | none, some (.left _), _ => none
    | none, none, some (item, job) => some ((item, false), s.setVisit id { v with job })
    | none, none, none => v.job.closing?.map fun result => ((result, true), s.forget id)

/-- Moves until nothing moves by itself any more, at most `fuel` times. -/
def settle (now : Nat) : Nat → Service ρ → Service ρ
  | 0, s => s
  | fuel + 1, s =>
    match s.step? now with
    | some s => settle now fuel s
    | none => s

/-- Every moment at which something moves again by itself. -/
def dues (s : Service ρ) : List Nat :=
  s.visits.filterMap (·.2.due?) ++
    [s.authPoller, s.signPoller].filterMap (·.bind Freja.Poller.due?)

end Service

end OrderBroker
