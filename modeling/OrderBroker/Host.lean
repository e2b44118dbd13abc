import OrderBroker.Http.Site
import OrderBroker.Launch
import OrderBroker.Service
import Std.Async
import Std.Http.Server

/-!
# The host

The broker in real time and on real sockets: reads the environment, listens, hands every request to
the service, and hands what comes of it back. Whatever is decided is decided by the service; the
host gives it the time, and has its requests carried.
-/

namespace OrderBroker

open Std.Async

/-- Carries a request to a vendor, and tells what becomes of it. -/
abbrev Carrier := Call → Async Answer

/-- The broker at work. -/
structure Host where
  site : Http.Site
  carrier : Carrier
  service : Std.Mutex (Service Http.Message)
  /-- The number of the next caller. -/
  nextCaller : Std.Mutex Nat

namespace Host

/-- Carries nothing: vendors take requests over mutual TLS alone, and this host has none. -/
def unconnected : Carrier := fun _ => pure (.lost "this host has no TLS")

/-- How long a BankID code is shown, in milliseconds. -/
def codePeriod : Nat := 1000

/-- How long the host waits before it looks again for what is due. -/
def nap : Std.Time.Millisecond.Offset := 10

/-- More moves than are made at one time. -/
def moves : Nat := 1000000

/-- Later than any time: the host itself takes the items for its callers. -/
def never : Nat := UInt64.size

/-! ## The environment -/

/-- The fault that kept a file from being read. -/
def faultOf : IO.Error → FileFault
  | .noFileOrDirectory .. => .missing
  | .inappropriateType _ 20 _ => .notDirectory
  | .inappropriateType .. => .isDirectory
  | .invalidArgument _ 36 _ => .nameTooLong
  | e => .other (toString e)

/-- The variables of the process, and the files that they name. -/
def environment : IO Environment := do
  let mut values := []
  let mut files := []
  for name in Environment.names do
    if let some value ← IO.getEnv name then
      values := (name, value) :: values
      if name ∈ Environment.fileNames then
        let content ← try
            pure (.ok (← IO.FS.readBinFile value))
          catch e => pure (.error (faultOf e))
        files := (value, content) :: files
  return .ofLists values files

/-! ## Time and requests -/

/-- Lets something happen to the service, and has carried what it wants sent. -/
partial def act (host : Host)
    (happens : Nat → Service Http.Message → Service Http.Message) : Async Unit := do
  let now ← IO.monoMsNow
  let outbox ← host.service.atomically do
    let s := (happens now (← get)).settle now moves
    set { s with outbox := [] }
    return s.outbox
  for o in outbox do
    background do
      let answer ← host.carrier o.call
      if let some addressee := o.addressee then
        host.act fun now s => s.answered now addressee answer

/-- Waits for the next thing that comes for a caller, and tells whether it is the last. -/
partial def next (host : Host) (id : Nat) : Async (Http.Message × Bool) := do
  host.act fun _ s => s
  let taken ← host.service.atomically do
    match (← get).take id with
    | some (taken, s) => set s; return some taken
    | none => return none
  match taken with
  | some taken => return taken
  | none =>
    sleep nap
    host.next id

/-- Lets Freja's pollers go on while no caller is served. -/
partial def keepPolling (host : Host) : Async Unit := do
  host.act fun _ s => s
  sleep nap
  host.keepPolling

/-! ## Callers -/

/-- Reads a body as far as the endpoints look at it. -/
def readBody (body : Std.Http.Body.Stream) : Async ByteArray := do
  let mut bytes := ByteArray.empty
  for chunk in body do
    bytes := bytes ++ chunk.data
    if Http.Request.maxBody < bytes.size then break
  return bytes

/-- A header of a request. -/
def header? (q : Std.Http.Request.Head) (name : String) : Option String :=
  (Std.Http.Header.Name.ofString? name).bind fun name => (q.headers.get? name).map (·.value)

/-- A request as the endpoints see it. -/
def request (q : Std.Http.Request.Head) (body : ByteArray) : Http.Request where
  method := toString q.method
  target := toString q.uri
  contentType := header? q "content-type"
  requestId := header? q "x-request-id"
  body

/-- The head of an answer. -/
def headOf (r : Http.Response) : Std.Http.Response.Builder :=
  let status := (Std.Http.Status.ofCode none r.status.toUInt16).getD .internalServerError
  [("content-type", r.contentType), ("cache-control", r.cacheControl), ("allow", r.allow),
    ("x-request-id", r.requestId)].foldl
    (fun head (name, value) => (value.bind (head.header? name)).getD head)
    (Std.Http.Response.withStatus status)

/-- Passes the chunks of a stream on, until it ends or its caller is gone. -/
partial def passOn (host : Host) (id : Nat) (out : Std.Http.Body.Stream) : Async Unit := do
  if ← out.isClosed then
    host.act fun now s => (s.leave now id).forget id
  else
    match ← host.next id with
    | (.chunk text, false) =>
      out.send (.ofByteArray text.toUTF8)
      host.passOn id out
    | _ => pure ()

/-- Answers a request. -/
def answer (host : Host) (q : Std.Http.Request Std.Http.Body.Stream) :
    Async (Std.Http.Response Std.Http.Body.Any) := do
  let activity := host.site.handle (request q.line (← readBody q.body))
  let id ← host.nextCaller.atomically (modifyGet fun id => (id, id + 1))
  host.act fun now s => s.arrive now id activity never false
  match ← host.next id with
  | (.response r, true) => (headOf r).fromBytes r.body.toUTF8
  | (.response r, false) => (headOf r).stream (host.passOn id)
  | (.chunk _, _) => Std.Http.Response.internalServerError.empty

instance : Std.Http.Server.Handler Host where
  onRequest host q := host.answer q

/-! ## A run -/

/-- Waits until the process is told to stop. -/
def untilStopped : Async Unit := do
  let interrupt ← Signal.Waiter.mk .sigint false
  let terminate ← Signal.Waiter.mk .sigterm false
  Selectable.one #[.case interrupt.selector pure, .case terminate.selector pure]

/-- Waits until every caller is served, at most for a number of naps. -/
def drain (host : Host) : Nat → Async Unit
  | 0 => pure ()
  | naps + 1 => do
    if ← host.service.atomically do return (← get).visits.isEmpty then
      pure ()
    else
      sleep nap
      host.drain naps

/-- Where a configuration wants the broker to listen. -/
def addressOf (config : Config) : Async (Option Std.Net.SocketAddress) := do
  let found ← DNS.getAddrInfo config.host (Text.decimal config.httpPort)
  return found[0]?.map fun
    | .v4 addr => .v4 ⟨addr, config.httpPort.toUInt16⟩
    | .v6 addr => .v6 ⟨addr, config.httpPort.toUInt16⟩

/-- Serves until the process is told to stop. -/
def serve (config : Config) (registry : Registry) : Async Unit := do
  let some address ← addressOf config | throw (.userError "no such address")
  let host : Host := {
    site := { registry, style := { format := config.streamFormat, period := codePeriod } }
    carrier := unconnected
    service := ← Std.Mutex.new (Service.start (← IO.monoMsNow) registry)
    nextCaller := ← Std.Mutex.new 0 }
  let server ← Std.Http.Server.serve address host
  background host.keepPolling
  untilStopped
  host.act fun _ s => s.shutdown
  host.drain (config.graceSeconds * 1000 / nap.toInt.toNat)
  server.shutdown

/-- Runs the broker, and tells how the run ends. -/
def run : IO Exit := do
  match Launch.prepare (← environment) with
  | .error exit => return exit
  | .ok (config, registry) =>
    try
      (serve config registry).block
      return { code := 0 }
    catch _ => return { code := 1 }

end Host

end OrderBroker
