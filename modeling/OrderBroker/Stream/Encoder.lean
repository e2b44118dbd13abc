import OrderBroker.Stream.Format
import OrderBroker.Stream.Ndjson
import OrderBroker.Stream.Sse
import OrderBroker.Text.Natural

/-!
# Writing event streams

Events as the chunks of one stream. Server-sent events are numbered from zero; lines of JSON carry
the data alone.
-/

namespace OrderBroker.Stream

/-- What a stream writes next. -/
structure Encoder where
  format : Format
  nextId : Nat := 0
  deriving DecidableEq, Repr

namespace Encoder

/-- The chunk of an event, and the encoder for the next one. -/
def event (e : Encoder) (name : String) (data : Json) : String × Encoder :=
  match e.format with
  | .sse =>
    (Sse.encode { id := Text.decimal e.nextId, event := name, data := data.render },
      { e with nextId := e.nextId + 1 })
  | .ndjson => (Ndjson.encode data, e)

/-- The chunks of events. -/
def events (e : Encoder) : List (String × Json) → List String
  | [] => []
  | (name, data) :: rest =>
    let (chunk, e) := e.event name data
    chunk :: e.events rest

end Encoder

end OrderBroker.Stream
