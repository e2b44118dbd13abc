import OrderBroker.Text.Ascii
import OrderBroker.Text.Blank
import OrderBroker.Text.Quoted

/-!
# Stream formats

The two formats in which an order's progress is streamed.
-/

namespace OrderBroker.Stream

/-- A format of event streams. -/
inductive Format where
  /-- Server-sent events. -/
  | sse
  /-- One JSON value on every line. -/
  | ndjson
  deriving DecidableEq, Repr

namespace Format

instance : Inhabited Format := ⟨.sse⟩

/-- The name of a format. -/
def name : Format → String
  | .sse => "SSE"
  | .ndjson => "NDJSON"

/-- The content type of a stream. -/
def contentType : Format → String
  | .sse => "text/event-stream"
  | .ndjson => "application/x-json-stream"

/-- The format of a name in either case, with blanks around it, or what is said of a name that no
format has. -/
def parse (text : String) : Except String Format :=
  let name := Text.asciiUpper (Text.trim text)
  if name = "SSE" then .ok .sse
  else if name = "NDJSON" then .ok .ndjson
  else .error ("unknown stream encoder " ++ Text.quoted text ++ ", expected SSE or NDJSON")

end Format

end OrderBroker.Stream
