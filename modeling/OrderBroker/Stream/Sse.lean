import OrderBroker.Json.Value
import OrderBroker.Text.Blank
import OrderBroker.Text.Lossy

/-!
# Server-sent events

Events as text: a line for each line of each field, and an empty line at the end of an event. The
writer drops empty lines of a field, so that no field can end the event or start another one.

The reader takes a byte at a time, so reads may be cut anywhere. `parse` is the same reading of a
whole input: cut into lines at CR, LF or CRLF, and lines into events.
-/

namespace OrderBroker.Stream

/-- One event. -/
structure Event where
  id : String := ""
  event : String := ""
  data : String := ""
  retry : String := ""
  deriving DecidableEq, Repr, Inhabited

namespace Sse

/-- The name of an event that gives none. -/
def defaultEvent : String := "message"

/-! ## Writing -/

/-- A character that ends a line. -/
def isLineEnd (c : Char) : Bool := c = '\r' ∨ c = '\n'

/-- The lines of a field's text that say something. -/
def fieldLines (text : String) : List (List Char) :=
  (text.toList.splitOnP isLineEnd).filter (fun line => !line.isEmpty)

/-- Appends a field: a line with its name for each of its lines. -/
def writeField (out : String) (name text : String) : String :=
  (fieldLines text).foldl (fun out line => out ++ name ++ ": " ++ String.ofList line ++ "\n") out

/-- The text of an event. The default name goes without saying. -/
def encode (e : Event) : String :=
  let out := writeField "" "id" e.id
  let out := if e.event = defaultEvent then out else writeField out "event" e.event
  let out := writeField out "data" e.data
  writeField out "retry" e.retry ++ "\n"

/-! ## Lines -/

/-- What a line says. -/
inductive Line where
  | endOfEvent
  | ignored
  | field (name value : String)
  deriving DecidableEq, Repr

/-- Reads a line. A field is a name of at least two bytes that does not start with `#`, a colon and
a value, whose blanks at the ends do not count. -/
def Line.parse (text : String) : Line :=
  let cs := text.toList
  let name := cs.takeWhile (· ≠ ':')
  match cs.drop name.length with
  | [] => if cs.isEmpty then .endOfEvent else .ignored
  | _ :: value =>
    let name := String.ofList name
    if name.utf8ByteSize ≤ 1 ∨ cs.head? = some '#' then .ignored
    else .field name (String.ofList (Text.trimChars value))

/-- Adds a line to the text of a field. -/
def append (text value : String) : String := if text = "" then value else text ++ "\n" ++ value

/-- Adds a field's line to an event; fields of other names do not count. -/
def Event.add (e : Event) (name value : String) : Event :=
  if name = "event" then { e with event := append e.event value }
  else if name = "data" then { e with data := append e.data value }
  else if name = "id" then { e with id := append e.id value }
  else if name = "retry" then { e with retry := append e.retry value }
  else e

/-- An event that is complete. -/
def Event.finish (e : Event) : Event := if e.event = "" then { e with event := defaultEvent } else e

/-- Takes a line into the event that is being read; an event that is complete comes out. -/
def takeLine (e : Event) (text : String) : Event × Option Event :=
  match Line.parse text with
  | .endOfEvent => ({}, some (Event.finish e))
  | .ignored => (e, none)
  | .field name value => (Event.add e name value, none)

/-! ## Reading byte by byte -/

/-- What has been read: whether the last byte was a CR that ended a line, the bytes of the current
line, the latest first, and the current event. -/
structure Reader where
  afterCr : Bool := false
  line : List UInt8 := []
  event : Event := {}
  deriving Inhabited

namespace Reader

/-- Ends the current line. -/
def endLine (r : Reader) (afterCr : Bool) : Reader × Option Event :=
  let (event, done) := takeLine r.event (Text.lossy r.line.reverse)
  (⟨afterCr, [], event⟩, done)

/-- Takes a byte. The LF of a CRLF ends no line of its own. -/
def byte (r : Reader) (b : UInt8) : Reader × Option Event :=
  if b = 0x0A then
    if r.afterCr then ({ r with afterCr := false }, none) else r.endLine false
  else if b = 0x0D then r.endLine true
  else ({ r with afterCr := false, line := b :: r.line }, none)

/-- Takes the bytes of a read; the events found so far are given latest first. -/
def bytes (r : Reader) (found : List Event) : List UInt8 → Reader × List Event
  | [] => (r, found)
  | b :: rest =>
    match r.byte b with
    | (r, some e) => bytes r (e :: found) rest
    | (r, none) => bytes r found rest

/-- The end of the input. A line that it cuts short is taken like any other, unless the input ends
with an error. -/
def finish (failed : Bool) (r : Reader) (found : List Event) : List Event :=
  if failed ∨ r.line = [] then found
  else match r.endLine false with
    | (_, some e) => e :: found
    | (_, none) => found

/-- Takes one read after the other, up to the end of the input. -/
def chunks (failed : Bool) (r : Reader) (found : List Event) : List (List UInt8) → List Event
  | [] => (r.finish failed found).reverse
  | c :: rest =>
    match r.bytes found c with
    | (r, found) => chunks failed r found rest

end Reader

/-- The events in an input that comes in reads and ends properly or with an error. What the last
event lacks an empty line for is lost. -/
def read (input : List (List UInt8)) (failed : Bool := false) : List Event :=
  Reader.chunks failed {} [] input

/-! ## Reading a whole input -/

/-- The lines of an input that an end of line follows: CRLF, CR or LF. -/
def terminatedLines (line : List UInt8) : List UInt8 → List (List UInt8)
  | [] => []
  | 0x0D :: 0x0A :: rest => line.reverse :: terminatedLines [] rest
  | b :: rest =>
    if b = 0x0D ∨ b = 0x0A then line.reverse :: terminatedLines [] rest
    else terminatedLines (b :: line) rest

/-- The events that lines make. -/
def eventsOf (e : Event) : List String → List Event
  | [] => []
  | text :: rest =>
    match takeLine e text with
    | (e, some done) => done :: eventsOf e rest
    | (e, none) => eventsOf e rest

/-- The events of a whole input. -/
def parse (input : List UInt8) : List Event :=
  eventsOf {} ((terminatedLines [] input).map Text.lossy)

/-! ## What becomes of a field -/

/-- What a reader makes of a field's text: its lines without blanks at their ends, and without
those in front that are then empty. -/
def normalText (text : String) : String :=
  let lines := (fieldLines text).map Text.trimChars
  String.ofList
    (((lines.dropWhile List.isEmpty).intersperse ['\n']).flatten)

/-- What a reader makes of an event. -/
def normal (e : Event) : Event :=
  { id := normalText e.id
    event := if normalText e.event = "" then defaultEvent else normalText e.event
    data := normalText e.data
    retry := normalText e.retry }

end Sse

end OrderBroker.Stream
