import OrderBroker.Bytes
import OrderBroker.Http.MediaType
import OrderBroker.Http.Problem
import OrderBroker.Http.Query
import OrderBroker.Stream.Format

/-!
# HTTP messages

What the broker is sent and what it sends back. An answer is whole, or it is the head of a stream
whose chunks follow.
-/

namespace OrderBroker.Http

/-! ## Requests -/

/-- A request. -/
structure Request where
  method : String
  /-- The path and, after a question mark, the query; before them, perhaps, a scheme and a host. -/
  target : String
  contentType : Option String := none
  /-- The caller's name for the request. -/
  requestId : Option String := none
  body : ByteArray := .empty
  deriving DecidableEq

namespace Request

/-- A letter, digit or mark of a scheme. -/
def isSchemeChar (c : Char) : Bool := c.isAlphanum || c = '+' || c = '-' || c = '.'

/-- What follows the scheme and the host of an address: a path, which is `/` where none is written,
and a query. -/
def afterHost? (address : List Char) : Option (List Char) :=
  match address.dropWhile isSchemeChar with
  | ':' :: '/' :: '/' :: rest =>
    match rest.dropWhile fun c => c ≠ '/' && c ≠ '?' with
    | '/' :: path => some ('/' :: path)
    | query => some ('/' :: query)
  | _ => none

/-- The path and the query, without scheme, host and fragment. A host alone has neither. -/
def resource (q : Request) : List Char :=
  match (Query.cutAt '#' q.target.toList).1 with
  | '/' :: path => '/' :: path
  | address => (afterHost? address).getD []

/-- The path of the target. -/
def path (q : Request) : String := String.ofList (Query.cutAt '?' q.resource).1

/-- The query of the target. -/
def query (q : Request) : String := String.ofList (Query.cutAt '?' q.resource).2

/-- The content type is JSON, or a format built on it. -/
def isJson (q : Request) : Bool :=
  (q.contentType.bind fun text => MediaType.parse? text.toList).any (·.isJson)

/-- The longest body that is read, in bytes. -/
def maxBody : Nat := 2 * 1024 * 1024

/-- What is said of a body that is not declared to be JSON. -/
def notJson : String := "Expected request with `Content-Type: application/json`"

/-- What is said of a body that is longer than that. -/
def tooLong : String := "Failed to buffer the request body: length limit exceeded"

/-- What is said of a body that cannot be read. -/
def unreadable : String := "The body is not of the expected form"

/-- Reads the body. -/
def read {α : Type} (q : Request) (read : Json.Tree → Option α) : Except Problem α :=
  if ¬ q.isJson then .error (.badRequest notJson)
  else if maxBody < q.body.size then .error (.badRequest tooLong)
  else match (Json.Tree.ofBytes? q.body.data.toList).bind read with
    | some a => .ok a
    | none => .error (.badRequest unreadable)

end Request

/-! ## Answers -/

/-- An answer, or the head of a stream. -/
structure Response where
  status : Nat
  contentType : Option String := none
  cacheControl : Option String := none
  /-- The methods that the path takes. -/
  allow : Option String := none
  requestId : Option String := none
  body : String := ""
  /-- Chunks follow. -/
  isStream : Bool := false
  deriving DecidableEq, Repr

namespace Response

/-- A document. -/
def document (status : Nat) (j : Json) : Response :=
  { status, contentType := some "application/json", body := j.render }

/-- A value. -/
def value {α : Type} [Wire α] (a : α) : Response := document 200 (Wire.toJson a)

/-- There is nothing to say. -/
def noContent : Response := { status := 204 }

/-- An error. -/
def problem (p : Problem) : Response := document p.status (Wire.toJson p.body)

/-- A query that cannot be read. -/
def badQuery : Response :=
  { status := 400, contentType := some "text/plain; charset=utf-8"
    body := "The query is not of the expected form" }

/-- There is no such path. -/
def noSuchPath : Response := { status := 404 }

/-- What a path takes, if there is such a path. -/
def options (allowed : Option String) : Response := { status := 200, allow := allowed }

/-- The path does not take the method. -/
def wrongMethod (allowed : String) : Response := { status := 405, allow := some allowed }

/-- The head of a stream. -/
def stream (format : Stream.Format) : Response :=
  { status := 200, contentType := some format.contentType, cacheControl := some "no-cache"
    isStream := true }

/-- The value of an operation, or its failure. -/
def ofResult {α : Type} (value : α → Response) : Except Failure α → Response
  | .ok a => value a
  | .error failure => problem (.ofFailure failure)

end Response

/-- What goes back to the client. -/
inductive Message where
  | response (r : Response)
  /-- A chunk of a stream. -/
  | chunk (text : String)
  deriving DecidableEq, Repr

/-- The message with another response. -/
def Message.mapResponse (f : Response → Response) : Message → Message
  | .response r => .response (f r)
  | .chunk text => .chunk text

end OrderBroker.Http
