import OrderBroker.Exchange
import OrderBroker.Base64
import OrderBroker.Json.Value
import OrderBroker.Text.Lossy

/-!
# Scripted vendors

What the vendors of a rehearsal answer. A script is a list of rules, each with the replies to the
requests that it takes: the first to the first request, and the last to all that are left. A request
that no rule takes is answered that there is no such thing.
-/

namespace OrderBroker.Rehearsal

/-- A reply. Times are in milliseconds. -/
structure Reply where
  status : Nat := 200
  body : ByteArray := .empty
  delay : Nat := 0
  /-- Never comes. -/
  hangs : Bool := false
  deriving DecidableEq

/-- The replies to requests of one kind. -/
structure Rule where
  /-- The path of the requests. -/
  path : String
  /-- The order that the requests name, if it matters. -/
  reference : Option String := none
  replies : List Reply
  deriving DecidableEq

/-- What the vendors answer. -/
structure Script where
  /-- Where the vendors' addresses start. -/
  root : String := ""
  /-- The vendors that can be reached. -/
  listening : Vendor → Bool := fun _ => true
  rules : List Rule := []

/-- The keys under which requests name an order. -/
def referenceKeys : List String := ["orderRef", "authRef", "signRef"]

/-- The document that a request brings: its body, or what stands in base64 after a name. -/
def documentOf? (body : String) : Option Json :=
  (Json.ofText? body).orElse fun _ =>
    (Base64.standard.decode? (String.ofList ((body.toList.dropWhile (· ≠ '=')).drop 1))).bind
      fun bytes => Json.ofBytes? bytes.data.toList

/-- The order that a request names. -/
def referenceOf? (call : Call) : Option String :=
  (documentOf? call.body).bind fun document =>
    (referenceKeys.filterMap document.get?).head?.bind Json.text?

namespace Script

/-- The path that a request goes to. -/
def pathOf (s : Script) (call : Call) : String :=
  let rest := call.url.toList.drop s.root.length
  String.ofList (if rest.isEmpty then ['/'] else rest)

/-- The rule takes the request. -/
def takes (path : String) (reference : Option String) (rule : Rule) : Bool :=
  rule.path = path ∧ (rule.reference.isNone ∨ rule.reference = reference)

/-- The reply by the first rule that takes a request, and the rules that are left. -/
def replyBy (path : String) (reference : Option String) : List Rule → Reply × List Rule
  | [] => ({ status := 404 }, [])
  | rule :: rest =>
    if takes path reference rule then
      match rule.replies with
      | [] => ({ status := 404 }, rule :: rest)
      | [last] => (last, rule :: rest)
      | reply :: more => (reply, { rule with replies := more } :: rest)
    else
      let (reply, rest) := replyBy path reference rest
      (reply, rule :: rest)

/-- The reply to a request, and the script from then on. -/
def reply (s : Script) (call : Call) : Reply × Script :=
  let (reply, rules) := replyBy (s.pathOf call) (referenceOf? call) s.rules
  (reply, { s with rules })

end Script

/-- Some answers have no body. -/
def Reply.content (r : Reply) : ByteArray :=
  if r.status = 204 ∨ r.status = 304 then .empty else r.body

end OrderBroker.Rehearsal
