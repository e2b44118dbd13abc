import OrderBroker.Json.Wire

/-!
# Health answers

Whether the broker runs, and whether every vendor that is enabled can be reached. The broker is
degraded as soon as one vendor is not reached.
-/

namespace OrderBroker.Http

/-- That the broker runs. -/
structure Liveness where
  status : String
  deriving DecidableEq, Repr

namespace Liveness

instance : Wire Liveness where
  toJson l := .record [Json.field "status" (.string l.status)]
  ofTree? t := do
    let r ← Json.Record.ofTree? (Json.Fields.ofNames ["status"]) t
    return { status := ← r.required "status" (·.text?) }

/-- The broker runs. -/
def ok : Liveness := ⟨"ok"⟩

end Liveness

/-- What was found of the broker and of each vendor. -/
structure Checks where
  service : String
  /-- By provider name, in the order of the names. -/
  providers : List (String × String)
  deriving DecidableEq, Repr

namespace Checks

/-- Puts a text in its place by name; an equal name takes the new text. -/
def insert (name text : String) : List (String × String) → List (String × String)
  | [] => [(name, text)]
  | (n, t) :: rest =>
    if name < n then (name, text) :: (n, t) :: rest
    else if name = n then (name, text) :: rest
    else (n, t) :: insert name text rest

/-- Texts in the order of their names, the last of equal names winning. -/
def sorted (texts : List (String × String)) : List (String × String) :=
  texts.foldl (fun found (name, text) => insert name text found) []

/-- An object of texts. -/
def textsOfTree? : Json.Tree → Option (List (String × String))
  | .object members =>
    (members.mapM fun (raw, t) => do return (← Json.Escape.unescape? raw, ← Json.Tree.text? t)).map sorted
  | _ => none

instance : Wire Checks where
  toJson c := .record [
    Json.field "service" (.string c.service),
    Json.field "providers" (.object (c.providers.map fun (name, text) => (name, .string text)))]
  ofTree? t := do
    let r ← Json.Record.ofTree? (Json.Fields.ofNames ["service", "providers"]) t
    return {
      service := ← r.required "service" (·.text?)
      providers := ← r.required "providers" textsOfTree? }

end Checks

/-- Whether the broker can do its work. -/
structure Readiness where
  status : String
  checks : Checks
  deriving DecidableEq, Repr

namespace Readiness

instance : Wire Readiness where
  toJson r := .record [
    Json.field "status" (.string r.status),
    Json.field "checks" (Wire.toJson r.checks)]
  ofTree? t := do
    let r ← Json.Record.ofTree? (Json.Fields.ofNames ["status", "checks"]) t
    return {
      status := ← r.required "status" (·.text?)
      checks := ← r.required "checks" Wire.ofTree? }

/-- The broker can do its work if every vendor was reached. -/
def ofReached (reached : List (String × Bool)) : Readiness where
  status := if reached.all (·.2) then "ok" else "degraded"
  checks := {
    service := "ok"
    providers := Checks.sorted
      (reached.map fun (name, ok) => (name, if ok then "ok" else "unavailable")) }

/-- The HTTP status of the answer. -/
def httpStatus (r : Readiness) : Nat := if r.status = "ok" then 200 else 503

end Readiness

end OrderBroker.Http
