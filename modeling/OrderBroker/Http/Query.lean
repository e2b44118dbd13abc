import OrderBroker.Text.Lossy
import OrderBroker.Text.Natural

/-!
# Queries

The part of a request's target after the question mark: names and values of a form, and how an
endpoint reads the few that it knows. A name that it does not know is passed over; one that it knows
may come only once.
-/

namespace OrderBroker.Http

namespace Query

/-- What stands before and after the first such character; nothing after it where there is none. -/
def cutAt (sep : Char) (cs : List Char) : List Char × List Char :=
  let front := cs.takeWhile (· ≠ sep)
  (front, cs.drop (front.length + 1))

/-- Takes the escapes out of a form text: a plus sign is a blank, and a percent sign with two
hexadecimal digits a byte. -/
def unescape : List UInt8 → List UInt8
  | [] => []
  | 0x2B :: rest => 0x20 :: unescape rest
  | 0x25 :: a :: b :: rest =>
    match Text.hexValue? a.toNat, Text.hexValue? b.toNat with
    | some high, some low => UInt8.ofNat (high * 16 + low) :: unescape rest
    | _, _ => 0x25 :: unescape (a :: b :: rest)
  | b :: rest => b :: unescape rest

/-- The text that a form text stands for. -/
def formText (cs : List Char) : String :=
  Text.lossy (unescape (String.ofList cs).toUTF8.data.toList)

/-- The names and values of a query. -/
def pairs (query : String) : List (String × String) :=
  ((query.toList.splitOn '&').filter (fun part => !part.isEmpty)).map fun part =>
    let (name, value) := cutAt '=' part
    (formText name, formText value)

/-- The value of a name that may come only once. -/
def single? (query : String) (name : String) : Option (Option String) :=
  match (pairs query).filter (·.1 = name) with
  | [] => some none
  | [(_, value)] => some (some value)
  | _ => none

/-- A truth value; false where it is not given. -/
def flag? (query : String) (name : String) : Option Bool :=
  match single? query name with
  | some none => some false
  | some (some "true") => some true
  | some (some "false") => some false
  | _ => none

end Query

end OrderBroker.Http
