import OrderBroker.Json.Wire
import OrderBroker.Text.Blank

/-!
# One JSON value on every line

A value as a line, and the values of an input's lines. Lines that are blank are skipped, and the
first line that is no value ends the reading. The reader takes a byte at a time; `parse` is the same
reading of a whole input.
-/

namespace OrderBroker.Stream.Ndjson

/-- The line of a document. -/
def encode (j : Json) : String := j.render.push '\n'

/-! ## Lines -/

/-- A line without the CR at its end. -/
def dropCr (line : List UInt8) : List UInt8 :=
  match line.reverse with
  | 0x0D :: rest => rest.reverse
  | _ => line

/-- What a line gives. -/
inductive Taken (α : Type) where
  | skipped
  | value (a : α)
  | malformed

/-- Reads a line. -/
def takeLine {α : Type} (decode : String → Option α) (line : List UInt8) : Taken α :=
  match String.fromUTF8? (ByteArray.mk line.toArray) with
  | none => .malformed
  | some text =>
    if Text.isBlankText text then .skipped
    else match decode text with
      | some a => .value a
      | none => .malformed

/-! ## Reading byte by byte -/

/-- What has been read: the bytes of the current line and the values found, the latest first, and
whether a line was malformed. -/
structure Reader (α : Type) where
  line : List UInt8 := []
  found : List α := []
  closed : Bool := false

namespace Reader

variable {α : Type}

/-- Ends the current line. -/
def endLine (decode : String → Option α) (r : Reader α) (line : List UInt8) : Reader α :=
  match takeLine decode line with
  | .skipped => { r with line := [] }
  | .value a => { r with line := [], found := a :: r.found }
  | .malformed => { r with line := [], closed := true }

/-- Takes a byte. After a malformed line nothing is read any more. -/
def byte (decode : String → Option α) (r : Reader α) (b : UInt8) : Reader α :=
  if r.closed then r
  else if b = 0x0A then r.endLine decode (dropCr r.line.reverse)
  else { r with line := b :: r.line }

/-- Takes the bytes of a read. -/
def bytes (decode : String → Option α) (r : Reader α) (chunk : List UInt8) : Reader α :=
  chunk.foldl (byte decode) r

/-- The end of the input; a line that it cuts short counts. -/
def finish (decode : String → Option α) (r : Reader α) : Reader α :=
  if r.closed ∨ r.line = [] then r else r.endLine decode r.line.reverse

end Reader

/-- The values in an input that comes in reads and ends properly or with an error. -/
def read {α : Type} (decode : String → Option α) (input : List (List UInt8)) (failed : Bool) :
    List α :=
  let r := input.foldl (Reader.bytes decode) {}
  (if failed then r else r.finish decode).found.reverse

/-! ## Reading a whole input -/

/-- The lines of an input; the last one, if it is not empty, only where the input ends properly. -/
def lines (failed : Bool) (line : List UInt8) : List UInt8 → List (List UInt8)
  | [] => if failed ∨ line = [] then [] else [line.reverse]
  | b :: rest =>
    if b = 0x0A then dropCr line.reverse :: lines failed [] rest
    else lines failed (b :: line) rest

/-- The values of lines up to the first malformed one. -/
def valuesOf {α : Type} (decode : String → Option α) : List (List UInt8) → List α
  | [] => []
  | line :: rest =>
    match takeLine decode line with
    | .skipped => valuesOf decode rest
    | .value a => a :: valuesOf decode rest
    | .malformed => []

/-- The values of a whole input. -/
def parse {α : Type} (decode : String → Option α) (input : List UInt8) (failed : Bool) : List α :=
  valuesOf decode (lines failed [] input)

end OrderBroker.Stream.Ndjson
