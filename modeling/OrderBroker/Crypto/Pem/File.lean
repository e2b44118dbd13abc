import OrderBroker.Base64
import OrderBroker.Crypto.Pem

/-!
# Files of PEM sections

A file is read line by line; a line ends with a line feed or a carriage return. What stands outside
of sections is passed over. A section of an unknown label is passed over too, whatever is in it, but
what it has gathered counts for a section that is opened before it is closed.
-/

namespace OrderBroker.Crypto.Pem

/-- The labels of sections whose content is read. -/
def knownLabels : List String := [
  "CERTIFICATE", "PUBLIC KEY", "RSA PRIVATE KEY", "PRIVATE KEY", "EC PRIVATE KEY", "X509 CRL",
  "CERTIFICATE REQUEST", "ECHCONFIG"]

/-- Ends a line. -/
def isLineEnd (b : UInt8) : Bool := b = 0x0A || b = 0x0D

/-- The lines of a file, without their ends. -/
def lines (bytes : List UInt8) : List (List UInt8) := bytes.splitOnP isLineEnd

/-- The label of a line that opens a section: what stands before the dashes at the end of the line,
of which there have to be five. Spaces may stand between and after them. -/
def openedLabel? (line : List UInt8) : Option (List UInt8) :=
  let tail := ((line.reverse.takeWhile fun b => b = 0x2D || b = 0x20).reverse).dropWhile (· = 0x20)
  if tail.count 0x2D = 5 then some ((line.take (line.length - tail.length)).drop opening.length)
  else none

/-- The dashes at the end of a line may stand apart. -/
example : openedLabel? (mark "-----BEGIN X- - ---") = some (mark "X") := by decide +kernel

/-- The bytes of gathered base64; blanks do not count. -/
def content? (text : List UInt8) : Option (List UInt8) :=
  Base64.standard.decodeFreely? <|
    (text.filter fun b => !(b = 0x20 || (9 ≤ b && b ≤ 13))).map fun b => Char.ofNat b.toNat

/-- What has been read: the complete sections, the latest first, the label of the open section, and
what has been gathered since a section was last closed, the last byte first. -/
structure Reading where
  found : List Pem := []
  label : Option (List UInt8) := none
  text : List UInt8 := []

/-- Closes the open section. Only a section of a known label has to be base64. -/
def Reading.close (r : Reading) (label : List UInt8) : Option Reading :=
  match knownLabels.find? (mark · = label) with
  | some name => (content? r.text.reverse).map fun bytes => ⟨⟨name, bytes⟩ :: r.found, none, []⟩
  | none => some ⟨r.found, none, []⟩

/-- Takes a line. -/
def Reading.line (r : Reading) (line : List UInt8) : Option Reading :=
  if opening.isPrefixOf line then
    (openedLabel? line).map fun label => { r with label := some label }
  else match r.label with
    | none => some r
    | some label =>
      if (closing ++ label ++ dashes).isPrefixOf line then r.close label
      else some { r with text := line.reverse ++ r.text }

/-- Takes lines. -/
def Reading.lines (r : Reading) : List (List UInt8) → Option Reading
  | [] => some r
  | l :: ls =>
    match r.line l with
    | some r => r.lines ls
    | none => none

/-- The sections of a file with known labels, in order; no section may stay open. -/
def sections? (bytes : List UInt8) : Option (List Pem) :=
  match Reading.lines {} (Pem.lines bytes) with
  | some ⟨found, none, _⟩ => some found.reverse
  | _ => none

end OrderBroker.Crypto.Pem
