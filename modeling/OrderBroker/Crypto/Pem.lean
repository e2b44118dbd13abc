/-!
# PEM

Keys and certificates as text: base64 between a line that opens a section of some label and a line
that closes it. Here is what a section is and what marks it. A file of sections is read line by
line, as the material of a connection is (`Pem.sections?`), or searched for its first section, as a
verification key is (`Pem.first?`).
-/

namespace OrderBroker.Crypto

/-- A section: its label and its bytes. -/
structure Pem where
  label : String
  bytes : List UInt8
  deriving DecidableEq, Repr

namespace Pem

/-- The bytes of a text. -/
def mark (text : String) : List UInt8 := text.toUTF8.data.toList

/-- What opens a section, before its label. -/
def opening : List UInt8 := mark "-----BEGIN "

/-- What closes a section, before its label. -/
def closing : List UInt8 := mark "-----END "

/-- What ends a label. -/
def dashes : List UInt8 := mark "-----"

end Pem

end OrderBroker.Crypto
