import OrderBroker.Crypto.Der

/-!
# Certificates

What is looked at of an X.509 certificate before a connection is made: whether it is one, and the
public key that it is about. Names, dates and the signature are left to the connection itself.

A certificate is of version 3. One that only says whom to trust may also be of version 1, which has
neither a version number nor extensions.
-/

namespace OrderBroker.Crypto

/-- A certificate. -/
structure Certificate where
  /-- The public key with its algorithm, as it is written. -/
  keyInfo : List UInt8
  deriving DecidableEq, Repr

namespace Certificate

/-- A certificate has fewer bytes, whatever it holds. -/
def sizeLimit : Nat := 0xFFFF

/-- The number that stands for version 3. -/
def version3 : Nat := 2

/-! ## Extensions -/

/-- What the identifiers of the usual extensions start with. -/
def usualExtensions : List UInt8 := [0x55, 0x1D]

/-- The extension that says what a key is for. -/
def keyUsage : UInt8 := 15

/-- The extensions that are looked at: what the key is for, other names, whether other certificates
may follow, which names those may have, where to learn of revocations, and again what the key is
for. -/
def knownExtensions : List UInt8 := [keyUsage, 17, 19, 30, 31, 37]

/-- An extension. -/
structure Extension where
  id : List UInt8
  isCritical : Bool
  value : List UInt8

/-- Reads an extension. It is critical only if it says so. -/
def Extension.ofDer? (d : Der) : Option Extension := do
  match ← d.sequence? with
  | [id, value] => return ⟨← id.contentOf? Der.objectId, false, ← value.contentOf? Der.octetString⟩
  | [id, critical, value] =>
    return ⟨← id.contentOf? Der.objectId, ← critical.boolean?, ← value.contentOf? Der.octetString⟩
  | _ => none

/-- The number of an extension that is looked at. -/
def Extension.known? (e : Extension) : Option UInt8 :=
  knownExtensions.find? fun n => e.id = usualExtensions ++ [n]

/-- An extension that is looked at has to hold a sequence, except for the one that holds bits, and
any other must not be critical. -/
def Extension.isAcceptable (e : Extension) : Bool :=
  match e.known? with
  | some n => n = keyUsage || (Der.one? e.value).any (·.tag = Der.sequence)
  | none => !e.isCritical

/-- There are extensions that can be accepted, and none that is looked at comes twice. -/
def areAcceptable (es : List Extension) : Bool :=
  let known := es.filterMap (·.known?)
  !es.isEmpty && es.all (·.isAcceptable) && known.eraseDups.length = known.length

/-- What follows the public key is nothing, or acceptable extensions. -/
def isRest : List Der → Bool
  | [] => true
  | [d] =>
    (do
      let list ← Der.one? (← d.contentOf? (Der.numbered 3))
      (← list.sequence?).mapM Extension.ofDer? : Option (List Extension)).any areAcceptable
  | _ => false

/-! ## Certificates -/

/-- The parts of a certificate that is signed with whole bytes: what is signed, and the algorithm. -/
def parts? (bytes : List UInt8) : Option (List Der × List UInt8) := do
  let d ← Der.one? bytes
  if sizeLimit ≤ d.content.length then none
  let [body, algorithm, signature] ← d.sequence? | none
  let _ ← signature.wholeBits?
  return (← body.sequence?, ← algorithm.contentOf? Der.sequence)

/-- A part that is a sequence. -/
def isSequence (d : Der) : Bool := d.tag = Der.sequence

/-- Reads a certificate of version 3. It names the algorithm of its signature once more. -/
def ofDer? (bytes : List UInt8) : Option Certificate := do
  let (version :: serial :: signature :: issuer :: validity :: subject :: key :: rest, algorithm) ←
    parts? bytes | none
  let number ← Der.one? (← version.contentOf? (Der.numbered 0))
  if number.natural? = some version3 ∧ serial.tag = Der.integer ∧
      signature.contentOf? Der.sequence = some algorithm ∧
      [issuer, validity, subject].all isSequence ∧ isRest rest then
    return ⟨← key.contentOf? Der.sequence⟩
  else none

/-- Reads a certificate of version 1. -/
def ofOldDer? (bytes : List UInt8) : Option Certificate := do
  let ([serial, signature, issuer, validity, subject, key], _) ← parts? bytes | none
  if serial.tag = Der.integer ∧ [signature, issuer, validity, subject].all isSequence then
    return ⟨← key.contentOf? Der.sequence⟩
  else none

/-- The bytes are a certificate that says whom to trust. -/
def canBeTrusted (bytes : List UInt8) : Bool := (ofDer? bytes).isSome || (ofOldDer? bytes).isSome

end Certificate

end OrderBroker.Crypto
