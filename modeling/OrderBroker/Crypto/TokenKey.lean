import OrderBroker.Crypto.Asn1
import OrderBroker.Crypto.Pem.Search

/-!
# Keys that verify tokens

The key is given as PEM. A section of RSA's own form is the key itself. Of a section for another
purpose, be it of a public key, a private key or a certificate, the bytes of its first string are
taken for the key if the first kind of key that it names is RSA. A wrong key of the right kind is
therefore noticed only when a token is verified.
-/

namespace OrderBroker.Crypto

/-- What verifies tokens: the bytes of a key in DER form. -/
structure TokenKey where
  der : List UInt8
  deriving DecidableEq, Repr

namespace TokenKey

/-- The kinds of keys that sections name. -/
inductive Kind where
  | rsa
  | ellipticCurve
  | edwards
  deriving DecidableEq, Repr

/-- The object identifiers of the kinds. -/
def kinds : List (List Nat × Kind) := [
  ([1, 2, 840, 113549, 1, 1, 1], .rsa),
  ([1, 2, 840, 10045, 2, 1], .ellipticCurve),
  ([1, 3, 101, 112], .edwards)]

/-- The kind of key that a piece names. -/
def kindOf? : Asn1 → Option Kind
  | .objectId arcs => kinds.lookup arcs
  | _ => none

/-- The bytes of a string. -/
def stringOf? : Asn1 → Option (List UInt8)
  | .string content => some content
  | _ => none

/-- The labels of sections of RSA's own form. -/
def plainLabels : List String := ["RSA PUBLIC KEY", "RSA PRIVATE KEY"]

/-- The labels of sections that say what kind of key they hold. -/
def namingLabels : List String := ["PUBLIC KEY", "PRIVATE KEY", "CERTIFICATE"]

/-- The key in a section. -/
def ofSection? (pem : Pem) : Option TokenKey := do
  let pieces ← Asn1.ofBytes? pem.bytes
  if plainLabels.contains pem.label then return ⟨pem.bytes⟩
  else if namingLabels.contains pem.label ∧ Asn1.findIn? kindOf? pieces = some .rsa then
    return ⟨← Asn1.findIn? stringOf? pieces⟩
  else none

/-- Reads an RSA key from PEM. -/
def ofPem? (text : ByteArray) : Option TokenKey :=
  (Pem.first? text.data.toList).bind ofSection?

end TokenKey

end OrderBroker.Crypto
