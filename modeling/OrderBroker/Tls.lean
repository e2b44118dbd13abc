import OrderBroker.Bytes
import OrderBroker.Crypto.Certificate
import OrderBroker.Crypto.Pem.File
import OrderBroker.Crypto.PrivateKey

/-!
# Material for vendor connections

Both vendors are reached over connections on which each side shows a certificate. The material is
PEM: the certificates to trust, and the broker's own certificate and key. Every part is optional,
but certificate and key come together. A connection can be set up only with material that reads, and
with a key that belongs to the broker's certificate.
-/

namespace OrderBroker

/-- The PEM material of a connection. -/
structure TlsMaterial where
  rootCa : Option ByteArray := none
  clientCert : Option ByteArray := none
  clientKey : Option ByteArray := none
  deriving DecidableEq

/-- Why a connection cannot be set up. -/
inductive TlsFault where
  | rootCa (reason : String)
  | identity (reason : String)
  | build (reason : String)
  deriving DecidableEq, Repr

/-- The words for a fault. -/
def TlsFault.text : TlsFault → String
  | .rootCa reason => "invalid root CA: " ++ reason
  | .identity reason => "invalid client identity: " ++ reason
  | .build reason => "failed to build HTTP client: " ++ reason

namespace TlsMaterial

open Crypto

/-- What is said of trusted certificates that are none. -/
def noCertificates : String := "no certificates found in PEM"

/-- What is said of a certificate without its key, or the reverse. -/
def halfIdentity : String := "client certificate and key must be configured together"

/-- The label of certificates. -/
def certificateLabel : String := "CERTIFICATE"

/-- The broker's own certificate, which stands before those that vouch for it, and its key. -/
structure Identity where
  certificate : List UInt8
  keyForm : PrivateKey.Form
  key : List UInt8
  deriving DecidableEq, Repr

/-- The certificates among sections. -/
def certificates (sections : List Pem) : List (List UInt8) :=
  (sections.filter (·.label = certificateLabel)).map (·.bytes)

/-- The private keys among sections, with their forms. -/
def keys (sections : List Pem) : List (PrivateKey.Form × List UInt8) :=
  sections.filterMap fun pem => (PrivateKey.labels.lookup pem.label).map (·, pem.bytes)

/-- Reads the certificates to trust. -/
def trusted (pem : ByteArray) : Except TlsFault (List (List UInt8)) :=
  match Pem.sections? pem.data.toList with
  | none => .error (.rootCa "the PEM is malformed")
  | some sections =>
    if (certificates sections).isEmpty then .error (.rootCa noCertificates)
    else .ok (certificates sections)

/-- Reads the broker's own certificates and key: the first certificate and the last key count. -/
def identity (cert key : ByteArray) : Except TlsFault Identity :=
  match Pem.sections? (cert.data.toList ++ 0x0A :: key.data.toList) with
  | none => .error (.identity "the PEM is malformed")
  | some sections =>
    if (certificates sections).length + (keys sections).length < sections.length then
      .error (.identity "neither a certificate nor a key")
    else match certificates sections, (keys sections).getLast? with
      | certificate :: _, some (form, key) => .ok ⟨certificate, form, key⟩
      | [], _ => .error (.identity "no certificate")
      | _, none => .error (.identity "no private key")

/-- The key reads, and the certificate is about it. -/
def Identity.isConsistent (own : Identity) : Bool :=
  (PrivateKey.publicInfo? own.keyForm own.key).any fun info =>
    (Certificate.ofDer? own.certificate).any (·.keyInfo = info)

/-- Whether a connection can be set up with the material. -/
def check (m : TlsMaterial) : Except TlsFault Unit := do
  let roots ← match m.rootCa with
    | some pem => trusted pem
    | none => .ok []
  let own ← match m.clientCert, m.clientKey with
    | some cert, some key => (identity cert key).map some
    | none, none => .ok none
    | _, _ => .error (.identity halfIdentity)
  if ¬ roots.all Certificate.canBeTrusted then .error (.build "not a certificate")
  if ¬ own.all (·.isConsistent) then .error (.build "the certificate is not about the key")

end TlsMaterial

end OrderBroker
