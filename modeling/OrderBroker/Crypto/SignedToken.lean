import OrderBroker.Base64
import OrderBroker.Crypto.Rsa
import OrderBroker.Crypto.TokenClaims
import OrderBroker.Crypto.TokenHeader
import OrderBroker.Crypto.TokenKey

/-!
# Signed tokens

A signed token is three base64url texts between points: a header, a payload and a signature over
the first two as they are written. Only the algorithm RS256 is accepted. What the payload claims is
not weighed.
-/

namespace OrderBroker.Crypto

/-- Why a token is not accepted. -/
inductive TokenFault where
  | malformed
  | wrongAlgorithm
  | badSignature
  deriving DecidableEq, Repr

/-- The words for a fault. -/
def TokenFault.text : TokenFault → String
  | .malformed => "the token is malformed"
  | .wrongAlgorithm => "the token is signed with another algorithm"
  | .badSignature => "the signature does not match"

namespace TokenKey

/-- The algorithm that tokens are signed with. -/
def algorithm : String := "RS256"

/-- What stands before and after the last point. -/
def cutLast (cs : List Char) : Option (List Char × List Char) :=
  let back := cs.reverse
  let last := back.takeWhile (· ≠ '.')
  match back.drop last.length with
  | _ :: front => some (front.reverse, last.reverse)
  | [] => none

/-- Accepts a token, or says why not. -/
def verify (k : TokenKey) (token : String) : Except TokenFault Unit := do
  let some (message, signature) := cutLast token.toList | .error .malformed
  let some (header, payload) := cutLast message | .error .malformed
  let decode (cs : List Char) : Option ByteArray := Base64.urlSafe.decode? (String.ofList cs)
  let some headerBytes := decode header | .error .malformed
  let some named := TokenHeader.algorithm? headerBytes.data.toList | .error .malformed
  if named ≠ algorithm then .error .wrongAlgorithm
  let some signatureBytes := decode signature | .error .malformed
  let some key := RsaKey.ofDer? k.der | .error .badSignature
  if ¬ key.verifies (String.ofList message).toUTF8 signatureBytes then .error .badSignature
  let some payloadBytes := decode payload | .error .malformed
  if ¬ TokenClaims.isClaims payloadBytes.data.toList then .error .malformed

end TokenKey

end OrderBroker.Crypto
