import OrderBroker.Crypto.Sha256

/-!
# Keyed digests

HMAC over SHA-256: the digest of a message under a secret of any length. A secret longer than a
block is replaced by its digest.
-/

namespace OrderBroker.Crypto

/-- Bytes as a byte array. -/
def ofByteList (bytes : List UInt8) : ByteArray := bytes.foldl ByteArray.push .empty

/-- The secret as one block of 64 bytes. -/
def hmacKey (secret : ByteArray) : ByteArray :=
  let key := if 64 < secret.size then ofByteList (sha256 secret).bytes else secret
  Sha256.pushZeros key (64 - key.size)

/-- The digest of a message under a secret. -/
def hmacSha256 (secret message : ByteArray) : Digest :=
  let key := hmacKey secret
  let masked (mask : UInt8) : ByteArray := ofByteList (key.data.toList.map (· ^^^ mask))
  let inner := sha256 (masked 0x36 ++ message)
  sha256 (masked 0x5C ++ ofByteList inner.bytes)

end OrderBroker.Crypto
