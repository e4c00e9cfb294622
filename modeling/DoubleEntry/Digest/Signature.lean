import DoubleEntry.Digest.Sha256
import DoubleEntry.Json.Printer

/-!
# Signatures of messages

A message is signed with a secret by HMAC-SHA256. The signature is written in lower hexadecimal
digits, and only that text verifies.

## Main definitions

* `hmac`: the code of a message under a key. `sign`: its text. `verify`: whether a text is it.
-/

namespace DoubleEntry

/-- The code of a message under a key, by SHA-256 with blocks of 64 bytes. -/
def hmac (key message : List UInt8) : List UInt8 :=
  let short := if 64 < key.length then Sha256.hash key else key
  let block := short ++ List.replicate (64 - short.length) 0
  let inner := Sha256.hash (block.map (· ^^^ 0x36) ++ message)
  Sha256.hash (block.map (· ^^^ 0x5c) ++ inner)

/-- Two lower hexadecimal digits for each byte. -/
def hexText (bytes : List UInt8) : String :=
  String.ofList <| bytes.flatMap fun b =>
    [Json.hexDigit (b.toNat / 16), Json.hexDigit (b.toNat % 16)]

/-- The bytes of a text. -/
def utf8 (s : String) : List UInt8 := s.toUTF8.toList

/-- The signature of a message under a secret. -/
def sign (message secret : String) : String := hexText (hmac (utf8 secret) (utf8 message))

/-- The text is the signature of the message under the secret. -/
def verify (message signature secret : String) : Bool := sign message secret == signature

end DoubleEntry
