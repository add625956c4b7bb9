-- From the bytes of a source file to its text. One byte-order mark at the
-- front is dropped; the rest must be UTF-8.
import Lexis.Text.Utf8

namespace Lexis

/-- The failure to decode a source. The offset counts from the front of the
bytes, with the mark; the cause counts from where decoding began. -/
structure DecodingError where
  validUpTo : Nat
  cause : Utf8.Malformed
deriving DecidableEq, Repr

def DecodingError.message (e : DecodingError) : Text :=
  "source is not valid UTF-8: invalid byte sequence at offset ".toList ++ Text.ofNat e.validUpTo

/-- The UTF-8 form of the byte-order mark. -/
def byteOrderMark : List UInt8 := [0xEF, 0xBB, 0xBF]

/-- The text of bytes that stand after a number of skipped ones. -/
def decodeAfter (skipped : Nat) (body : List UInt8) : Except DecodingError Text :=
  match Utf8.decode body with
  | .ok text => .ok text
  | .error cause => .error ⟨skipped + cause.validUpTo, cause⟩

/-- The text of a source file. -/
def decodeSource (bytes : List UInt8) : Except DecodingError Text :=
  if byteOrderMark.isPrefixOf bytes then
    decodeAfter byteOrderMark.length (bytes.drop byteOrderMark.length)
  else decodeAfter 0 bytes

end Lexis
