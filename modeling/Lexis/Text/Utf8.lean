-- UTF-8, read one byte at a time. Reading stops at the first byte that no
-- UTF-8 text can hold there, and says how much of the input was sound.
import Lexis.Text.Basic

namespace Lexis.Utf8

/-! ## One character -/

/-- A character that has begun: the number its bits spell so far, the bytes it
has, the bytes it still needs, and the range of the next one. -/
structure Pending where
  value : Nat
  taken : Nat
  owed : Nat
  low : Nat
  high : Nat
deriving DecidableEq, Repr

/-- What one more byte leads to. -/
inductive Step where
  | refused
  | complete (c : Char)
  | pending (p : Pending)
deriving DecidableEq, Repr

/-- The step of a byte that begins a character. The ranges leave out spellings
that are too long, surrogates, and numbers past the last code point. -/
def begin (byte : UInt8) : Step :=
  let b := byte.toNat
  if b ≤ 0x7F then .complete (Char.ofNat b)
  else if 0xC2 ≤ b ∧ b ≤ 0xDF then .pending ⟨b - 0xC0, 1, 1, 0x80, 0xBF⟩
  else if b = 0xE0 then .pending ⟨0, 1, 2, 0xA0, 0xBF⟩
  else if b = 0xED then .pending ⟨0xD, 1, 2, 0x80, 0x9F⟩
  else if 0xE1 ≤ b ∧ b ≤ 0xEF then .pending ⟨b - 0xE0, 1, 2, 0x80, 0xBF⟩
  else if b = 0xF0 then .pending ⟨0, 1, 3, 0x90, 0xBF⟩
  else if 0xF1 ≤ b ∧ b ≤ 0xF3 then .pending ⟨b - 0xF0, 1, 3, 0x80, 0xBF⟩
  else if b = 0xF4 then .pending ⟨4, 1, 3, 0x80, 0x8F⟩
  else .refused

/-- The step of a byte inside a character. -/
def Pending.next (p : Pending) (byte : UInt8) : Step :=
  let b := byte.toNat
  if p.low ≤ b ∧ b ≤ p.high then
    let value := 64 * p.value + (b - 0x80)
    if p.owed ≤ 1 then .complete (Char.ofNat value)
    else .pending ⟨value, p.taken + 1, p.owed - 1, 0x80, 0xBF⟩
  else .refused

/-! ## A whole input -/

/-- Why an input is not UTF-8: the number of bytes before the first fault, and
the length of the faulty sequence. The length is absent when the input ends
inside a character. -/
structure Malformed where
  validUpTo : Nat
  badLength : Option Nat
deriving DecidableEq, Repr

/-- Reads on, given how many bytes made up the characters read before and the
character that has begun, if any. -/
def decodeFrom (sound : Nat) : Option Pending → List UInt8 → Except Malformed Text
  | none, [] => .ok []
  | some _, [] => .error ⟨sound, none⟩
  | none, b :: bytes =>
    match begin b with
    | .refused => .error ⟨sound, some 1⟩
    | .complete c => (decodeFrom (sound + 1) none bytes).map (c :: ·)
    | .pending p => decodeFrom sound (some p) bytes
  | some p, b :: bytes =>
    match p.next b with
    | .refused => .error ⟨sound, some p.taken⟩
    | .complete c => (decodeFrom (sound + p.taken + 1) none bytes).map (c :: ·)
    | .pending q => decodeFrom sound (some q) bytes

/-- The text that bytes spell. -/
def decode (bytes : List UInt8) : Except Malformed Text := decodeFrom 0 none bytes

/-- The bytes of a text. -/
def encode (t : Text) : List UInt8 := t.flatMap String.utf8EncodeChar

end Lexis.Utf8
