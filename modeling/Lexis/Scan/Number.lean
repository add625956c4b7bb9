-- Number literals. Digits alone are an integer; digits, a point and digits
-- are a float. A point that no digit follows is not part of the number.
import Lexis.Scan.Lexeme

namespace Lexis

/-- An integer has a value when it fits in 64 bits. -/
def integerValue? (digits : Text) : Option Literal :=
  let n := Text.decimalValue digits
  if h : n < UInt64.size then some (.integer (UInt64.ofNatLT n h)) else none

/-- The fault of a number that has no value. -/
def valueFaults (text : Text) (value : Option Literal) : List Fault :=
  if value.isNone then [⟨.malformedNumber, [], text⟩] else []

/-- The fault of a point right after an integer. -/
def pointFaults (digits rest : Text) : List Fault :=
  if rest.head? = some '.' then [⟨.malformedNumber, digits, ['.']⟩] else []

def integerLexeme (digits rest : Text) : Lexeme :=
  let value := integerValue? digits
  ⟨.integerLiteral, digits, value, valueFaults digits value ++ pointFaults digits rest⟩

def floatLexeme (whole fraction : Text) : Lexeme :=
  let text := whole ++ '.' :: fraction
  let value := (Binary64.ofDecimal? whole fraction).map .float
  ⟨.floatLiteral, text, value, valueFaults text value⟩

/-- Reads the number that begins with a digit. -/
def readNumber (c : Char) (r : Text) : Lexeme × Text :=
  let digits := c :: r.takeWhile Char.isDigit
  let rest := r.dropWhile Char.isDigit
  match rest with
  | '.' :: d :: more =>
    if d.isDigit then
      (floatLexeme digits (d :: more.takeWhile Char.isDigit), more.dropWhile Char.isDigit)
    else (integerLexeme digits rest, rest)
  | _ => (integerLexeme digits rest, rest)

theorem readNumber_append (c : Char) (r : Text) :
    (readNumber c r).1.text ++ (readNumber c r).2 = c :: r := by
  have h := List.takeWhile_append_dropWhile (p := Char.isDigit) (l := r)
  simp only [readNumber]
  split
  · rename_i d more hr
    rw [hr] at h
    split
    · have hm := List.takeWhile_append_dropWhile (p := Char.isDigit) (l := more)
      simp only [floatLexeme, List.cons_append, List.append_assoc, hm, h]
    · simp only [integerLexeme, List.cons_append, hr, h]
  · simp only [integerLexeme, List.cons_append, h]

theorem readNumber_text_ne_nil (c : Char) (r : Text) : (readNumber c r).1.text ≠ [] := by
  simp only [readNumber]
  split
  · split <;> simp [floatLexeme, integerLexeme]
  · simp [integerLexeme]

end Lexis
