-- String literals. Between its quotes a string is a sequence of segments:
-- plain characters, escapes, malformed escapes, and a backslash that the end
-- of the line cuts off. A malformed escape stands for itself.
import Lexis.Scan.Lexeme

namespace Lexis

/-! ## Segments -/

inductive Segment where
  | plain (c : Char)
  | escape (raw : Text) (c : Char)
  | malformed (raw : Text)
  | backslash
deriving DecidableEq, Repr

namespace Segment

/-- The text of the segment in the source. -/
def raw : Segment → Text
  | plain c => [c]
  | escape raw _ => raw
  | malformed raw => raw
  | backslash => ['\\']

/-- The text that the segment adds to the value. -/
def decoded : Segment → Text
  | plain c => [c]
  | escape _ c => [c]
  | malformed raw => raw
  | backslash => ['\\']

end Segment

/-! ## Escapes -/

def isHexDigit (c : Char) : Bool :=
  c.isDigit || ('a' ≤ c && c ≤ 'f') || ('A' ≤ c && c ≤ 'F')

/-- The number that a hexadecimal digit stands for. -/
def hexDigitValue (c : Char) : Nat :=
  if c.isDigit then c.toNat - '0'.toNat
  else if 'a' ≤ c then c.toNat - 'a'.toNat + 10
  else c.toNat - 'A'.toNat + 10

/-- The number that hexadecimal digits spell. -/
def hexValue (digits : Text) : Nat := digits.foldl (fun n d => 16 * n + hexDigitValue d) 0

/-- The character with a number, unless no character has it. -/
def charOfNumber? (n : Nat) : Option Char := if n.isValidChar then some (Char.ofNat n) else none

/-- The character that one to six hexadecimal digits name. -/
def charOfHex? (digits : Text) : Option Char :=
  if digits.length = 0 ∨ 6 < digits.length ∨ ¬ digits.all isHexDigit then none
  else charOfNumber? (hexValue digits)

/-- The character that a letter after a backslash stands for. -/
def shortEscape? : Char → Option Char
  | 'n' => some '\n'
  | 't' => some '\t'
  | 'r' => some '\r'
  | '0' => some '\x00'
  | '\\' => some '\\'
  | '"' => some '"'
  | '\'' => some '\''
  | _ => none

/-- Reads an escape by number, given the text after `\u`. -/
def readNumberEscape (r : Text) : Segment × Text :=
  match r with
  | '{' :: t =>
    let digits := t.takeWhile isHexDigit
    match t.dropWhile isHexDigit with
    | '}' :: rest =>
      let raw := '\\' :: 'u' :: '{' :: digits ++ ['}']
      match charOfHex? digits with
      | some c => (.escape raw c, rest)
      | none => (.malformed raw, rest)
    | rest => (.malformed ('\\' :: 'u' :: '{' :: digits), rest)
  | _ => (.malformed ['\\', 'u'], r)

/-- Reads an escape, given the text after its backslash. -/
def readEscape (r : Text) : Segment × Text :=
  match r with
  | [] => (.backslash, [])
  | c :: t =>
    if c = '\n' then (.backslash, r)
    else if c = 'u' then readNumberEscape t
    else
      match shortEscape? c with
      | some d => (.escape ['\\', c] d, t)
      | none => (.malformed ['\\', c], t)

theorem readNumberEscape_append (r : Text) :
    (readNumberEscape r).1.raw ++ (readNumberEscape r).2 = '\\' :: 'u' :: r := by
  unfold readNumberEscape
  split
  · rename_i t
    have h := List.takeWhile_append_dropWhile (p := isHexDigit) (l := t)
    simp only
    split
    · rename_i rest hr
      rw [hr] at h
      split <;> simp [Segment.raw, h]
    · rename_i rest hr
      simp [Segment.raw, h]
  · simp [Segment.raw]

theorem readEscape_append (r : Text) :
    (readEscape r).1.raw ++ (readEscape r).2 = '\\' :: r := by
  unfold readEscape
  split
  · simp [Segment.raw]
  · rename_i c t
    split
    · simp [Segment.raw]
    · split
      · rename_i hu
        rw [hu]
        exact readNumberEscape_append t
      · split <;> simp [Segment.raw]

theorem readEscape_raw_ne_nil (r : Text) : (readEscape r).1.raw ≠ [] := by
  unfold readEscape
  split
  · simp [Segment.raw]
  · split
    · simp [Segment.raw]
    · split
      · unfold readNumberEscape
        split
        · simp only
          split
          · split <;> simp [Segment.raw]
          · simp [Segment.raw]
        · simp [Segment.raw]
      · split <;> simp [Segment.raw]

theorem length_readEscape_le (r : Text) : (readEscape r).2.length ≤ r.length := by
  have h := congrArg List.length (readEscape_append r)
  have := List.length_pos_iff.mpr (readEscape_raw_ne_nil r)
  simp at h
  omega

/-! ## Whole strings -/

/-- What stands after an opening quote: the segments, whether the closing quote
was found, and the text after the string. -/
structure QuotedBody where
  segments : List Segment
  closed : Bool
  rest : Text
deriving DecidableEq, Repr

namespace QuotedBody

def after (s : Segment) (b : QuotedBody) : QuotedBody := { b with segments := s :: b.segments }

/-- The text of the body, with the closing quote if there is one. -/
def text (quote : Char) (b : QuotedBody) : Text :=
  b.segments.flatMap Segment.raw ++ bif b.closed then [quote] else []

/-- The text that the string stands for. -/
def value (b : QuotedBody) : Text := b.segments.flatMap Segment.decoded

@[simp] theorem text_after (quote : Char) (s : Segment) (b : QuotedBody) :
    (b.after s).text quote = s.raw ++ b.text quote := by
  simp [after, text]

@[simp] theorem segments_after (s : Segment) (b : QuotedBody) :
    (b.after s).segments = s :: b.segments := rfl

@[simp] theorem closed_after (s : Segment) (b : QuotedBody) : (b.after s).closed = b.closed := rfl

@[simp] theorem value_after (s : Segment) (b : QuotedBody) :
    (b.after s).value = s.decoded ++ b.value := List.flatMap_cons

@[simp] theorem rest_after (s : Segment) (b : QuotedBody) : (b.after s).rest = b.rest := rfl

end QuotedBody

/-- Reads up to the closing quote, or up to the end of the line. -/
def readQuotedBody (quote : Char) (r : Text) : QuotedBody :=
  match r with
  | [] => ⟨[], false, []⟩
  | c :: t =>
    if c = '\n' then ⟨[], false, r⟩
    else if c = quote then ⟨[], true, t⟩
    else if c = '\\' then
      let found := readEscape t
      (readQuotedBody quote found.2).after found.1
    else (readQuotedBody quote t).after (.plain c)
termination_by r.length
decreasing_by
  · have := length_readEscape_le t
    simp; omega
  · simp

/-- The faults of malformed escapes. The text before the segments is given
last character first. -/
def escapeFaults (before : Text) : List Segment → List Fault
  | [] => []
  | .malformed raw :: rest =>
    ⟨.invalidEscape, before.reverse, raw⟩ :: escapeFaults (raw.reverse ++ before) rest
  | s :: rest => escapeFaults (s.raw.reverse ++ before) rest

/-- The fault of a malformed escape, given the text in front of it last character first. -/
def Segment.faults (before : Text) : Segment → List Fault
  | malformed raw => [⟨.invalidEscape, before.reverse, raw⟩]
  | _ => []

theorem escapeFaults_cons (before : Text) (s : Segment) (ss : List Segment) :
    escapeFaults before (s :: ss) =
      s.faults before ++ escapeFaults (s.raw.reverse ++ before) ss := by
  cases s <;> rfl

/-- The lexeme of a string that has been read. A string without a closing
quote is a fault of its own, before those of its escapes. -/
def stringLexeme (quote : Char) (b : QuotedBody) : Lexeme :=
  let text := quote :: b.text quote
  let cutOff := if b.closed then [] else [⟨.unterminatedString, [], text⟩]
  ⟨.stringLiteral, text, some (.string b.value), cutOff ++ escapeFaults [quote] b.segments⟩

/-- Reads the string that begins with a quote. -/
def readString (quote : Char) (r : Text) : Lexeme × Text :=
  let body := readQuotedBody quote r
  (stringLexeme quote body, body.rest)

theorem readQuotedBody_append (quote : Char) (r : Text) :
    (readQuotedBody quote r).text quote ++ (readQuotedBody quote r).rest = r := by
  fun_induction readQuotedBody quote r with
  | case1 => rfl
  | case2 => rfl
  | case3 => rfl
  | case4 t found _ _ ih =>
    simp only [QuotedBody.text_after, QuotedBody.rest_after, List.append_assoc, ih]
    exact readEscape_append t
  | case5 c t _ _ _ ih =>
    simp [ih, Segment.raw]

theorem readString_append (quote : Char) (r : Text) :
    (readString quote r).1.text ++ (readString quote r).2 = quote :: r := by
  simp [readString, stringLexeme, readQuotedBody_append]

end Lexis
