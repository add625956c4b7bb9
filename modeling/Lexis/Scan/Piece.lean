-- A source text as a sequence of pieces: blanks, stray characters that begin
-- no lexeme, and lexemes. The pieces in order are the text, with nothing lost
-- and nothing added, and they do not depend on where the text stands.
import Lexis.Scan.Comment
import Lexis.Scan.Number
import Lexis.Scan.Quoted
import Lexis.Scan.Word

namespace Lexis

/-! ## Lexemes -/

/-- The characters that separate lexemes. -/
def isBlank (c : Char) : Bool := c == ' ' || c == '\t' || c == '\n' || c == '\r'

/-- Reads the operator or punctuation mark that begins with a character. -/
def readSymbol? (c : Char) (r : Text) : Option (Lexeme × Text) :=
  match Operator.longestMatch? (c :: r) with
  | some o => some (.plain (.operator o) o.spelling, (c :: r).drop o.spelling.length)
  | none => (Punctuation.ofChar? c).map fun p => (.plain (.punctuation p) [c], r)

/-- Reads the lexeme that begins with a character. A comment is tried before an
operator, so a slash that opens a comment never divides. -/
def readLexeme? (c : Char) (r : Text) : Option (Lexeme × Text) :=
  match c, r with
  | '/', '/' :: t => some (readLineComment t)
  | '/', '*' :: t => some (readBlockComment t)
  | '"', r => some (readString '"' r)
  | '\'', r => some (readString '\'' r)
  | c, r =>
    if c.isDigit then some (readNumber c r)
    else if isWordStart c then some (readWord c r)
    else readSymbol? c r

theorem readSymbol?_append {c : Char} {r : Text} {found : Lexeme × Text}
    (h : readSymbol? c r = some found) : found.1.text ++ found.2 = c :: r := by
  unfold readSymbol? at h
  split at h
  · rename_i o ho
    have hp : o.spelling <+: c :: r := by simpa using List.find?_some ho
    obtain ⟨t, ht⟩ := hp
    cases h
    simp [Lexeme.plain, ← ht]
  · obtain ⟨p, _, rfl⟩ := Option.map_eq_some_iff.mp h
    rfl

theorem readSymbol?_text_ne_nil {c : Char} {r : Text} {found : Lexeme × Text}
    (h : readSymbol? c r = some found) : found.1.text ≠ [] := by
  unfold readSymbol? at h
  split at h
  · cases h
    exact Operator.spelling_ne_nil _
  · obtain ⟨p, _, rfl⟩ := Option.map_eq_some_iff.mp h
    simp [Lexeme.plain]

theorem readLexeme?_append {c : Char} {r : Text} {found : Lexeme × Text}
    (h : readLexeme? c r = some found) : found.1.text ++ found.2 = c :: r := by
  unfold readLexeme? at h
  split at h
  · exact Option.some.inj h ▸ readLineComment_append _
  · exact Option.some.inj h ▸ readBlockComment_append _
  · exact Option.some.inj h ▸ readString_append _ _
  · exact Option.some.inj h ▸ readString_append _ _
  · split at h
    · exact Option.some.inj h ▸ readNumber_append _ _
    · split at h
      · exact Option.some.inj h ▸ readWord_append _ _
      · exact readSymbol?_append h

theorem readLexeme?_text_ne_nil {c : Char} {r : Text} {found : Lexeme × Text}
    (h : readLexeme? c r = some found) : found.1.text ≠ [] := by
  unfold readLexeme? at h
  split at h
  · exact Option.some.inj h ▸ List.cons_ne_nil _ _
  · exact Option.some.inj h ▸ readBlockComment_text_ne_nil _
  · exact Option.some.inj h ▸ List.cons_ne_nil _ _
  · exact Option.some.inj h ▸ List.cons_ne_nil _ _
  · split at h
    · exact Option.some.inj h ▸ readNumber_text_ne_nil _ _
    · split at h
      · exact Option.some.inj h ▸ List.cons_ne_nil _ _
      · exact readSymbol?_text_ne_nil h

/-! ## Pieces -/

inductive Piece where
  | blank (c : Char)
  | stray (c : Char)
  | lexeme (l : Lexeme)
deriving DecidableEq, Repr

/-- The text of the source that the piece takes. -/
def Piece.text : Piece → Text
  | blank c => [c]
  | stray c => [c]
  | lexeme l => l.text

/-- Reads the piece that begins with a character. -/
def readPiece (c : Char) (r : Text) : Piece × Text :=
  if isBlank c then (.blank c, r)
  else
    match readLexeme? c r with
    | some (l, rest) => (.lexeme l, rest)
    | none => (.stray c, r)

theorem readPiece_append (c : Char) (r : Text) :
    (readPiece c r).1.text ++ (readPiece c r).2 = c :: r := by
  unfold readPiece
  split
  · rfl
  · split
    · rename_i h; exact readLexeme?_append h
    · rfl

theorem readPiece_text_ne_nil (c : Char) (r : Text) : (readPiece c r).1.text ≠ [] := by
  unfold readPiece
  split
  · simp [Piece.text]
  · split
    · rename_i h; exact readLexeme?_text_ne_nil h
    · simp [Piece.text]

theorem length_readPiece_le (c : Char) (r : Text) : (readPiece c r).2.length ≤ r.length := by
  have h := congrArg List.length (readPiece_append c r)
  have := List.length_pos_iff.mpr (readPiece_text_ne_nil c r)
  simp at h
  omega

/-- The pieces of a text in order. -/
def pieces : Text → List Piece
  | [] => []
  | c :: r =>
    let found := readPiece c r
    found.1 :: pieces found.2
termination_by t => t.length
decreasing_by
  have := length_readPiece_le c r
  simp; omega

theorem flatMap_text_pieces (t : Text) : (pieces t).flatMap Piece.text = t := by
  fun_induction pieces t with
  | case1 => rfl
  | case2 c r found ih =>
    simp only [List.flatMap_cons, ih]
    exact readPiece_append c r

end Lexis
