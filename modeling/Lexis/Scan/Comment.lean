-- Comments. A line comment runs up to the line feed. Block comments nest:
-- each opening needs its own closing.
import Lexis.Scan.Lexeme

namespace Lexis

/-! ## Line comments -/

/-- Reads a line comment, given the text after the two slashes. -/
def readLineComment (r : Text) : Lexeme × Text :=
  (.plain .comment ('/' :: '/' :: r.takeWhile (· ≠ '\n')), r.dropWhile (· ≠ '\n'))

theorem readLineComment_append (r : Text) :
    (readLineComment r).1.text ++ (readLineComment r).2 = '/' :: '/' :: r := by
  simp [readLineComment, Lexeme.plain]

/-! ## Block comments -/

/-- The text of a block comment after its opening, and what follows it. There
is no rest when the text ends inside the comment. -/
structure BlockBody where
  text : Text
  rest : Option Text
deriving DecidableEq, Repr

def BlockBody.after (before : Text) (b : BlockBody) : BlockBody := ⟨before ++ b.text, b.rest⟩

/-- Reads on inside a block comment that stands in a number of other ones. -/
def readBlockBody : Nat → Text → BlockBody
  | _, [] => ⟨[], none⟩
  | depth, '/' :: '*' :: r => (readBlockBody (depth + 1) r).after ['/', '*']
  | 0, '*' :: '/' :: r => ⟨['*', '/'], some r⟩
  | depth + 1, '*' :: '/' :: r => (readBlockBody depth r).after ['*', '/']
  | depth, c :: r => (readBlockBody depth r).after [c]

/-- Reads a block comment, given the text after its opening. -/
def readBlockComment (r : Text) : Lexeme × Text :=
  let body := readBlockBody 0 r
  let text := '/' :: '*' :: body.text
  match body.rest with
  | some rest => (.plain .comment text, rest)
  | none => (⟨.comment, text, none, [⟨.unterminatedComment, [], text⟩]⟩, [])

theorem readBlockBody_append (depth : Nat) (r : Text) :
    (readBlockBody depth r).text ++ (readBlockBody depth r).rest.getD [] = r := by
  fun_induction readBlockBody depth r <;> simp_all [BlockBody.after]

/-- The lexeme of a block comment, whether or not the text ends inside it. -/
theorem readBlockComment_fst (r : Text) : (readBlockComment r).1 =
    let body := readBlockBody 0 r
    let text := '/' :: '*' :: body.text
    ⟨.comment, text, none,
      if body.rest.isNone then [⟨.unterminatedComment, [], text⟩] else []⟩ := by
  simp only [readBlockComment]
  split <;> rename_i hr <;> simp [hr, Lexeme.plain]

theorem readBlockComment_append (r : Text) :
    (readBlockComment r).1.text ++ (readBlockComment r).2 = '/' :: '*' :: r := by
  have h := readBlockBody_append 0 r
  simp only [readBlockComment]
  split <;> rename_i hr <;> simp_all [Lexeme.plain]

theorem readBlockComment_text_ne_nil (r : Text) : (readBlockComment r).1.text ≠ [] := by
  simp only [readBlockComment]
  split <;> simp [Lexeme.plain]

end Lexis
