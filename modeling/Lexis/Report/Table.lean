-- The results table and the error panel. Every row takes one line: line
-- breaks and tabs in a cell are shown as escapes.
import Lexis.Report.Rows
import Lexis.Unicode.WhiteSpace

namespace Lexis

/-- A cell on one line. -/
def showCell (t : Text) : Text :=
  t.flatMap fun c =>
    match c with
    | '\n' => ['\\', 'n']
    | '\r' => ['\\', 'r']
    | '\t' => ['\\', 't']
    | c => [c]

/-! ## The table -/

/-- The four cells of a line, or what belongs to each of them. -/
structure Columns (α : Type) where
  line : α
  lexeme : α
  kind : α
  attr : α
deriving DecidableEq, Repr

namespace Columns

def map {α β : Type} (f : α → β) (c : Columns α) : Columns β :=
  ⟨f c.line, f c.lexeme, f c.kind, f c.attr⟩

def zipWith {α β γ : Type} (f : α → β → γ) (a : Columns α) (b : Columns β) : Columns γ :=
  ⟨f a.line b.line, f a.lexeme b.lexeme, f a.kind b.kind, f a.attr b.attr⟩

def toList {α : Type} (c : Columns α) : List α := [c.line, c.lexeme, c.kind, c.attr]

end Columns

def tableHeader : Columns Text :=
  ⟨"Line".toList, "Lexeme".toList, "Token-type".toList, "Attribute".toList⟩

def TokenRow.cells (r : TokenRow) : Columns Text :=
  ⟨Text.ofNat r.line, showCell r.lexeme, r.kind, showCell r.attr⟩

/-- Each column is as wide as its widest cell. -/
def columnWidths (rows : List (Columns Text)) : Columns Nat :=
  rows.foldl (fun w r => w.zipWith max (r.map List.length)) (tableHeader.map List.length)

/-- A cell filled up with blanks. -/
def padCell (cell : Text) (width : Nat) : Text :=
  cell ++ Text.filled (width - cell.length) ' '

/-- A text without the white space at its end. -/
def trimEnd (t : Text) : Text := (t.reverse.dropWhile Unicode.isWhiteSpace).reverse

def tableLine (widths : Columns Nat) (cells : Columns Text) : Text :=
  trimEnd (Text.join " | ".toList (cells.zipWith padCell widths).toList)

/-- The line under the header. -/
def dashLine (widths : Columns Nat) : Text :=
  Text.join "-+-".toList (widths.map fun w => Text.filled w '-').toList

def tableLines (rows : List TokenRow) : List Text :=
  let cells := rows.map TokenRow.cells
  let widths := columnWidths cells
  tableLine widths tableHeader :: dashLine widths :: cells.map (tableLine widths)

def renderTable (rows : List TokenRow) : Text := Text.join ['\n'] (tableLines rows)

/-! ## The error panel -/

def panelLine (r : ErrorRow) : Text :=
  "  ".toList ++ Text.ofNat r.line ++ ':' :: Text.ofNat r.column ++ "  ".toList ++ r.kind ++
    ": ".toList ++ r.message ++ " `".toList ++ showCell r.text ++ ['`']

def panelLines (rows : List ErrorRow) : List Text :=
  ("Errors (".toList ++ Text.ofNat rows.length ++ "):".toList) :: rows.map panelLine

def renderErrorPanel (rows : List ErrorRow) : Text := Text.join ['\n'] (panelLines rows)

end Lexis
