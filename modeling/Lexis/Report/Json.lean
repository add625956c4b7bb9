-- Rows as JSON text on one line, with fields in the order of the rows.
import Lexis.Report.Rows

namespace Lexis

namespace Json

/-- A character inside a JSON string. -/
def escapeChar (c : Char) : Text :=
  match c with
  | '"' => ['\\', '"']
  | '\\' => ['\\', '\\']
  | '\x08' => ['\\', 'b']
  | '\t' => ['\\', 't']
  | '\n' => ['\\', 'n']
  | '\x0c' => ['\\', 'f']
  | '\r' => ['\\', 'r']
  | c =>
    if c.toNat < 0x20 then '\\' :: 'u' :: Text.padLeft 4 '0' (Text.hexOfNat c.toNat) else [c]

def string (t : Text) : Text := '"' :: t.flatMap escapeChar ++ ['"']

/-- A list of values that are already written. -/
def array (items : List Text) : Text := '[' :: Text.join [','] items ++ [']']

/-- An object of fields whose values are already written. -/
def object (fields : List (Text × Text)) : Text :=
  '\x7b' :: Text.join [','] (fields.map fun (name, value) => string name ++ ':' :: value) ++ ['\x7d']

end Json

def TokenRow.toJson (r : TokenRow) : Text :=
  Json.object [("line".toList, Text.ofNat r.line), ("lexeme".toList, Json.string r.lexeme),
    ("token_kind".toList, Json.string r.kind), ("attribute".toList, Json.string r.attr)]

def ErrorRow.toJson (r : ErrorRow) : Text :=
  Json.object [("line".toList, Text.ofNat r.line), ("column".toList, Text.ofNat r.column),
    ("kind".toList, Json.string r.kind), ("text".toList, Json.string r.text),
    ("message".toList, Json.string r.message)]

def tokenRowsJson (rows : List TokenRow) : Text := Json.array (rows.map TokenRow.toJson)

def errorRowsJson (rows : List ErrorRow) : Text := Json.array (rows.map ErrorRow.toJson)

/-- The rows of one file as a single object. -/
def fileReportJson (name : Text) (tokens : List TokenRow) (errors : List ErrorRow) : Text :=
  Json.object [("file".toList, Json.string name), ("tokens".toList, tokenRowsJson tokens),
    ("errors".toList, errorRowsJson errors)]

end Lexis
