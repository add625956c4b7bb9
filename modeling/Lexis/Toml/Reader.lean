-- Reading the scalars of a TOML document: blanks and line ends, keys,
-- strings, numbers and dates. A reader takes text from the front or fails.
import Lexis.Number.Binary64
import Lexis.Scan.Quoted

namespace Lexis.Toml

/-- A step of reading: a result and the text that is left, or a failure. -/
abbrev Reader := StateT Text Option

namespace Reader

/-! ## Characters -/

/-- The next character, which stays. -/
def peek? : Reader (Option Char) := return (← get).head?

def any : Reader Char := do
  match ← get with
  | c :: rest => set rest; return c
  | [] => failure

def char (c : Char) : Reader Unit := do
  guard ((← any) = c)

def satisfying (p : Char → Bool) : Reader Char := do
  let c ← any
  guard (p c)
  return c

def word (t : Text) : Reader Unit := do
  let rest ← get
  guard (t.isPrefixOf rest)
  set (rest.drop t.length)

def many (p : Char → Bool) : Reader Text := do
  let rest ← get
  set (rest.dropWhile p)
  return rest.takeWhile p

/-! ## Blanks and lines -/

def isBlank (c : Char) : Bool := c == ' ' || c == '\t'

def blanks : Reader Unit := do
  let _ ← many isBlank

/-- The characters of comments and strings: no control but the tab. -/
def isPlain (c : Char) : Bool := c == '\t' || (' ' ≤ c && c != '\x7f')

def newline : Reader Unit := char '\n' <|> word ['\r', '\n']

def atEnd : Reader Unit := do
  guard (← get).isEmpty

def lineEnd : Reader Unit := newline <|> atEnd

def comment : Reader Unit := do
  char '#'
  let _ ← many isPlain

/-- The end of a line after a statement. -/
def restOfLine : Reader Unit := do
  blanks
  if (← peek?) = some '#' then comment
  lineEnd

/-- Blanks, comments and line ends, as between the items of an array. Each
round takes text, so the length of the text bounds their number. -/
def gap : Nat → Reader Unit
  | 0 => return
  | n + 1 => do
    blanks
    match ← peek? with
    | some '#' => comment; lineEnd; gap n
    | some '\n' | some '\r' => newline; gap n
    | _ => return

def gaps : Reader Unit := do
  gap (← get).length

/-! ## Strings -/

/-- The character of an escape, after its backslash. -/
def escaped : Reader Char := do
  let numbered (count : Nat) : Reader Char := do
    let digits := (← get).take count
    guard (digits.length = count && digits.all isHexDigit)
    set ((← get).drop count)
    charOfNumber? (hexValue digits)
  match ← any with
  | 'b' => return '\x08'
  | 't' => return '\t'
  | 'n' => return '\n'
  | 'f' => return '\x0c'
  | 'r' => return '\r'
  | '"' => return '"'
  | '\\' => return '\\'
  | 'u' => numbered 4
  | 'U' => numbered 8
  | _ => failure

/-- The rest of a string on one line, up to its quote. -/
def oneLine (quote : Char) (escapes : Bool) : Nat → Reader Text
  | 0 => failure
  | n + 1 => do
    let c ← any
    if c = quote then return []
    let value ←
      if escapes && c = '\\' then escaped
      else do
        guard (isPlain c)
        pure c
    return value :: (← oneLine quote escapes n)

/-- A backslash at the end of a line joins the next text to it. -/
def lineJoin : Reader Unit := do
  blanks
  newline
  let _ ← many fun c => isBlank c || c == '\n'
  let rec returns : Nat → Reader Unit
    | 0 => return
    | n + 1 => do
      if (← peek?) = some '\r' then
        newline
        let _ ← many fun c => isBlank c || c == '\n'
        returns n
  returns (← get).length

/-- The rest of a string that may take several lines, up to three quotes. Up
to two quotes may stand before those. -/
def manyLines (quote : Char) (escapes : Bool) : Nat → Reader Text
  | 0 => failure
  | n + 1 => do
    match ← get with
    | [] => failure
    | c :: rest =>
      if c = quote then
        let quotes := (c :: rest).takeWhile (· = quote)
        if quotes.length < 3 then
          set ((c :: rest).drop quotes.length)
          return quotes ++ (← manyLines quote escapes n)
        else
          let extra := min (quotes.length - 3) 2
          set ((c :: rest).drop (extra + 3))
          return quotes.take extra
      else if escapes && c = '\\' then
        set rest
        match ← (some <$> escaped) <|> (do lineJoin; pure none) with
        | some value => return value :: (← manyLines quote escapes n)
        | none => manyLines quote escapes n
      else if c = '\n' || c = '\r' then
        newline
        return '\n' :: (← manyLines quote escapes n)
      else
        guard (isPlain c)
        set rest
        return c :: (← manyLines quote escapes n)

/-- A string of either quote. Only double quotes allow escapes. -/
def string : Reader Text := do
  let quote ← satisfying fun c => c == '"' || c == '\''
  let escapes := quote = '"'
  let size := (← get).length
  if [quote, quote].isPrefixOf (← get) then
    set ((← get).drop 2)
    newline <|> pure ()
    manyLines quote escapes (size + 1)
  else oneLine quote escapes (size + 1)

/-! ## Keys -/

def isBareKeyChar (c : Char) : Bool := c.isAlphanum || c == '_' || c == '-'

/-- One part of a key: bare, or a string on one line. -/
def keyPart : Reader Text := do
  match ← peek? with
  | some '"' => any *> oneLine '"' true ((← get).length + 1)
  | some '\'' => any *> oneLine '\'' false ((← get).length + 1)
  | _ =>
    let part ← many isBareKeyChar
    guard (!part.isEmpty)
    return part

/-- The parts of a dotted key, blanks around each. -/
def keyParts : Nat → Reader (List Text)
  | 0 => failure
  | n + 1 => do
    blanks
    let part ← keyPart
    blanks
    if (← peek?) = some '.' then
      char '.'
      return part :: (← keyParts n)
    return [part]

/-- Keys have fewer parts than this, and values stand less deep in one another. -/
def nestingLimit : Nat := 80

/-- A dotted key, as the path to its last part and that part. -/
def key : Reader (List Text × Text) := do
  let parts ← keyParts ((← get).length + 1)
  guard (parts.length < nestingLimit)
  let last ← parts.getLast?
  return (parts.dropLast, last)

/-! ## Numbers -/

/-- Digits after the first, single underscores between them. -/
def moreDigits (p : Char → Bool) : Nat → Reader Text
  | 0 => return []
  | n + 1 => do
    match ← peek? with
    | some '_' =>
      char '_'
      let d ← satisfying p
      return d :: (← moreDigits p n)
    | some c =>
      if p c then
        char c
        return c :: (← moreDigits p n)
      return []
    | none => return []

def digits (p : Char → Bool) : Reader Text := do
  let d ← satisfying p
  return d :: (← moreDigits p (← get).length)

def sign : Reader Bool := do
  match ← peek? with
  | some '-' => char '-'; return true
  | some '+' => char '+'; return false
  | _ => return false

/-- The digits of a whole number in base ten, with no zero in front. -/
def decimal : Reader Text := do
  if (← peek?) = some '0' then
    char '0'
    return ['0']
  digits Char.isDigit

/-- A whole number in a base given by its mark, below 2^63. -/
def based (mark : Char) (base : Nat) (p : Char → Bool) : Reader Unit := do
  word ['0', mark]
  let ds ← digits p
  guard (ds.foldl (fun n d => base * n + hexDigitValue d) 0 < Nat.pow 2 63)

def isOctal (c : Char) : Bool := '0' ≤ c && c ≤ '7'

def isBinary (c : Char) : Bool := c == '0' || c == '1'

def integer : Reader Unit :=
  based 'x' 16 isHexDigit <|> based 'o' 8 isOctal <|> based 'b' 2 isBinary <|> do
    let negative ← sign
    let n := Text.decimalValue (← decimal)
    guard (if negative then n ≤ Nat.pow 2 63 else n < Nat.pow 2 63)

/-- A decimal fraction times a power of ten rounds past the greatest finite
number. Powers that settle it by themselves are not worked out. -/
def overflows (mantissa : Text) (power : Int) : Bool :=
  let value := Text.decimalValue mantissa
  let size := (Text.ofNat value).length + power
  if value = 0 ∨ size < 300 then false
  else if 320 < size then true
  else (Binary64.ofRatio? (value * Nat.pow 10 power.toNat) (Nat.pow 10 (-power).toNat)).isNone

def exponent : Reader Int := do
  let _ ← satisfying fun c => c == 'e' || c == 'E'
  let negative ← sign
  let n := (Text.decimalValue (← digits Char.isDigit) : Int)
  return if negative then -n else n

/-- A number with a fraction or an exponent. -/
def float : Reader Unit := do
  let negative ← sign
  let whole ← decimal
  let fraction ←
    if (← peek?) = some '.' then do
      char '.'
      some <$> digits Char.isDigit
    else pure none
  let power ← (some <$> exponent) <|> pure none
  guard (fraction.isSome || power.isSome)
  let fraction := fraction.getD []
  guard (negative || !overflows (whole ++ fraction) (power.getD 0 - fraction.length))

def specialFloat : Reader Unit := do
  let _ ← sign
  word "inf".toList <|> word "nan".toList

/-! ## Dates and times -/

def fixedDigits (count : Nat) : Reader Nat := do
  let ds := (← get).take count
  guard (ds.length = count && ds.all Char.isDigit)
  set ((← get).drop count)
  return Text.decimalValue ds

def upTo (count most : Nat) : Reader Unit := do
  guard ((← fixedDigits count) ≤ most)

def daysInMonth (year month : Nat) : Nat :=
  if month = 2 then
    if year % 4 = 0 ∧ (year % 100 ≠ 0 ∨ year % 400 = 0) then 29 else 28
  else if month = 4 ∨ month = 6 ∨ month = 9 ∨ month = 11 then 30
  else 31

def date : Reader Unit := do
  let year ← fixedDigits 4
  char '-'
  let month ← fixedDigits 2
  guard (1 ≤ month && month ≤ 12)
  char '-'
  let day ← fixedDigits 2
  guard (1 ≤ day && day ≤ daysInMonth year month)

def time : Reader Unit := do
  upTo 2 23
  char ':'
  upTo 2 59
  char ':'
  upTo 2 60
  if (← peek?) = some '.' then
    char '.'
    guard (!(← many Char.isDigit).isEmpty)

def offset : Reader Unit := do
  let c ← any
  if c = 'Z' || c = 'z' then return
  guard (c = '+' || c = '-')
  upTo 2 23
  char ':'
  upTo 2 59

/-- A date, a time, or both with or without an offset. -/
def dateTime : Reader Unit :=
  (do
    date
    (do
      let _ ← satisfying fun c => c == 'T' || c == 't' || c == ' '
      time
      offset <|> pure ()) <|> pure ()) <|> time

end Reader

end Lexis.Toml
