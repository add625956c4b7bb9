-- Reading reports back. A reader of the JSON form gets from the printed text what was written into
-- it: the name of the file, a row for each token and a row for each error.
import Lexis.Report.Json
import Lexis.Scan.Quoted

namespace Lexis

/-! ## Readers -/

/-- Reads a value from the front of a text, and gives what follows it. -/
abbrev Reader (α : Type) := Text → Option (α × Text)

/-- The rows of one file. -/
structure Report where
  file : Text
  tokens : List TokenRow
  errors : List ErrorRow
deriving DecidableEq, Repr

namespace Reader

/-- Reads a text that has to be there. -/
def expect (s : Text) : Reader Unit := fun t =>
  if s.isPrefixOf t then some ((), t.drop s.length) else none

/-- Reads digits. -/
def number : Reader Nat := fun t =>
  match t.takeWhile Char.isDigit with
  | [] => none
  | d :: ds => some (Text.decimalValue (d :: ds), t.dropWhile Char.isDigit)

/-- The character that a letter after a backslash stands for in JSON. -/
def shortEscape? : Char → Option Char
  | '"' => some '"'
  | '\\' => some '\\'
  | '/' => some '/'
  | 'b' => some '\x08'
  | 'f' => some '\x0c'
  | 'n' => some '\n'
  | 'r' => some '\r'
  | 't' => some '\t'
  | _ => none

/-- Reads the characters of a string, and its closing quote. -/
def stringBody : Reader Text
  | [] => none
  | '"' :: rest => some ([], rest)
  | '\\' :: 'u' :: a :: b :: c :: d :: rest => do
    let x ← charOfHex? [a, b, c, d]
    let (t, after) ← stringBody rest
    return (x :: t, after)
  | '\\' :: c :: rest => do
    let x ← shortEscape? c
    let (t, after) ← stringBody rest
    return (x :: t, after)
  | c :: rest =>
    if c.toNat < 0x20 then none
    else do
      let (t, after) ← stringBody rest
      return (c :: t, after)

def string : Reader Text
  | '"' :: rest => stringBody rest
  | _ => none

variable {α : Type}

/-- Reads items with commas between them, and the bracket behind the last one. -/
def items (item : Reader α) (t : Text) : Option (List α × Text) :=
  match item t with
  | some (a, ']' :: rest) => some ([a], rest)
  | some (a, ',' :: more) =>
    if _h : more.length < t.length then do
      let (as, rest) ← items item more
      return (a :: as, rest)
    else none
  | _ => none
termination_by t.length

def array (item : Reader α) : Reader (List α)
  | '[' :: ']' :: rest => some ([], rest)
  | '[' :: t => items item t
  | _ => none

def tokenRow : Reader TokenRow := fun t => do
  let ((), t) ← expect "\x7b\"line\":".toList t
  let (line, t) ← number t
  let ((), t) ← expect ",\"lexeme\":".toList t
  let (lexeme, t) ← string t
  let ((), t) ← expect ",\"token_kind\":".toList t
  let (kind, t) ← string t
  let ((), t) ← expect ",\"attribute\":".toList t
  let (attr, t) ← string t
  let ((), t) ← expect "\x7d".toList t
  return (⟨line, lexeme, kind, attr⟩, t)

def errorRow : Reader ErrorRow := fun t => do
  let ((), t) ← expect "\x7b\"line\":".toList t
  let (line, t) ← number t
  let ((), t) ← expect ",\"column\":".toList t
  let (column, t) ← number t
  let ((), t) ← expect ",\"kind\":".toList t
  let (kind, t) ← string t
  let ((), t) ← expect ",\"text\":".toList t
  let (text, t) ← string t
  let ((), t) ← expect ",\"message\":".toList t
  let (message, t) ← string t
  let ((), t) ← expect "\x7d".toList t
  return (⟨line, column, kind, text, message⟩, t)

/-- Reads the object of one file. -/
def report : Reader Report := fun t => do
  let ((), t) ← expect "\x7b\"file\":".toList t
  let (file, t) ← string t
  let ((), t) ← expect ",\"tokens\":".toList t
  let (tokens, t) ← array tokenRow t
  let ((), t) ← expect ",\"errors\":".toList t
  let (errors, t) ← array errorRow t
  let ((), t) ← expect "\x7d".toList t
  return (⟨file, tokens, errors⟩, t)

end Reader

/-- Reads a text that is made of the objects of files, each on a line of its own. -/
def readReports (t : Text) : Option (List Report) :=
  match t with
  | [] => some []
  | c :: u =>
    match Reader.report (c :: u) with
    | some (r, '\n' :: rest) =>
      if _h : rest.length < (c :: u).length then (readReports rest).map (r :: ·) else none
    | _ => none
termination_by t.length
decreasing_by exact _h

/-! ## What is written is read -/

namespace Reader

theorem expect_append (s rest : Text) : expect s (s ++ rest) = some ((), rest) := by
  simp [expect]

/-- Digits are read up to the first other character. -/
theorem number_write (n : Nat) {s : Text} (hs : s.head?.all (!·.isDigit) = true) (hne : s ≠ [])
    (rest : Text) : number (Text.ofNat n ++ (s ++ rest)) = some (n, s ++ rest) := by
  obtain ⟨c, u, rfl⟩ := List.exists_cons_of_ne_nil hne
  have hstop : ¬ c.isDigit = true := by simpa using hs
  have hdigits : ∀ d ∈ Text.ofNat n, d.isDigit = true := fun d hd =>
    Nat.isDigit_of_mem_toDigits (by decide) (by decide) hd
  obtain ⟨d, ds, hn⟩ := List.exists_cons_of_length_pos (Nat.length_toDigits_pos (b := 10) (n := n))
  have htake : (Text.ofNat n ++ (c :: u ++ rest)).takeWhile Char.isDigit = d :: ds := by
    rw [List.takeWhile_append_of_pos hdigits, List.cons_append, List.takeWhile_cons_of_neg hstop,
      List.append_nil]
    exact hn
  have hdrop : (Text.ofNat n ++ (c :: u ++ rest)).dropWhile Char.isDigit = c :: u ++ rest := by
    rw [List.dropWhile_append_of_pos hdigits, List.cons_append, List.dropWhile_cons_of_neg hstop]
  have hvalue : Text.decimalValue (d :: ds) = n := by
    rw [← hn]
    exact Text.decimalValue_ofNat n
  simp only [number, htake, hdrop, hvalue]

/-- A control character is written as four hexadecimal digits. -/
theorem control_digits {n : Nat} (h : n < 0x20) : ∃ a b c d,
    Text.padLeft 4 '0' (Text.hexOfNat n) = [a, b, c, d] ∧
      charOfHex? [a, b, c, d] = some (Char.ofNat n) := by
  have hall : ∀ n < 0x20, (Text.padLeft 4 '0' (Text.hexOfNat n)).length = 4 ∧
      charOfHex? (Text.padLeft 4 '0' (Text.hexOfNat n)) = some (Char.ofNat n) := by
    decide
  obtain ⟨hlength, hread⟩ := hall n h
  match Text.padLeft 4 '0' (Text.hexOfNat n), hlength, hread with
  | [a, b, c, d], _, hread => exact ⟨a, b, c, d, rfl, hread⟩

theorem stringBody_number {a b c d x : Char} (h : charOfHex? [a, b, c, d] = some x) (t : Text) :
    stringBody ('\\' :: 'u' :: a :: b :: c :: d :: t) =
      (stringBody t).map fun found => (x :: found.1, found.2) := by
  rw [stringBody, h]
  cases stringBody t <;> rfl

theorem stringBody_short {c x : Char} (h : shortEscape? c = some x) (t : Text) :
    stringBody ('\\' :: c :: t) = (stringBody t).map fun found => (x :: found.1, found.2) := by
  have hu : c ≠ 'u' := by
    rintro rfl
    cases h
  rw [stringBody, h]
  · cases stringBody t <;> rfl
  · exact fun _ _ _ _ _ hc => absurd hc hu

theorem stringBody_plain {c : Char} (hquote : c ≠ '"') (hslash : c ≠ '\\')
    (hcontrol : ¬ c.toNat < 0x20) (t : Text) :
    stringBody (c :: t) = (stringBody t).map fun found => (c :: found.1, found.2) := by
  rw [stringBody, if_neg hcontrol]
  · cases stringBody t <;> rfl
  · exact hquote
  · exact fun _ _ _ _ _ hc => absurd hc hslash
  · exact fun _ _ hc => absurd hc hslash

/-- A character that is written inside a string is read as that character. -/
theorem stringBody_escapeChar (c : Char) (t : Text) : stringBody (Json.escapeChar c ++ t) =
    (stringBody t).map fun found => (c :: found.1, found.2) := by
  fun_cases Json.escapeChar c with
  | case1 => exact stringBody_short rfl t
  | case2 => exact stringBody_short rfl t
  | case3 => exact stringBody_short rfl t
  | case4 => exact stringBody_short rfl t
  | case5 => exact stringBody_short rfl t
  | case6 => exact stringBody_short rfl t
  | case7 => exact stringBody_short rfl t
  | case8 _ _ _ _ _ _ _ _ hcontrol =>
    obtain ⟨a, b, d, e, hdigits, hread⟩ := control_digits hcontrol
    rw [Char.ofNat_toNat] at hread
    rw [hdigits]
    exact stringBody_number hread t
  | case9 _ hquote hslash _ _ _ _ _ hcontrol => exact stringBody_plain hquote hslash hcontrol t

/-- A string that is written is read as that string. -/
theorem string_write (s rest : Text) : string (Json.string s ++ rest) = some (s, rest) := by
  have hbody : stringBody (s.flatMap Json.escapeChar ++ '"' :: rest) = some (s, rest) := by
    induction s with
    | nil => rw [List.flatMap_nil, List.nil_append, stringBody]
    | cons c s ih => rw [List.flatMap_cons, List.append_assoc, stringBody_escapeChar, ih]; rfl
  rw [Json.string, List.cons_append, List.cons_append, List.append_assoc]
  exact hbody

section

variable {α : Type} {item : Reader α} {write : α → Text}

theorem items_last {t rest : Text} {a : α} (h : item t = some (a, ']' :: rest)) :
    items item t = some ([a], rest) := by
  rw [items, h]
  rfl

theorem items_more {t more rest : Text} {a : α} {as : List α} (h : item t = some (a, ',' :: more))
    (hless : more.length < t.length) (hmore : items item more = some (as, rest)) :
    items item t = some (a :: as, rest) := by
  rw [items, h]
  simp only [dif_pos hless, hmore]
  rfl

/-- Items that are each read behind one another are read up to the bracket. -/
theorem items_join (h : ∀ a rest, item (write a ++ rest) = some (a, rest)) (a : α) (as : List α)
    (rest : Text) : items item (Text.join [','] ((a :: as).map write) ++ ']' :: rest) =
      some (a :: as, rest) := by
  induction as generalizing a with
  | nil =>
    rw [List.map_singleton, Text.join_singleton]
    exact items_last (h a _)
  | cons b as ih =>
    rw [List.map_cons, List.map_cons, Text.join_cons_cons, ← List.map_cons, List.append_assoc]
    refine items_more (h a (',' :: (Text.join [','] ((b :: as).map write) ++ ']' :: rest))) ?_
      (ih b)
    simp only [List.length_append, List.length_cons]
    omega

/-- An array that is written is read as its items, if none of them begins with a bracket. -/
theorem array_write (h : ∀ a rest, item (write a ++ rest) = some (a, rest))
    (hopen : ∀ a, ∃ t, write a = '\x7b' :: t) (as : List α) (rest : Text) :
    array item (Json.array (as.map write) ++ rest) = some (as, rest) := by
  cases as with
  | nil => rfl
  | cons a as =>
    have hitems := items_join h a as rest
    obtain ⟨t, ht⟩ := hopen a
    have hfirst : ∃ u, Text.join [','] ((a :: as).map write) ++ ']' :: rest = '\x7b' :: u := by
      cases as with
      | nil => exact ⟨_, by rw [List.map_singleton, Text.join_singleton, ht]; rfl⟩
      | cons b as => exact ⟨_, by rw [List.map_cons, List.map_cons, Text.join_cons_cons, ht]; rfl⟩
    obtain ⟨u, hu⟩ := hfirst
    rw [Json.array, List.cons_append, List.cons_append, List.append_assoc, List.singleton_append,
      hu]
    rw [hu] at hitems
    exact hitems

end

theorem tokenRow_write (r : TokenRow) (rest : Text) :
    tokenRow (r.toJson ++ rest) = some (r, rest) := by
  have htext : r.toJson ++ rest = "\x7b\"line\":".toList ++ (Text.ofNat r.line ++
      (",\"lexeme\":".toList ++ (Json.string r.lexeme ++ (",\"token_kind\":".toList ++
        (Json.string r.kind ++ (",\"attribute\":".toList ++ (Json.string r.attr ++
          ("\x7d".toList ++ rest)))))))) := by
    simp only [TokenRow.toJson, Json.object, List.map_cons, List.map_nil, Text.join_cons_cons,
      Text.join_singleton, List.cons_append, List.nil_append, List.append_assoc]
    rfl
  have hline := number_write r.line (s := ",\"lexeme\":".toList) (by decide) (by decide)
  rw [htext]
  simp only [tokenRow, expect_append, hline, string_write, Option.bind_eq_bind, Option.bind_some]
  rfl

theorem errorRow_write (r : ErrorRow) (rest : Text) :
    errorRow (r.toJson ++ rest) = some (r, rest) := by
  have htext : r.toJson ++ rest = "\x7b\"line\":".toList ++ (Text.ofNat r.line ++
      (",\"column\":".toList ++ (Text.ofNat r.column ++ (",\"kind\":".toList ++
        (Json.string r.kind ++ (",\"text\":".toList ++ (Json.string r.text ++
          (",\"message\":".toList ++ (Json.string r.message ++ ("\x7d".toList ++ rest)))))))))) := by
    simp only [ErrorRow.toJson, Json.object, List.map_cons, List.map_nil, Text.join_cons_cons,
      Text.join_singleton, List.cons_append, List.nil_append, List.append_assoc]
    rfl
  have hline := number_write r.line (s := ",\"column\":".toList) (by decide) (by decide)
  have hcolumn := number_write r.column (s := ",\"kind\":".toList) (by decide) (by decide)
  rw [htext]
  simp only [errorRow, expect_append, hline, hcolumn, string_write, Option.bind_eq_bind,
    Option.bind_some]
  rfl

/-- The object of a file is read as its name and its rows. -/
theorem report_write (r : Report) (rest : Text) :
    report (fileReportJson r.file r.tokens r.errors ++ rest) = some (r, rest) := by
  have htext : fileReportJson r.file r.tokens r.errors ++ rest = "\x7b\"file\":".toList ++
      (Json.string r.file ++ (",\"tokens\":".toList ++ (Json.array (r.tokens.map TokenRow.toJson) ++
        (",\"errors\":".toList ++ (Json.array (r.errors.map ErrorRow.toJson) ++
          ("\x7d".toList ++ rest)))))) := by
    simp only [fileReportJson, tokenRowsJson, errorRowsJson, Json.object, List.map_cons,
      List.map_nil, Text.join_cons_cons, Text.join_singleton, List.cons_append, List.nil_append,
      List.append_assoc]
    rfl
  have htokens := array_write tokenRow_write fun a => ⟨_, rfl⟩
  have herrors := array_write errorRow_write fun a => ⟨_, rfl⟩
  rw [htext]
  simp only [report, expect_append, string_write, htokens, herrors, Option.bind_eq_bind,
    Option.bind_some]
  rfl

end Reader

theorem readReports_line {t rest : Text} {r : Report} {rs : List Report}
    (h : Reader.report t = some (r, '\n' :: rest)) (hless : rest.length < t.length)
    (hmore : readReports rest = some rs) : readReports t = some (r :: rs) := by
  cases t with
  | nil => exact absurd hless (Nat.not_lt_zero _)
  | cons c u =>
    rw [readReports, h]
    simp only [dif_pos hless, hmore]
    rfl

/-- The objects of files, each on a line of its own, are read back. -/
theorem readReports_write (rs : List Report) :
    readReports (rs.flatMap fun r => fileReportJson r.file r.tokens r.errors ++ ['\n']) =
      some rs := by
  induction rs with
  | nil => rw [List.flatMap_nil, readReports]
  | cons r rs ih =>
    rw [List.flatMap_cons, List.append_assoc, List.singleton_append]
    refine readReports_line (Reader.report_write r _) ?_ ih
    rw [List.length_append, List.length_cons]
    omega

end Lexis
