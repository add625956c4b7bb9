-- The law of the results table: it has a line for each row, and bars in the same columns of every
-- line. Whatever a cell holds, it stays on its line and between its bars.
import Lexis.Proofs.Tiling
import Lexis.Report.Table
import Mathlib.Data.List.Forall2

namespace Lexis

/-! ## What a table is -/

/-- The word that a table has for a kind. -/
inductive TokenKind.Called : TokenKind → Text → Prop
  | identifier : TokenKind.Called .identifier "Identifier".toList
  | keyword (k : Keyword) : TokenKind.Called (.keyword k) "Keyword".toList
  | integerLiteral : TokenKind.Called .integerLiteral "IntegerLiteral".toList
  | floatLiteral : TokenKind.Called .floatLiteral "FloatLiteral".toList
  | stringLiteral : TokenKind.Called .stringLiteral "StringLiteral".toList
  | operator (o : Operator) : TokenKind.Called (.operator o) "Operator".toList
  | punctuation (p : Punctuation) : TokenKind.Called (.punctuation p) "Punctuation".toList
  | comment : TokenKind.Called .comment "Comment".toList
  | endOfFile : TokenKind.Called .endOfFile "EndOfFile".toList

/-- What a table says of the value of a token, or that there is none. -/
inductive AttributeOf : Option Literal → Text → Prop
  | absent : AttributeOf none "None".toList
  | integer (n : UInt64) : AttributeOf (some (.integer n)) (Nat.toDigits 10 n.toNat)
  | float (x : Binary64) : AttributeOf (some (.float x)) x.display
  | string (t : Text) : AttributeOf (some (.string t)) t

/-- The row says of the token on which line it starts, its text, its kind and its value. -/
structure TokenRow.Lists (r : TokenRow) (t : Token) : Prop where
  line : r.line = t.start.line
  lexeme : r.lexeme = t.lexeme
  kind : t.kind.Called r.kind
  attr : AttributeOf t.value r.attr

/-- The rows of tokens: one for each that is wanted, in the order of the source. -/
structure RowsOf (comments : Bool) (tokens kept : List Token) (rows : List TokenRow) : Prop where
  listed : List.Forall₂ TokenRow.Lists rows kept
  sublist : kept.Sublist tokens
  wanted : ∀ t, t ∈ kept ↔
    t ∈ tokens ∧ t.kind ≠ .endOfFile ∧ (t.kind = .comment → comments = true)
  in_order : kept.Pairwise fun a b => a.start.offset < b.start.offset

/-- The cell shows the text on one line: a line feed, a carriage return and a tab as their escapes,
every other character as it is. -/
inductive OnOneLine : Text → Text → Prop
  | nil : OnOneLine [] []
  | feed {t cell : Text} : OnOneLine t cell → OnOneLine ('\n' :: t) ('\\' :: 'n' :: cell)
  | carriageReturn {t cell : Text} : OnOneLine t cell →
      OnOneLine ('\r' :: t) ('\\' :: 'r' :: cell)
  | tab {t cell : Text} : OnOneLine t cell → OnOneLine ('\t' :: t) ('\\' :: 't' :: cell)
  | other {c : Char} {t cell : Text} : c ≠ '\n' → c ≠ '\r' → c ≠ '\t' → OnOneLine t cell →
      OnOneLine (c :: t) (c :: cell)

/-- The cells hold what the row says. -/
structure TokenRow.Fills (r : TokenRow) (cells : Columns Text) : Prop where
  line : cells.line = Nat.toDigits 10 r.line
  lexeme : OnOneLine r.lexeme cells.lexeme
  kind : cells.kind = r.kind
  attr : OnOneLine r.attr cells.attr

/-- The three columns of characters in which lines have a bar. -/
structure Bars where
  first : Nat
  second : Nat
  third : Nat

/-- The text has the character in the three columns, and these parts in front of them, between
them and behind them. -/
structure Bars.Cut (b : Bars) (bar : Char) (text : Text) (parts : Columns Text) : Prop where
  first_bar : text[b.first]? = some bar
  second_bar : text[b.second]? = some bar
  third_bar : text[b.third]? = some bar
  first_part : text.take b.first = parts.line
  second_part : (text.take b.second).drop (b.first + 1) = parts.lexeme
  third_part : (text.take b.third).drop (b.second + 1) = parts.kind
  last_part : text.drop (b.third + 1) = parts.attr

/-- The part of a line is a cell in full, filled up with blanks. -/
def IsFilledCell (cell part : Text) : Prop := ∃ n, part = cell ++ Text.filled n ' '

/-- White space by its code points: the blank, tabs and line breaks of ASCII, the next line, and the
spaces and separators of typesetting. -/
def IsWhite (c : Char) : Prop :=
  (0x09 ≤ c.toNat ∧ c.toNat ≤ 0x0d) ∨ c.toNat = 0x20 ∨ c.toNat = 0x85 ∨ c.toNat = 0xa0 ∨
    c.toNat = 0x1680 ∨ (0x2000 ≤ c.toNat ∧ c.toNat ≤ 0x200a) ∨ c.toNat = 0x2028 ∨
    c.toNat = 0x2029 ∨ c.toNat = 0x202f ∨ c.toNat = 0x205f ∨ c.toNat = 0x3000

/-- The part of a line is a cell up to its last character that is no white space. -/
def IsLastCell (cell part : Text) : Prop :=
  ∃ shown white, cell = shown ++ white ∧ (∀ c ∈ white, IsWhite c) ∧
    (∀ c, shown.getLast? = some c → ¬ IsWhite c) ∧
    part = if shown = [] then [] else ' ' :: shown

/-- The line shows the cells between bars, with a blank next to each bar. -/
def Bars.Show (b : Bars) (line : Text) (cells : Columns Text) : Prop :=
  ∃ parts, b.Cut '|' line parts ∧ IsFilledCell cells.line parts.line ∧
    IsFilledCell (' ' :: cells.lexeme) parts.lexeme ∧ IsFilledCell (' ' :: cells.kind) parts.kind ∧
    IsLastCell cells.attr parts.attr

/-- The line shows what the row says. -/
def Bars.ShowRow (b : Bars) (line : Text) (r : TokenRow) : Prop :=
  ∃ cells, r.Fills cells ∧ b.Show line cells

/-- The line is one of dashes, crossed by the bars. -/
def Bars.Cross (b : Bars) (line : Text) : Prop :=
  ∃ parts, b.Cut '+' line parts ∧ ∀ part ∈ parts.toList, ∀ c ∈ part, c = '-'

/-- No cell is longer than its column is wide. -/
structure Columns.Fit (cells : Columns Text) (widths : Columns Nat) : Prop where
  line : cells.line.length ≤ widths.line
  lexeme : cells.lexeme.length ≤ widths.lexeme
  kind : cells.kind.length ≤ widths.kind
  attr : cells.attr.length ≤ widths.attr

/-- The text is a table of the rows, under a header and a line of dashes. -/
structure IsTable (rows : List TokenRow) (table : Text) : Prop where
  no_return : '\r' ∉ table
  no_tab : '\t' ∉ table
  line_count : (table.splitOn '\n').length = rows.length + 2
  aligned : ∃ (b : Bars) (header dashes : Text) (lines : List Text),
    table.splitOn '\n' = header :: dashes :: lines ∧
    b.Show header ⟨"Line".toList, "Lexeme".toList, "Token-type".toList, "Attribute".toList⟩ ∧
    b.Cross dashes ∧ List.Forall₂ b.ShowRow lines rows ∧
    ∀ line ∈ table.splitOn '\n', line.length ≤ dashes.length
  fits : ∀ cells ∈ tableHeader :: rows.map TokenRow.cells,
    cells.Fit (columnWidths (rows.map TokenRow.cells))

/-! ## Plain text -/

/-- The characters that end a line or move to another column of it. -/
def isLayout (c : Char) : Bool := c == '\n' || c == '\r' || c == '\t'

/-- The text has no such character. -/
def Plain (t : Text) : Prop := ∀ c ∈ t, isLayout c = false

instance (t : Text) : Decidable (Plain t) :=
  List.decidableBAll (fun c => isLayout c = false) t

theorem plain_append {s t : Text} : Plain (s ++ t) ↔ Plain s ∧ Plain t := List.forall_mem_append

theorem plain_cons {c : Char} {t : Text} : Plain (c :: t) ↔ isLayout c = false ∧ Plain t :=
  List.forall_mem_cons

theorem Plain.not_mem {t : Text} (h : Plain t) {c : Char} (hc : isLayout c = true) : c ∉ t := by
  intro hmem
  rw [h c hmem] at hc
  cases hc

/-- What is on one line has no line break and no tab. -/
theorem OnOneLine.plain {t cell : Text} (h : OnOneLine t cell) : Plain cell := by
  induction h with
  | nil => exact List.forall_mem_nil _
  | feed _ ih => exact plain_cons.mpr ⟨rfl, plain_cons.mpr ⟨rfl, ih⟩⟩
  | carriageReturn _ ih => exact plain_cons.mpr ⟨rfl, plain_cons.mpr ⟨rfl, ih⟩⟩
  | tab _ ih => exact plain_cons.mpr ⟨rfl, plain_cons.mpr ⟨rfl, ih⟩⟩
  | other hfeed hreturn htab _ ih =>
    exact plain_cons.mpr ⟨by simpa [isLayout] using ⟨⟨hfeed, hreturn⟩, htab⟩, ih⟩

theorem onOneLine_showCell (t : Text) : OnOneLine t (showCell t) := by
  induction t with
  | nil => exact .nil
  | cons c t ih =>
    rw [showCell, List.flatMap_cons]
    split
    · exact .feed ih
    · exact .carriageReturn ih
    · exact .tab ih
    · rename_i hfeed hreturn htab
      exact .other hfeed hreturn htab ih

theorem plain_showCell (t : Text) : Plain (showCell t) := (onOneLine_showCell t).plain

theorem plain_ofNat (n : Nat) : Plain (Text.ofNat n) := by
  intro c hc
  have hdigit := Nat.isDigit_of_mem_toDigits (by decide) (by decide) hc
  simp only [isLayout, Bool.or_eq_false_iff, beq_eq_false_iff_ne]
  refine ⟨⟨?_, ?_⟩, ?_⟩
  all_goals
    rintro rfl
    cases hdigit

theorem plain_filled (n : Nat) {c : Char} (hc : isLayout c = false) : Plain (Text.filled n c) := by
  intro x hx
  rw [List.eq_of_mem_replicate hx]
  exact hc

theorem TokenKind.plain_name (k : TokenKind) : Plain k.name := by
  cases k with
  | keyword w => show Plain "Keyword".toList; decide
  | operator o => show Plain "Operator".toList; decide
  | punctuation p => show Plain "Punctuation".toList; decide
  | _ => decide

theorem FaultKind.plain_name (k : FaultKind) : Plain k.name := by
  cases k <;> decide

theorem FaultKind.plain_message (k : FaultKind) : Plain k.message := by
  cases k <;> decide

/-! ## Trimming -/

theorem isWhiteSpace_iff {c : Char} : Unicode.isWhiteSpace c = true ↔ IsWhite c := by
  simp only [Unicode.isWhiteSpace, Unicode.inRanges, Unicode.whiteSpaceRanges, List.any_cons,
    List.any_nil, Bool.or_eq_true, Bool.and_eq_true, decide_eq_true_eq, Bool.false_eq_true,
    or_false, IsWhite]
  omega

theorem isWhiteSpace_eq_false_iff {c : Char} : Unicode.isWhiteSpace c = false ↔ ¬ IsWhite c := by
  rw [← isWhiteSpace_iff, Bool.not_eq_true]

theorem trimEnd_append_white {t white : Text} (h : ∀ c ∈ white, Unicode.isWhiteSpace c = true) :
    trimEnd (t ++ white) = trimEnd t := by
  rw [trimEnd, List.reverse_append, List.dropWhile_append_of_pos]
  · rfl
  · exact fun c hc => h c (List.mem_reverse.mp hc)

/-- Trimming stops at a character that is no white space. -/
theorem trimEnd_append_cons {c : Char} (hc : Unicode.isWhiteSpace c = false) (s t : Text) :
    trimEnd (s ++ c :: t) = s ++ c :: trimEnd t := by
  have hreverse : (s ++ c :: t).reverse = t.reverse ++ c :: s.reverse := by simp
  rw [trimEnd, trimEnd, hreverse, List.dropWhile_append]
  split
  · rename_i hempty
    rw [List.isEmpty_iff.mp hempty, List.dropWhile_cons_of_neg (by simp [hc])]
    simp
  · simp

/-- What is trimmed off is white space, and there is no more of it at the end. -/
theorem exists_trimmed (t : Text) : ∃ white, t = trimEnd t ++ white ∧
    (∀ c ∈ white, Unicode.isWhiteSpace c = true) ∧
    ∀ c, (trimEnd t).getLast? = some c → Unicode.isWhiteSpace c = false := by
  have hcut := List.takeWhile_append_dropWhile (p := Unicode.isWhiteSpace) (l := t.reverse)
  refine ⟨(t.reverse.takeWhile Unicode.isWhiteSpace).reverse, ?_, ?_, ?_⟩
  · rw [trimEnd, ← List.reverse_append, hcut, List.reverse_reverse]
  · exact fun c hc => List.mem_takeWhile_imp (List.mem_reverse.mp hc)
  · intro c hc
    rw [trimEnd, List.getLast?_reverse] at hc
    exact stops_dropWhile Unicode.isWhiteSpace t.reverse c hc

theorem length_trimEnd_le (t : Text) : (trimEnd t).length ≤ t.length := by
  obtain ⟨white, ht, -⟩ := exists_trimmed t
  have hlength := congrArg List.length ht
  rw [List.length_append] at hlength
  omega

theorem plain_trimEnd {t : Text} (h : Plain t) : Plain (trimEnd t) := by
  obtain ⟨white, ht, -⟩ := exists_trimmed t
  rw [ht, plain_append] at h
  exact h.1

/-- A cell after a blank, trimmed, is the last cell of a line. -/
theorem isLastCell_trimEnd (cell : Text) : IsLastCell cell (trimEnd (' ' :: cell)) := by
  obtain ⟨white, hcell, hwhite, hlast⟩ := exists_trimmed cell
  refine ⟨trimEnd cell, white, hcell, fun c hc => isWhiteSpace_iff.mp (hwhite c hc),
    fun c hc => isWhiteSpace_eq_false_iff.mp (hlast c hc), ?_⟩
  split
  · rename_i hnil
    rw [hnil, List.nil_append] at hcell
    rw [hcell]
    exact trimEnd_append_white (t := []) (List.forall_mem_cons.mpr ⟨rfl, hwhite⟩)
  · rename_i hne
    obtain ⟨front, c, hshown⟩ := (List.eq_nil_or_concat' (trimEnd cell)).resolve_left hne
    have hc := hlast c (by rw [hshown, List.getLast?_concat])
    calc trimEnd (' ' :: cell)
        = trimEnd ((' ' :: trimEnd cell) ++ white) := by rw [List.cons_append, ← hcell]
      _ = trimEnd ((' ' :: front) ++ [c]) := by
          rw [trimEnd_append_white hwhite, hshown, List.cons_append]
      _ = ' ' :: trimEnd cell := by rw [trimEnd_append_cons hc, hshown]; rfl

/-! ## Widths -/

/-- Each column is no wider than the other one. -/
structure Columns.Within (a b : Columns Nat) : Prop where
  line : a.line ≤ b.line
  lexeme : a.lexeme ≤ b.lexeme
  kind : a.kind ≤ b.kind
  attr : a.attr ≤ b.attr

namespace Columns

theorem Within.refl (a : Columns Nat) : a.Within a :=
  ⟨Nat.le_refl _, Nat.le_refl _, Nat.le_refl _, Nat.le_refl _⟩

theorem Within.trans {a b c : Columns Nat} (h : a.Within b) (h' : b.Within c) : a.Within c :=
  ⟨Nat.le_trans h.line h'.line, Nat.le_trans h.lexeme h'.lexeme, Nat.le_trans h.kind h'.kind,
    Nat.le_trans h.attr h'.attr⟩

theorem within_max_left (a b : Columns Nat) : a.Within (a.zipWith max b) :=
  ⟨Nat.le_max_left _ _, Nat.le_max_left _ _, Nat.le_max_left _ _, Nat.le_max_left _ _⟩

theorem within_max_right (a b : Columns Nat) : b.Within (a.zipWith max b) :=
  ⟨Nat.le_max_right _ _, Nat.le_max_right _ _, Nat.le_max_right _ _, Nat.le_max_right _ _⟩

theorem fit_iff {cells : Columns Text} {widths : Columns Nat} :
    cells.Fit widths ↔ (cells.map List.length).Within widths :=
  ⟨fun h => ⟨h.line, h.lexeme, h.kind, h.attr⟩, fun h => ⟨h.line, h.lexeme, h.kind, h.attr⟩⟩

end Columns

/-- The widths only grow, and take in each row they pass. -/
theorem within_foldl_widths (rows : List (Columns Text)) (widths : Columns Nat) :
    let wide := rows.foldl (fun w r => w.zipWith max (r.map List.length)) widths
    widths.Within wide ∧ ∀ r ∈ rows, r.Fit wide := by
  induction rows generalizing widths with
  | nil => exact ⟨.refl widths, List.forall_mem_nil _⟩
  | cons r rows ih =>
    obtain ⟨hgrown, hrows⟩ := ih (widths.zipWith max (r.map List.length))
    refine ⟨(Columns.within_max_left _ _).trans hgrown, List.forall_mem_cons.mpr ⟨?_, hrows⟩⟩
    exact Columns.fit_iff.mpr ((Columns.within_max_right _ _).trans hgrown)

theorem fit_columnWidths (rows : List (Columns Text)) :
    ∀ cells ∈ tableHeader :: rows, cells.Fit (columnWidths rows) := by
  obtain ⟨hheader, hrows⟩ := within_foldl_widths rows (tableHeader.map List.length)
  exact List.forall_mem_cons.mpr ⟨Columns.fit_iff.mpr hheader, hrows⟩

/-! ## Lines between bars -/

theorem length_padCell {cell : Text} {width : Nat} (h : cell.length ≤ width) :
    (padCell cell width).length = width := by
  rw [padCell, List.length_append, Text.filled, List.length_replicate]
  exact Nat.add_sub_of_le h

/-- The bars of a table with columns of these widths. -/
def barsOf (widths : Columns Nat) : Bars where
  first := widths.line + 1
  second := widths.line + widths.lexeme + 4
  third := widths.line + widths.lexeme + widths.kind + 7

theorem getElem?_after (s t : Text) (c : Char) : (s ++ c :: t)[s.length]? = some c := by
  rw [List.getElem?_append_right (Nat.le_refl _), Nat.sub_self]
  rfl

theorem drop_after (s t : Text) (c : Char) : (s ++ c :: t).drop (s.length + 1) = t := by
  rw [← List.drop_drop, List.drop_left]
  rfl

/-- A line is cut at its bars into the parts that stand between them. -/
theorem Bars.cut_of_eq {b : Bars} {bar : Char} {line : Text} {parts : Columns Text}
    (h : line = parts.line ++ bar :: (parts.lexeme ++ bar :: (parts.kind ++ bar :: parts.attr)))
    (hfirst : parts.line.length = b.first)
    (hsecond : b.first + 1 + parts.lexeme.length = b.second)
    (hthird : b.second + 1 + parts.kind.length = b.third) : b.Cut bar line parts := by
  -- the line seen from its second and from its third bar
  have hline₂ : line =
      (parts.line ++ bar :: parts.lexeme) ++ bar :: (parts.kind ++ bar :: parts.attr) := by
    rw [h, List.append_assoc, List.cons_append]
  have hline₃ : line =
      ((parts.line ++ bar :: parts.lexeme) ++ bar :: parts.kind) ++ bar :: parts.attr := by
    rw [hline₂, List.append_assoc _ (bar :: parts.kind), List.cons_append]
  have hlength₂ : (parts.line ++ bar :: parts.lexeme).length = b.second := by
    rw [List.length_append, List.length_cons]
    omega
  have hlength₃ : ((parts.line ++ bar :: parts.lexeme) ++ bar :: parts.kind).length = b.third := by
    rw [List.length_append, List.length_cons]
    omega
  constructor
  · rw [h, ← hfirst]
    exact getElem?_after _ _ _
  · rw [hline₂, ← hlength₂]
    exact getElem?_after _ _ _
  · rw [hline₃, ← hlength₃]
    exact getElem?_after _ _ _
  · rw [h, ← hfirst, List.take_left]
  · rw [hline₂, ← hlength₂, List.take_left, ← hfirst]
    exact drop_after _ _ _
  · rw [hline₃, ← hlength₃, List.take_left, ← hlength₂]
    exact drop_after _ _ _
  · rw [hline₃, ← hlength₃]
    exact drop_after _ _ _

theorem isFilledCell_padCell (cell : Text) (width : Nat) :
    IsFilledCell cell (padCell cell width ++ [' ']) := by
  refine ⟨width - cell.length + 1, ?_⟩
  rw [padCell, List.append_assoc, Text.filled, Text.filled, ← List.replicate_succ']

/-- The line of cells before it is trimmed. -/
def paddedLine (widths : Columns Nat) (cells : Columns Text) : Text :=
  Text.join " | ".toList (cells.zipWith padCell widths).toList

theorem paddedLine_eq (widths : Columns Nat) (cells : Columns Text) :
    paddedLine widths cells =
      padCell cells.line widths.line ++ [' '] ++ '|' ::
        (' ' :: padCell cells.lexeme widths.lexeme ++ [' '] ++ '|' ::
          (' ' :: padCell cells.kind widths.kind ++ [' '] ++ '|' ::
            (' ' :: padCell cells.attr widths.attr))) := by
  simp [paddedLine, Text.join, Columns.toList, Columns.zipWith, List.intercalate]

theorem length_paddedLine {widths : Columns Nat} {cells : Columns Text} (h : cells.Fit widths) :
    (paddedLine widths cells).length =
      widths.line + widths.lexeme + widths.kind + widths.attr + 9 := by
  rw [paddedLine_eq]
  simp only [List.length_append, List.length_cons, List.length_nil, length_padCell h.line,
    length_padCell h.lexeme, length_padCell h.kind, length_padCell h.attr]
  omega

theorem tableLine_eq (widths : Columns Nat) (cells : Columns Text) :
    tableLine widths cells =
      padCell cells.line widths.line ++ [' '] ++ '|' ::
        (' ' :: padCell cells.lexeme widths.lexeme ++ [' '] ++ '|' ::
          (' ' :: padCell cells.kind widths.kind ++ [' '] ++ '|' ::
            trimEnd (' ' :: cells.attr))) := by
  have hbar : Unicode.isWhiteSpace '|' = false := by decide
  have hattr : trimEnd (' ' :: padCell cells.attr widths.attr) = trimEnd (' ' :: cells.attr) := by
    rw [padCell, ← List.cons_append]
    apply trimEnd_append_white
    intro c hc
    rw [List.eq_of_mem_replicate hc]
    rfl
  show trimEnd (paddedLine widths cells) = _
  rw [paddedLine_eq, trimEnd_append_cons hbar, trimEnd_append_cons hbar, trimEnd_append_cons hbar,
    hattr]

/-- A line shows the cells that it is made of. -/
theorem show_tableLine {widths : Columns Nat} {cells : Columns Text} (h : cells.Fit widths) :
    (barsOf widths).Show (tableLine widths cells) cells := by
  refine ⟨⟨_, _, _, _⟩, Bars.cut_of_eq (tableLine_eq widths cells) ?_ ?_ ?_,
    isFilledCell_padCell _ _, ?_, ?_, isLastCell_trimEnd _⟩
  · simp only [barsOf, List.length_append, List.length_singleton, length_padCell h.line]
  · simp only [barsOf, List.length_append, List.length_cons, List.length_nil,
      length_padCell h.lexeme]
    omega
  · simp only [barsOf, List.length_append, List.length_cons, List.length_nil,
      length_padCell h.kind]
    omega
  · obtain ⟨n, hn⟩ := isFilledCell_padCell cells.lexeme widths.lexeme
    exact ⟨n, congrArg (' ' :: ·) hn⟩
  · obtain ⟨n, hn⟩ := isFilledCell_padCell cells.kind widths.kind
    exact ⟨n, congrArg (' ' :: ·) hn⟩

theorem dashLine_eq (widths : Columns Nat) :
    dashLine widths =
      Text.filled (widths.line + 1) '-' ++ '+' ::
        (Text.filled (widths.lexeme + 2) '-' ++ '+' ::
          (Text.filled (widths.kind + 2) '-' ++ '+' :: Text.filled (widths.attr + 1) '-')) := by
  have hdash : ∀ n, Text.filled (n + 1) '-' = Text.filled n '-' ++ ['-'] :=
    fun n => List.replicate_succ'
  have hdashes : ∀ n, Text.filled (n + 2) '-' = '-' :: Text.filled n '-' ++ ['-'] := fun n => by
    rw [hdash, Text.filled, List.replicate_succ]
    rfl
  rw [hdash, hdashes, hdashes]
  simp [dashLine, Text.join, Columns.toList, Columns.map, List.intercalate, Text.filled,
    List.replicate_succ]

theorem length_dashLine (widths : Columns Nat) : (dashLine widths).length =
    widths.line + widths.lexeme + widths.kind + widths.attr + 9 := by
  rw [dashLine_eq]
  simp only [List.length_append, List.length_cons, Text.filled, List.length_replicate]
  omega

theorem cross_dashLine (widths : Columns Nat) : (barsOf widths).Cross (dashLine widths) := by
  refine ⟨⟨.filled (widths.line + 1) '-', .filled (widths.lexeme + 2) '-',
    .filled (widths.kind + 2) '-', .filled (widths.attr + 1) '-'⟩,
    Bars.cut_of_eq (dashLine_eq widths) ?_ ?_ ?_, ?_⟩
  · exact List.length_replicate
  · simp only [barsOf, Text.filled, List.length_replicate]
    omega
  · simp only [barsOf, Text.filled, List.length_replicate]
    omega
  · intro part hpart c hc
    simp only [Columns.toList, List.mem_cons, List.not_mem_nil, or_false] at hpart
    rcases hpart with rfl | rfl | rfl | rfl <;> exact List.eq_of_mem_replicate hc

/-- No line is longer than the line of dashes. -/
theorem length_tableLine_le {widths : Columns Nat} {cells : Columns Text} (h : cells.Fit widths) :
    (tableLine widths cells).length ≤ (dashLine widths).length := by
  rw [length_dashLine, ← length_paddedLine h]
  exact length_trimEnd_le _

/-! ## Tables -/

/-- The cells stay on one line. -/
structure Columns.PlainCells (cells : Columns Text) : Prop where
  line : Plain cells.line
  lexeme : Plain cells.lexeme
  kind : Plain cells.kind
  attr : Plain cells.attr

theorem plainCells_tableHeader : tableHeader.PlainCells :=
  ⟨by decide, by decide, by decide, by decide⟩

theorem TokenRow.fills_cells (r : TokenRow) : r.Fills r.cells :=
  ⟨rfl, onOneLine_showCell r.lexeme, rfl, onOneLine_showCell r.attr⟩

theorem TokenRow.plainCells {r : TokenRow} (h : Plain r.kind) : r.cells.PlainCells :=
  ⟨plain_ofNat r.line, plain_showCell r.lexeme, h, plain_showCell r.attr⟩

theorem plain_padCell {cell : Text} (h : Plain cell) (width : Nat) : Plain (padCell cell width) :=
  plain_append.mpr ⟨h, plain_filled _ rfl⟩

theorem plain_tableLine {cells : Columns Text} (h : cells.PlainCells) (widths : Columns Nat) :
    Plain (tableLine widths cells) := by
  have hblank : Plain [' '] := by decide
  have hbar : isLayout '|' = false := rfl
  have hspace : isLayout ' ' = false := rfl
  apply plain_trimEnd
  show Plain (paddedLine widths cells)
  rw [paddedLine_eq]
  simp only [plain_append, plain_cons, plain_padCell h.line, plain_padCell h.lexeme,
    plain_padCell h.kind, plain_padCell h.attr, hblank, hbar, hspace, and_self]

theorem plain_dashLine (widths : Columns Nat) : Plain (dashLine widths) := by
  have hplus : isLayout '+' = false := rfl
  have hfilled : ∀ n, Plain (Text.filled n '-') := fun n => plain_filled n rfl
  rw [dashLine_eq]
  simp only [plain_append, plain_cons, hfilled, hplus, and_self]

theorem plain_tableLines {rows : List TokenRow} (h : ∀ r ∈ rows, Plain r.kind) :
    ∀ line ∈ tableLines rows, Plain line := by
  refine List.forall_mem_cons.mpr ⟨plain_tableLine plainCells_tableHeader _,
    List.forall_mem_cons.mpr ⟨plain_dashLine _, ?_⟩⟩
  intro line hline
  rw [List.map_map] at hline
  obtain ⟨r, hr, rfl⟩ := List.mem_map.mp hline
  exact plain_tableLine (TokenRow.plainCells (h r hr)) _

/-- Plain lines put one under the other are the lines of the text. -/
theorem splitOn_join {lines : List Text} (hne : lines ≠ []) (h : ∀ line ∈ lines, Plain line) :
    (Text.join ['\n'] lines).splitOn '\n' = lines :=
  List.splitOn_intercalate '\n' (fun line hline => (h line hline).not_mem rfl) hne

theorem not_mem_join {lines : List Text} {c : Char} (hc : c ≠ '\n')
    (h : ∀ line ∈ lines, c ∉ line) : c ∉ Text.join ['\n'] lines := by
  induction lines with
  | nil => exact List.not_mem_nil
  | cons line lines ih =>
    obtain ⟨hline, hlines⟩ := List.forall_mem_cons.mp h
    cases lines with
    | nil => rwa [Text.join, List.intercalate_singleton]
    | cons next lines =>
      rw [Text.join, List.intercalate_cons_cons, List.mem_append, List.mem_append,
        List.mem_singleton]
      rintro ((hmem | hmem) | hmem)
      · exact hline hmem
      · exact hc hmem
      · exact ih hlines hmem

/-- Rows with plain kinds are shown as a table. -/
theorem isTable_renderTable {rows : List TokenRow} (h : ∀ r ∈ rows, Plain r.kind) :
    IsTable rows (renderTable rows) := by
  have hplain := plain_tableLines h
  have hfit := fit_columnWidths (rows.map TokenRow.cells)
  obtain ⟨hheader, hcells⟩ := List.forall_mem_cons.mp hfit
  have hsplit : (renderTable rows).splitOn '\n' = tableLines rows :=
    splitOn_join (List.cons_ne_nil _ _) hplain
  refine
    { no_return := not_mem_join (by decide) fun line hline => (hplain line hline).not_mem rfl
      no_tab := not_mem_join (by decide) fun line hline => (hplain line hline).not_mem rfl
      line_count := ?_
      aligned := ⟨barsOf (columnWidths (rows.map TokenRow.cells)), _, _, _, hsplit,
        show_tableLine hheader, cross_dashLine _, ?_, ?_⟩
      fits := hfit }
  · rw [hsplit, tableLines, List.length_cons, List.length_cons, List.length_map, List.length_map]
  · rw [List.map_map, List.forall₂_map_left_iff, List.forall₂_same]
    exact fun r hr =>
      ⟨r.cells, r.fills_cells, show_tableLine (hcells r.cells (List.mem_map_of_mem hr))⟩
  · rw [hsplit]
    refine List.forall_mem_cons.mpr ⟨length_tableLine_le hheader,
      List.forall_mem_cons.mpr ⟨Nat.le_refl _, ?_⟩⟩
    intro line hline
    obtain ⟨cells, hmem, rfl⟩ := List.mem_map.mp hline
    exact length_tableLine_le (hcells cells hmem)

/-! ## Rows -/

theorem hasRow_iff {comments : Bool} {t : Token} : hasRow comments t = true ↔
    t.kind ≠ .endOfFile ∧ (t.kind = .comment → comments = true) := by
  unfold hasRow Token.isEndOfFile Token.isTrivia
  cases comments <;> simp

/-- A token of a scan takes some text, unless it is the last one. -/
theorem start_lt_stop {source : Text} {t : Token} (ht : t ∈ (tokenize source).tokens)
    (hk : t.kind ≠ .endOfFile) : t.start.offset < t.stop.offset := by
  rw [tokens_tokenize, List.mem_append, List.mem_singleton] at ht
  rcases ht with ht | rfl
  · exact (token_is_its_slice ht).2.1
  · exact absurd rfl hk

theorem TokenKind.called_name (k : TokenKind) : k.Called k.name := by
  cases k <;> constructor

theorem TokenRow.lists_ofToken (t : Token) : (TokenRow.ofToken t).Lists t where
  line := rfl
  lexeme := rfl
  kind := t.kind.called_name
  attr := by
    show AttributeOf t.value ((t.value.map Literal.display).getD "None".toList)
    rcases t.value with - | v
    · exact .absent
    · cases v <;> constructor

theorem rowsOf_tokenRows (source : Text) (comments : Bool) :
    RowsOf comments (tokenize source).tokens ((tokenize source).tokens.filter (hasRow comments))
      (tokenRows comments (tokenize source).tokens) where
  listed := by
    rw [tokenRows, List.forall₂_map_left_iff, List.forall₂_same]
    exact fun t _ => TokenRow.lists_ofToken t
  sublist := List.filter_sublist
  wanted t := by rw [List.mem_filter, hasRow_iff]
  in_order := by
    have hsorted := (tokens_tokenize_in_order source).sublist
      (List.filter_sublist (p := hasRow comments))
    refine hsorted.imp_of_mem fun {a b} ha _ hab => ?_
    obtain ⟨hmem, hrow⟩ := List.mem_filter.mp ha
    exact Nat.lt_of_lt_of_le (start_lt_stop hmem (hasRow_iff.mp hrow).1) hab

/-! ## The error panel -/

theorem plain_panelLine (e : LexicalError) : Plain (panelLine (.ofError e)) := by
  have hblanks : Plain "  ".toList := by decide
  have hplace := plain_append.mpr ⟨plain_append.mpr ⟨hblanks, plain_ofNat e.position.line⟩,
    plain_cons.mpr ⟨show isLayout ':' = false from rfl, plain_ofNat e.position.column⟩⟩
  have hkind := plain_append.mpr ⟨plain_append.mpr ⟨hplace, hblanks⟩, e.kind.plain_name⟩
  have hmessage := plain_append.mpr ⟨plain_append.mpr ⟨hkind, show Plain ": ".toList by decide⟩,
    e.kind.plain_message⟩
  have htext := plain_append.mpr ⟨plain_append.mpr ⟨hmessage, show Plain " `".toList by decide⟩,
    plain_showCell e.text⟩
  exact plain_append.mpr ⟨htext, show Plain ['`'] by decide⟩

/-- The panel has a line for each error, under its first line. -/
theorem length_errorPanel (errors : List LexicalError) :
    ((renderErrorPanel (errorRows errors)).splitOn '\n').length = errors.length + 1 := by
  have htitle : ∀ n, Plain ("Errors (".toList ++ Text.ofNat n ++ "):".toList) := fun n =>
    plain_append.mpr ⟨plain_append.mpr ⟨by decide, plain_ofNat n⟩, by decide⟩
  have hplain : ∀ line ∈ panelLines (errorRows errors), Plain line := by
    refine List.forall_mem_cons.mpr ⟨htitle _, ?_⟩
    intro line hline
    rw [errorRows, List.map_map] at hline
    obtain ⟨e, -, rfl⟩ := List.mem_map.mp hline
    exact plain_panelLine e
  have hsplit : (renderErrorPanel (errorRows errors)).splitOn '\n' =
      panelLines (errorRows errors) := splitOn_join (List.cons_ne_nil _ _) hplain
  rw [hsplit, panelLines, List.length_cons, List.length_map, errorRows, List.length_map]

/-- What is shown of a scan is a table with a line for each token that is wanted, and a panel with a
line for each error. -/
theorem results_stay_in_their_columns (source : Text) (comments : Bool)
    (errors : List LexicalError) :
    (∃ kept, RowsOf comments (tokenize source).tokens kept
      (tokenRows comments (tokenize source).tokens)) ∧
    IsTable (tokenRows comments (tokenize source).tokens)
      (renderTable (tokenRows comments (tokenize source).tokens)) ∧
    ((renderErrorPanel (errorRows errors)).splitOn '\n').length = errors.length + 1 := by
  refine ⟨⟨_, rowsOf_tokenRows source comments⟩, isTable_renderTable ?_, length_errorPanel errors⟩
  intro r hr
  obtain ⟨t, -, rfl⟩ := List.mem_map.mp hr
  exact t.kind.plain_name

end Lexis
