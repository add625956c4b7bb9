-- The lexical grammar: which lexeme stands where, given only the text after
-- it. The readers find the lexeme that the grammar allows, and no other.
import Lexis.Proofs.CommentGrammar
import Lexis.Proofs.StringGrammar
import Lexis.Scan.Piece

namespace Lexis

/-! ## The grammar -/

def NoComment (t : Text) : Prop := ¬ ['/', '/'] <+: t ∧ ¬ ['/', '*'] <+: t

/-- The lexeme of a block comment that the text runs out in. -/
def openComment (t : Text) : Lexeme := ⟨.comment, t, none, [⟨.unterminatedComment, [], t⟩]⟩

/-- A lexeme as it may stand in a source, given the text after it. -/
inductive Lexeme.Stands : Lexeme → Text → Prop
  | word {c : Char} {w rest : Text} : isWordStart c → (∀ x ∈ w, isWordPart x) →
      Stops isWordPart rest → Stands (.plain (wordKind (c :: w)) (c :: w)) rest
  | integer {digits rest : Text} : digits ≠ [] → (∀ x ∈ digits, x.isDigit) →
      Stops Char.isDigit rest → (∀ more, rest = '.' :: more → Stops Char.isDigit more) →
      Stands (integerLexeme digits rest) rest
  | float {whole fraction rest : Text} : whole ≠ [] → fraction ≠ [] →
      (∀ x ∈ whole, x.isDigit) → (∀ x ∈ fraction, x.isDigit) → Stops Char.isDigit rest →
      Stands (floatLexeme whole fraction) rest
  | string {quote : Char} {b : QuotedBody} : IsQuote quote → b.WellFormed quote →
      Stands (stringLexeme quote b) b.rest
  | lineComment {t rest : Text} : (∀ x ∈ t, x ≠ '\n') → Stops (· ≠ '\n') rest →
      Stands (.plain .comment ('/' :: '/' :: t)) rest
  | blockComment {t rest : Text} : IsBlockComment t → Stands (.plain .comment t) rest
  | openComment {r : Text} : (∀ t, t <+: '/' :: '*' :: r → ¬ IsBlockComment t) →
      Stands (openComment ('/' :: '*' :: r)) []
  | operator {o : Operator} {rest : Text} :
      (∀ o' : Operator, o'.spelling <+: o.spelling ++ rest →
        o'.spelling.length ≤ o.spelling.length) →
      NoComment (o.spelling ++ rest) → Stands (.plain (.operator o) o.spelling) rest
  | punctuation {p : Punctuation} {rest : Text} : Stands (.plain (.punctuation p) [p.char]) rest

/-! ## Symbols -/

theorem Operator.spelling_injective {o o' : Operator} (h : o.spelling = o'.spelling) : o = o' := by
  have all_distinct : ∀ a ∈ all, ∀ b ∈ all, a.spelling = b.spelling → a = b := by decide
  exact all_distinct o (mem_all o) o' (mem_all o') h

theorem Operator.longest_of_longestMatch? {t : Text} {o : Operator}
    (h : longestMatch? t = some o) : o.spelling <+: t ∧
      ∀ o' : Operator, o'.spelling <+: t → o'.spelling.length ≤ o.spelling.length := by
  obtain ⟨hp, before, later, hall, hbefore⟩ := List.find?_eq_some_iff_append.mp h
  refine ⟨by simpa using hp, ?_⟩
  intro o' ho'
  have hmem := mem_all o'
  have hsorted := all_longest_first
  rw [hall] at hmem hsorted
  rcases List.mem_append.mp hmem with hmem | hmem
  · have hno := hbefore o' hmem
    rw [List.isPrefixOf_iff_prefix.mpr ho'] at hno
    cases hno
  · rcases List.mem_cons.mp hmem with rfl | hmem
    · exact Nat.le_refl _
    · exact (List.pairwise_cons.mp (List.pairwise_append.mp hsorted).2.1).1 o' hmem

/-- Of the operators that a text begins with, the match is the longest. -/
theorem Operator.longestMatch?_iff {t : Text} {o : Operator} : longestMatch? t = some o ↔
    o.spelling <+: t ∧ ∀ o' : Operator, o'.spelling <+: t →
      o'.spelling.length ≤ o.spelling.length := by
  refine ⟨longest_of_longestMatch?, ?_⟩
  rintro ⟨hp, hlongest⟩
  cases hm : longestMatch? t with
  | none =>
    have := List.find?_eq_none.mp hm o (mem_all o)
    simp [hp] at this
  | some o' =>
    obtain ⟨hp', hlongest'⟩ := longest_of_longestMatch? hm
    have hlen := Nat.le_antisymm (hlongest' o hp) (hlongest o' hp')
    have hsame := (List.prefix_of_prefix_length_le hp hp' (Nat.le_of_eq hlen)).eq_of_length hlen
    rw [spelling_injective hsame]

theorem Operator.longestMatch?_eq_none_iff {t : Text} : longestMatch? t = none ↔
    ∀ o : Operator, ¬ o.spelling <+: t := by
  unfold longestMatch?
  rw [List.find?_eq_none]
  constructor
  · intro h o ho
    exact h o (mem_all o) (by simpa using ho)
  · intro h o _ ho
    exact h o (by simpa using ho)

theorem Operator.spelling_first (o : Operator) : ∃ c t, o.spelling = c :: t ∧
    c.isDigit = false ∧ isWordStart c = false ∧ ¬ IsQuote c ∧ isBlank c = false := by
  unfold IsQuote
  cases o <;> exact ⟨_, _, rfl, by decide, by decide, by decide, by decide⟩

theorem Punctuation.char_class (p : Punctuation) : p.char.isDigit = false ∧
    isWordStart p.char = false ∧ ¬ IsQuote p.char ∧ isBlank p.char = false ∧ p.char ≠ '/' := by
  unfold IsQuote
  cases p <;> exact ⟨by decide, by decide, by decide, by decide, by decide⟩

/-- No operator begins with a punctuation mark. -/
theorem Punctuation.longestMatch?_char (p : Punctuation) (r : Text) :
    Operator.longestMatch? (p.char :: r) = none := by
  have first_differs : ∀ p ∈ all, ∀ o ∈ Operator.all, o.spelling.head? ≠ some p.char := by decide
  rw [Operator.longestMatch?_eq_none_iff]
  rintro o ⟨t, ht⟩
  apply first_differs p (by cases p <;> decide) o (Operator.mem_all o)
  obtain ⟨c, s, hs, -⟩ := o.spelling_first
  rw [hs, List.cons_append, List.cons.injEq] at ht
  rw [hs, ht.1]
  rfl

/-! ## First characters -/

theorem noComment_of_ne {c : Char} {r : Text} (h : c ≠ '/') : NoComment (c :: r) := by
  constructor
  · intro hp; exact h (by simpa using (List.cons_prefix_cons.mp hp).1.symm)
  · intro hp; exact h (by simpa using (List.cons_prefix_cons.mp hp).1.symm)

theorem ne_slash_of_isDigit {c : Char} (h : c.isDigit = true) : c ≠ '/' := by
  rintro rfl; cases h

theorem ne_slash_of_isWordStart {c : Char} (h : isWordStart c = true) : c ≠ '/' := by
  rintro rfl; exact absurd h (by decide)

theorem not_isQuote_of_isDigit {c : Char} (h : c.isDigit = true) : ¬ IsQuote c := by
  rintro (rfl | rfl) <;> cases h

theorem not_isQuote_of_isWordStart {c : Char} (h : isWordStart c = true) : ¬ IsQuote c := by
  rintro (rfl | rfl) <;> exact absurd h (by decide)

theorem isWordStart_eq_false_of_isDigit {c : Char} (h : c.isDigit = true) :
    isWordStart c = false := by
  have all_digits : ∀ n < 58, 48 ≤ n → isWordStart (Char.ofNat n) = false := by decide
  obtain ⟨hlow, hhigh⟩ := Char.isDigit_iff_toNat.mp h
  have hc := all_digits c.toNat (Nat.lt_succ_of_le hhigh) hlow
  rwa [Char.ofNat_toNat] at hc

theorem eq_of_isBlank {c : Char} (h : isBlank c = true) :
    c = ' ' ∨ c = '\t' ∨ c = '\n' ∨ c = '\r' := by
  simp only [isBlank, Bool.or_eq_true, beq_iff_eq] at h
  rcases h with ((h | h) | h) | h
  · exact .inl h
  · exact .inr (.inl h)
  · exact .inr (.inr (.inl h))
  · exact .inr (.inr (.inr h))

theorem isBlank_eq_false_of_isDigit {c : Char} (h : c.isDigit = true) : isBlank c = false := by
  cases hb : isBlank c with
  | false => rfl
  | true => rcases eq_of_isBlank hb with rfl | rfl | rfl | rfl <;> cases h

theorem isBlank_eq_false_of_isWordStart {c : Char} (h : isWordStart c = true) :
    isBlank c = false := by
  cases hb : isBlank c with
  | false => rfl
  | true => rcases eq_of_isBlank hb with rfl | rfl | rfl | rfl <;> exact absurd h (by decide)

/-- A lexeme takes text, and never begins with a blank. -/
theorem Lexeme.Stands.first {l : Lexeme} {rest : Text} (h : l.Stands rest) :
    ∃ c t, l.text = c :: t ∧ isBlank c = false := by
  cases h with
  | word hc => exact ⟨_, _, rfl, isBlank_eq_false_of_isWordStart hc⟩
  | integer hne hdigits =>
    obtain ⟨d, ds, rfl⟩ := List.exists_cons_of_ne_nil hne
    exact ⟨d, ds, rfl, isBlank_eq_false_of_isDigit (hdigits d List.mem_cons_self)⟩
  | float hne _ hdigits =>
    obtain ⟨d, ds, rfl⟩ := List.exists_cons_of_ne_nil hne
    exact ⟨d, _, rfl, isBlank_eq_false_of_isDigit (hdigits d List.mem_cons_self)⟩
  | string hq => exact ⟨_, _, rfl, by rcases hq with rfl | rfl <;> decide⟩
  | lineComment => exact ⟨_, _, rfl, by decide⟩
  | blockComment hblock =>
    obtain ⟨u, rfl, -⟩ := hblock
    exact ⟨_, _, rfl, by decide⟩
  | openComment => exact ⟨_, _, rfl, by decide⟩
  | @operator o =>
    obtain ⟨c, t, ht, -, -, -, hb⟩ := o.spelling_first
    exact ⟨c, t, ht, hb⟩
  | @punctuation p => exact ⟨p.char, [], rfl, p.char_class.2.2.2.1⟩

/-! ## The readers follow the grammar -/

theorem stands_readLineComment (r : Text) :
    (readLineComment r).1.Stands (readLineComment r).2 := by
  refine .lineComment ?_ (stops_dropWhile _ r)
  intro x hx
  simpa using List.mem_takeWhile_imp hx

theorem stands_readBlockComment (r : Text) :
    (readBlockComment r).1.Stands (readBlockComment r).2 := by
  have happ := readBlockBody_append 0 r
  obtain ⟨text, rest, hb⟩ : ∃ text rest, readBlockBody 0 r = ⟨text, rest⟩ := ⟨_, _, rfl⟩
  rw [hb] at happ
  simp only [readBlockComment, hb]
  cases rest with
  | some rest => exact .blockComment (isBlockComment_of_readBlockBody hb)
  | none =>
    have hopen := rest_readBlockBody_eq_none_iff.mp (by rw [hb] : (readBlockBody 0 r).rest = none)
    simp only [Option.getD_none, List.append_nil] at happ
    rw [happ]
    exact .openComment hopen

theorem stands_readString {quote : Char} (hquote : IsQuote quote) (r : Text) :
    (readString quote r).1.Stands (readString quote r).2 :=
  .string hquote (wellFormed_readQuotedBody quote r)

theorem stands_readWord {c : Char} (hc : isWordStart c = true) (r : Text) :
    (readWord c r).1.Stands (readWord c r).2 :=
  .word hc (fun _ hx => List.mem_takeWhile_imp hx) (stops_dropWhile _ r)

theorem stands_readNumber {c : Char} (hc : c.isDigit = true) (r : Text) :
    (readNumber c r).1.Stands (readNumber c r).2 := by
  have hdigits : ∀ x ∈ c :: r.takeWhile Char.isDigit, x.isDigit := by
    intro x hx
    rcases List.mem_cons.mp hx with rfl | hx
    · exact hc
    · exact List.mem_takeWhile_imp hx
  have hstop := stops_dropWhile Char.isDigit r
  simp only [readNumber]
  split
  · rename_i d more hr
    rw [hr] at hstop
    split
    · rename_i hd
      refine .float (List.cons_ne_nil _ _) (List.cons_ne_nil _ _) hdigits ?_
        (stops_dropWhile _ more)
      intro x hx
      rcases List.mem_cons.mp hx with rfl | hx
      · exact hd
      · exact List.mem_takeWhile_imp hx
    · rename_i hd
      rw [hr]
      refine .integer (List.cons_ne_nil _ _) hdigits hstop ?_
      intro more' hmore
      cases hmore
      exact stops_cons_iff.mpr (by simpa using hd)
  · rename_i hne
    refine .integer (List.cons_ne_nil _ _) hdigits hstop ?_
    intro more hmore
    cases more with
    | nil => exact stops_nil _
    | cons d more => exact absurd hmore (hne d more)

theorem stands_readSymbol? {c : Char} {r rest : Text} {l : Lexeme} (hno : NoComment (c :: r))
    (h : readSymbol? c r = some (l, rest)) : l.Stands rest := by
  unfold readSymbol? at h
  split at h
  · rename_i o ho
    obtain ⟨⟨t, ht⟩, hlongest⟩ := Operator.longestMatch?_iff.mp ho
    rw [← ht, List.drop_left] at h
    cases h
    rw [← ht] at hlongest hno
    exact .operator hlongest hno
  · obtain ⟨p, hp, he⟩ := Option.map_eq_some_iff.mp h
    cases he
    rw [← Punctuation.char_of_ofChar? hp]
    exact .punctuation

/-- Away from comments and strings the first character alone chooses the reader. -/
theorem readLexeme?_of_noComment {c : Char} {r : Text} (hno : NoComment (c :: r))
    (hquote : ¬ IsQuote c) : readLexeme? c r =
      if c.isDigit then some (readNumber c r)
      else if isWordStart c then some (readWord c r)
      else readSymbol? c r := by
  unfold readLexeme?
  split
  · exact absurd (by simp) hno.1
  · exact absurd (by simp) hno.2
  · exact absurd (.inl rfl) hquote
  · exact absurd (.inr rfl) hquote
  · rfl

theorem readLexeme?_digit {c : Char} (hd : c.isDigit = true) (r : Text) :
    readLexeme? c r = some (readNumber c r) := by
  rw [readLexeme?_of_noComment (noComment_of_ne (ne_slash_of_isDigit hd))
    (not_isQuote_of_isDigit hd), if_pos hd]

theorem readLexeme?_wordStart {c : Char} (hc : isWordStart c = true) (r : Text) :
    readLexeme? c r = some (readWord c r) := by
  have hd : ¬ c.isDigit = true := by
    intro hd
    rw [isWordStart_eq_false_of_isDigit hd] at hc
    cases hc
  rw [readLexeme?_of_noComment (noComment_of_ne (ne_slash_of_isWordStart hc))
    (not_isQuote_of_isWordStart hc), if_neg hd, if_pos hc]

theorem readLexeme?_symbol {c : Char} {r : Text} (hno : NoComment (c :: r))
    (hquote : ¬ IsQuote c) (hd : c.isDigit = false) (hw : isWordStart c = false) :
    readLexeme? c r = readSymbol? c r := by
  rw [readLexeme?_of_noComment hno hquote, if_neg (Bool.eq_false_iff.mp hd),
    if_neg (Bool.eq_false_iff.mp hw)]

theorem readLexeme?_quote {quote : Char} (hquote : IsQuote quote) (r : Text) :
    readLexeme? quote r = some (readString quote r) := by
  rcases hquote with rfl | rfl <;> rfl

/-- What is read at a character is a comment, a string, or none of them. -/
theorem comment_or_string_or_noComment (c : Char) (r : Text) :
    (∃ t, c = '/' ∧ r = '/' :: t) ∨ (∃ t, c = '/' ∧ r = '*' :: t) ∨ IsQuote c ∨
      (NoComment (c :: r) ∧ ¬ IsQuote c) := by
  by_cases hline : ['/', '/'] <+: c :: r
  · obtain ⟨t, ht⟩ := hline
    cases ht
    exact .inl ⟨t, rfl, rfl⟩
  · by_cases hblock : ['/', '*'] <+: c :: r
    · obtain ⟨t, ht⟩ := hblock
      cases ht
      exact .inr (.inl ⟨t, rfl, rfl⟩)
    · by_cases hquote : IsQuote c
      · exact .inr (.inr (.inl hquote))
      · exact .inr (.inr (.inr ⟨⟨hline, hblock⟩, hquote⟩))

theorem stands_readLexeme? {c : Char} {r rest : Text} {l : Lexeme}
    (h : readLexeme? c r = some (l, rest)) : l.Stands rest := by
  rcases comment_or_string_or_noComment c r with
    ⟨t, rfl, rfl⟩ | ⟨t, rfl, rfl⟩ | hquote | ⟨hno, hquote⟩
  · have hread := stands_readLineComment t
    rwa [Option.some.inj h] at hread
  · have hread := stands_readBlockComment t
    rwa [Option.some.inj h] at hread
  · have hread := stands_readString hquote r
    rw [readLexeme?_quote hquote] at h
    rwa [Option.some.inj h] at hread
  · rw [readLexeme?_of_noComment hno hquote] at h
    split at h
    · rename_i hc
      have hread := stands_readNumber hc r
      rwa [Option.some.inj h] at hread
    · split at h
      · rename_i hc
        have hread := stands_readWord hc r
        rwa [Option.some.inj h] at hread
      · exact stands_readSymbol? hno h

/-! ## The grammar follows the readers -/

theorem readNumber_integer {c : Char} {ds rest : Text} (hdigits : ∀ x ∈ c :: ds, x.isDigit)
    (hstop : Stops Char.isDigit rest)
    (hpoint : ∀ more, rest = '.' :: more → Stops Char.isDigit more) :
    readNumber c (ds ++ rest) = (integerLexeme (c :: ds) rest, rest) := by
  have hds : ∀ x ∈ ds, x.isDigit := fun x hx => hdigits x (List.mem_cons_of_mem _ hx)
  simp only [readNumber, takeWhile_of_stops hds hstop, dropWhile_of_stops hds hstop]
  split
  · rename_i d more
    have hd := stops_cons_iff.mp (hpoint (d :: more) rfl)
    simp [hd]
  · rfl

theorem readNumber_float {c d : Char} {ds fs rest : Text} (hdigits : ∀ x ∈ c :: ds, x.isDigit)
    (hfraction : ∀ x ∈ d :: fs, x.isDigit) (hstop : Stops Char.isDigit rest) :
    readNumber c (ds ++ '.' :: d :: (fs ++ rest)) = (floatLexeme (c :: ds) (d :: fs), rest) := by
  have hds : ∀ x ∈ ds, x.isDigit := fun x hx => hdigits x (List.mem_cons_of_mem _ hx)
  have hfs : ∀ x ∈ fs, x.isDigit := fun x hx => hfraction x (List.mem_cons_of_mem _ hx)
  have hd := hfraction d List.mem_cons_self
  have hpoint : Stops Char.isDigit ('.' :: d :: (fs ++ rest)) := stops_cons_iff.mpr (by decide)
  simp only [readNumber, takeWhile_of_stops hds hpoint, dropWhile_of_stops hds hpoint, hd, if_true,
    takeWhile_of_stops hfs hstop, dropWhile_of_stops hfs hstop]

theorem readSymbol?_operator {o : Operator} {c : Char} {r rest : Text}
    (hlongest : ∀ o' : Operator, o'.spelling <+: o.spelling ++ rest →
      o'.spelling.length ≤ o.spelling.length) (ht : o.spelling ++ rest = c :: r) :
    readSymbol? c r = some (.plain (.operator o) o.spelling, rest) := by
  have hm : Operator.longestMatch? (c :: r) = some o := by
    rw [← ht]
    exact Operator.longestMatch?_iff.mpr ⟨List.prefix_append _ _, hlongest⟩
  simp only [readSymbol?, hm]
  rw [← ht, List.drop_left]

theorem readBlockComment_open {r : Text}
    (hopen : ∀ t, t <+: '/' :: '*' :: r → ¬ IsBlockComment t) :
    readBlockComment r = (openComment ('/' :: '*' :: r), []) := by
  have hrest := rest_readBlockBody_eq_none_iff.mpr hopen
  have happ := readBlockBody_append 0 r
  rw [hrest, Option.getD_none, List.append_nil] at happ
  simp only [readBlockComment, hrest, happ, openComment]

/-- The reader finds the lexeme that stands at a character. -/
theorem readLexeme?_of_stands {l : Lexeme} {rest r : Text} {c : Char} (h : l.Stands rest)
    (ht : l.text ++ rest = c :: r) : readLexeme? c r = some (l, rest) := by
  cases h with
  | word hc hw hstop =>
    simp only [Lexeme.plain, List.cons_append, List.cons.injEq] at ht
    obtain ⟨rfl, rfl⟩ := ht
    rw [readLexeme?_wordStart hc, readWord, takeWhile_of_stops hw hstop,
      dropWhile_of_stops hw hstop]
  | integer hne hdigits hstop hpoint =>
    obtain ⟨d, ds, rfl⟩ := List.exists_cons_of_ne_nil hne
    simp only [integerLexeme, List.cons_append, List.cons.injEq] at ht
    obtain ⟨rfl, rfl⟩ := ht
    rw [readLexeme?_digit (hdigits d List.mem_cons_self),
      readNumber_integer hdigits hstop hpoint]
  | float hne hne' hdigits hfraction hstop =>
    obtain ⟨d, ds, rfl⟩ := List.exists_cons_of_ne_nil hne
    obtain ⟨f, fs, rfl⟩ := List.exists_cons_of_ne_nil hne'
    simp only [floatLexeme, List.cons_append, List.append_assoc, List.cons.injEq] at ht
    obtain ⟨rfl, rfl⟩ := ht
    rw [readLexeme?_digit (hdigits d List.mem_cons_self)]
    exact congrArg some (readNumber_float hdigits hfraction hstop)
  | @string quote b hquote hb =>
    simp only [stringLexeme, List.cons_append, List.cons.injEq] at ht
    obtain ⟨rfl, hr⟩ := ht
    rw [readLexeme?_quote hquote, readString, (readQuotedBody_iff hquote).mpr ⟨hr, hb⟩]
  | lineComment hbody hstop =>
    simp only [Lexeme.plain, List.cons_append, List.cons.injEq] at ht
    obtain ⟨rfl, rfl⟩ := ht
    have hbody' : ∀ x ∈ _, decide (x ≠ '\n') = true := fun x hx => decide_eq_true (hbody x hx)
    simp only [readLexeme?, readLineComment, takeWhile_of_stops hbody' hstop,
      dropWhile_of_stops hbody' hstop]
  | blockComment hblock =>
    obtain ⟨u, rfl, -⟩ := id hblock
    simp only [Lexeme.plain, List.cons_append, List.cons.injEq] at ht
    obtain ⟨rfl, rfl⟩ := ht
    exact congrArg some (readBlockComment_of_isBlockComment hblock rfl)
  | @openComment r' hopen =>
    simp only [openComment, List.append_nil, List.cons.injEq] at ht
    obtain ⟨rfl, rfl⟩ := ht
    exact congrArg some (readBlockComment_open hopen)
  | @operator o rest hlongest hno =>
    obtain ⟨d, s, hs, hdigit, hword, hquote, -⟩ := o.spelling_first
    have hd : d = c := by
      simp only [Lexeme.plain, hs, List.cons_append, List.cons.injEq] at ht
      exact ht.1
    subst hd
    rw [show o.spelling ++ rest = d :: r from ht] at hno
    rw [readLexeme?_symbol hno hquote hdigit hword]
    exact readSymbol?_operator hlongest ht
  | @punctuation p =>
    obtain ⟨hdigit, hword, hquote, -, hslash⟩ := p.char_class
    simp only [Lexeme.plain, List.cons_append, List.nil_append, List.cons.injEq] at ht
    obtain ⟨rfl, rfl⟩ := ht
    rw [readLexeme?_symbol (noComment_of_ne hslash) hquote hdigit hword]
    simp only [readSymbol?, Punctuation.longestMatch?_char, Punctuation.ofChar?_char,
      Option.map_some]

/-- What is read at a character is the one lexeme that the grammar allows there. -/
theorem readLexeme?_iff {c : Char} {r rest : Text} {l : Lexeme} :
    readLexeme? c r = some (l, rest) ↔ l.text ++ rest = c :: r ∧ l.Stands rest :=
  ⟨fun h => ⟨readLexeme?_append h, stands_readLexeme? h⟩, fun h => readLexeme?_of_stands h.2 h.1⟩

theorem readSymbol?_eq_none_iff {c : Char} {r : Text} : readSymbol? c r = none ↔
    Punctuation.ofChar? c = none ∧ ∀ o : Operator, ¬ o.spelling <+: c :: r := by
  rw [← Operator.longestMatch?_eq_none_iff]
  unfold readSymbol?
  split
  · rename_i o ho
    simp [ho]
  · rename_i hm
    simp [hm]

/-- Nothing is read at a character that no word, number, string or symbol begins with. -/
theorem readLexeme?_eq_none_iff {c : Char} {r : Text} : readLexeme? c r = none ↔
    c.isDigit = false ∧ isWordStart c = false ∧ ¬ IsQuote c ∧ Punctuation.ofChar? c = none ∧
      ∀ o : Operator, ¬ o.spelling <+: c :: r := by
  constructor
  · intro h
    rcases comment_or_string_or_noComment c r with ⟨t, rfl, rfl⟩ | ⟨t, rfl, rfl⟩ | hquote |
      ⟨hno, hquote⟩
    · cases h
    · cases h
    · rw [readLexeme?_quote hquote] at h
      cases h
    · have hd : c.isDigit = false := by
        rw [Bool.eq_false_iff]
        intro hd
        rw [readLexeme?_digit hd] at h
        cases h
      have hw : isWordStart c = false := by
        rw [Bool.eq_false_iff]
        intro hw
        rw [readLexeme?_wordStart hw] at h
        cases h
      rw [readLexeme?_symbol hno hquote hd hw, readSymbol?_eq_none_iff] at h
      exact ⟨hd, hw, hquote, h⟩
  · rintro ⟨hd, hw, hquote, hp, ho⟩
    have hno : NoComment (c :: r) := by
      apply noComment_of_ne
      rintro rfl
      exact ho .div (by simp [Operator.spelling])
    rw [readLexeme?_symbol hno hquote hd hw]
    exact readSymbol?_eq_none_iff.mpr ⟨hp, ho⟩

/-! ## The lexemes of one kind -/

/-- A word is an identifier or a keyword. -/
theorem wordKind_ne {w : Text} {k : TokenKind} (hid : k ≠ .identifier)
    (hkw : ∀ w, k ≠ .keyword w) : wordKind w ≠ k := by
  unfold wordKind
  split
  · rename_i w' _
    exact (hkw w').symm
  · exact hid.symm

namespace Lexeme.Stands

variable {l : Lexeme} {rest : Text}

theorem kind_ne_endOfFile (h : l.Stands rest) : l.kind ≠ .endOfFile := by
  cases h with
  | word => exact wordKind_ne (by simp) (by simp)
  | _ => intro hk; cases hk

theorem isEndOfFile_placed (h : l.Stands rest) (p : Position) :
    (l.placed p).isEndOfFile = false := by
  simpa [Token.isEndOfFile, placed] using h.kind_ne_endOfFile

theorem of_word (h : l.Stands rest) (hk : l.kind = .identifier ∨ ∃ k, l.kind = .keyword k) :
    ∃ c w, l = .plain (wordKind (c :: w)) (c :: w) ∧ isWordStart c ∧
      (∀ x ∈ w, isWordPart x) ∧ Stops isWordPart rest := by
  cases h with
  | word hc hw hstop => exact ⟨_, _, rfl, hc, hw, hstop⟩
  | _ => rcases hk with hk | ⟨k, hk⟩ <;> cases hk

theorem of_integer (h : l.Stands rest) (hk : l.kind = .integerLiteral) :
    ∃ digits, l = integerLexeme digits rest ∧ digits ≠ [] ∧ (∀ x ∈ digits, x.isDigit) ∧
      Stops Char.isDigit rest ∧ ∀ more, rest = '.' :: more → Stops Char.isDigit more := by
  cases h with
  | word => exact absurd hk (wordKind_ne (by simp) (by simp))
  | integer hne hdigits hstop hpoint => exact ⟨_, rfl, hne, hdigits, hstop, hpoint⟩
  | _ => cases hk

theorem of_float (h : l.Stands rest) (hk : l.kind = .floatLiteral) :
    ∃ whole fraction, l = floatLexeme whole fraction ∧ whole ≠ [] ∧ fraction ≠ [] ∧
      (∀ x ∈ whole, x.isDigit) ∧ (∀ x ∈ fraction, x.isDigit) ∧ Stops Char.isDigit rest := by
  cases h with
  | word => exact absurd hk (wordKind_ne (by simp) (by simp))
  | float hne hne' hwhole hfraction hstop =>
    exact ⟨_, _, rfl, hne, hne', hwhole, hfraction, hstop⟩
  | _ => cases hk

theorem of_string (h : l.Stands rest) (hk : l.kind = .stringLiteral) :
    ∃ quote b, l = stringLexeme quote b ∧ IsQuote quote ∧ b.rest = rest ∧ b.WellFormed quote := by
  cases h with
  | word => exact absurd hk (wordKind_ne (by simp) (by simp))
  | string hquote hb => exact ⟨_, _, rfl, hquote, rfl, hb⟩
  | _ => cases hk

theorem of_comment (h : l.Stands rest) (hk : l.kind = .comment) :
    (∃ t, l = .plain .comment ('/' :: '/' :: t)) ∨
      (l = .plain .comment l.text ∧ IsBlockComment l.text) ∨
      ∃ r, l = Lexis.openComment ('/' :: '*' :: r) ∧
        ∀ t, t <+: '/' :: '*' :: r → ¬ IsBlockComment t := by
  cases h with
  | word => exact absurd hk (wordKind_ne (by simp) (by simp))
  | lineComment => exact .inl ⟨_, rfl⟩
  | blockComment hblock => exact .inr (.inl ⟨rfl, hblock⟩)
  | openComment hopen => exact .inr (.inr ⟨_, rfl, hopen⟩)
  | _ => cases hk

theorem of_operator {o : Operator} (h : l.Stands rest) (hk : l.kind = .operator o) :
    l = .plain (.operator o) o.spelling ∧
      (∀ o' : Operator, o'.spelling <+: o.spelling ++ rest →
        o'.spelling.length ≤ o.spelling.length) ∧ NoComment (o.spelling ++ rest) := by
  cases h with
  | word => exact absurd hk (wordKind_ne (by simp) (by simp))
  | operator hlongest hno => cases hk; exact ⟨rfl, hlongest, hno⟩
  | _ => cases hk

theorem of_punctuation {p : Punctuation} (h : l.Stands rest) (hk : l.kind = .punctuation p) :
    l = .plain (.punctuation p) [p.char] := by
  cases h with
  | word => exact absurd hk (wordKind_ne (by simp) (by simp))
  | punctuation => cases hk; rfl
  | _ => cases hk

end Lexeme.Stands

end Lexis
