-- The laws of the kinds: what the kind of a token says about its lexeme and
-- about the text that follows. No lexeme could have been longer.
import Lexis.Proofs.PieceGrammar

namespace Lexis

/-! ## What a kind promises -/

/-- What the kind of a token says about its lexeme, given the text after it. -/
structure MaximalMunch (t : Token) (rest : Text) : Prop where
  word : t.kind = .identifier ∨ (∃ k, t.kind = .keyword k) →
    (∃ c ∈ t.lexeme.head?, isWordStart c) ∧ (∀ c ∈ t.lexeme, isWordPart c) ∧
      Stops isWordPart rest ∧ ∀ k, t.kind = .keyword k ↔ t.lexeme = k.spelling
  integer : t.kind = .integerLiteral → t.lexeme ≠ [] ∧ (∀ c ∈ t.lexeme, c.isDigit) ∧
    Stops Char.isDigit rest ∧ ∀ more, rest = '.' :: more → Stops Char.isDigit more
  float : t.kind = .floatLiteral → ∃ whole fraction, t.lexeme = whole ++ '.' :: fraction ∧
    whole ≠ [] ∧ fraction ≠ [] ∧ (∀ c ∈ whole, c.isDigit) ∧ (∀ c ∈ fraction, c.isDigit) ∧
      Stops Char.isDigit rest
  operator : ∀ o, t.kind = .operator o → t.lexeme = o.spelling ∧
    (∀ o' : Operator, t.lexeme.length < o'.spelling.length →
      ¬ o'.spelling <+: t.lexeme ++ rest) ∧ NoComment (t.lexeme ++ rest)
  punctuation : ∀ p, t.kind = .punctuation p → t.lexeme = [p.char]
  string : t.kind = .stringLiteral → ∃ quote ∈ t.lexeme.head?, IsQuote quote
  comment : t.kind = .comment → ['/', '/'] <+: t.lexeme ∨ ['/', '*'] <+: t.lexeme

/-! ## Words -/

theorem wordKind_eq_keyword_iff {w : Text} {k : Keyword} :
    wordKind w = .keyword k ↔ w = k.spelling := by
  unfold wordKind
  constructor
  · intro h
    split at h
    · rename_i k' hk'
      cases h
      exact (Keyword.spelling_of_ofWord? hk').symm
    · cases h
  · rintro rfl
    rw [Keyword.ofWord?_spelling]

/-! ## Every lexeme is as long as it can be -/

theorem Lexeme.Stands.maximalMunch {l : Lexeme} {rest : Text} (h : l.Stands rest) (p : Position) :
    MaximalMunch (l.placed p) rest where
  word hk := by
    obtain ⟨c, w, rfl, hc, hw, hstop⟩ := h.of_word hk
    refine ⟨⟨c, rfl, hc⟩, ?_, hstop, fun k => wordKind_eq_keyword_iff⟩
    intro x hx
    rcases List.mem_cons.mp hx with rfl | hx
    · exact isWordPart_of_isWordStart hc
    · exact hw x hx
  integer hk := by
    obtain ⟨digits, rfl, hne, hdigits, hstop, hpoint⟩ := h.of_integer hk
    exact ⟨hne, hdigits, hstop, hpoint⟩
  float hk := by
    obtain ⟨whole, fraction, rfl, hwhole, hfraction, hdigits, hdigits', hstop⟩ := h.of_float hk
    exact ⟨whole, fraction, rfl, hwhole, hfraction, hdigits, hdigits', hstop⟩
  operator o hk := by
    obtain ⟨rfl, hlongest, hno⟩ := h.of_operator hk
    refine ⟨rfl, ?_, hno⟩
    intro o' hlonger ho'
    have := hlongest o' ho'
    exact absurd hlonger (Nat.not_lt.mpr this)
  punctuation mark hk := by
    rw [h.of_punctuation hk]
    rfl
  string hk := by
    obtain ⟨quote, b, rfl, hquote, -⟩ := h.of_string hk
    exact ⟨quote, rfl, hquote⟩
  comment hk := by
    rcases h.of_comment hk with ⟨t, rfl⟩ | ⟨-, u, hu, -⟩ | ⟨r, rfl, -⟩
    · exact .inl ⟨t, rfl⟩
    · refine .inr ?_
      rw [Lexeme.placed, hu]
      exact ⟨u, rfl⟩
    · exact .inr ⟨r, rfl⟩

/-- Each token of a scan but the last is what its kind promises, in front of the text that
follows it in the source. -/
theorem every_token_is_a_maximal_munch {source : Text} {t : Token}
    (ht : t ∈ (tokenize source).tokens) (hk : t.kind ≠ .endOfFile) :
    ∃ rest, Follows source t rest ∧ MaximalMunch t rest := by
  obtain ⟨before, l, rest, rfl, hl, rfl, -⟩ := lexeme_of_token ht hk
  exact ⟨rest, follows_placed before l rest, hl.maximalMunch _⟩

theorem less_equal_is_a_maximal_munch :
    let t : Token := ⟨.operator .lessEqual, ['<', '='], ⟨1, 2, 1⟩, ⟨1, 4, 3⟩, none⟩
    t ∈ (tokenize "x<=y".toList).tokens ∧ t.kind ≠ .endOfFile ∧
      ∃ rest, Follows "x<=y".toList t rest ∧ MaximalMunch t rest := by
  intro t
  have ht : t ∈ (tokenize "x<=y".toList).tokens := by decide +kernel
  have hk : t.kind ≠ .endOfFile := by decide
  exact ⟨ht, hk, every_token_is_a_maximal_munch ht hk⟩

/-- A comment need not begin with two slashes: a block comment does not. -/
theorem a_block_comment_has_no_two_slashes :
    ∃ t ∈ (tokenize "/**/".toList).tokens, t.kind = .comment ∧ ¬ ['/', '/'] <+: t.lexeme := by
  decide +kernel

end Lexis
