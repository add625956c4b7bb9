-- The law of the blanks: a comment is worth the blanks it covers. Where comments are blanked out,
-- the other tokens and the errors outside of comments stay what and where they are.
import Lexis.Proofs.LineEnds
import Lexis.Proofs.Tiling

namespace Lexis

/-! ## Comments blanked out -/

/-- The offset lies in a comment. -/
def inComment (tokens : List Token) (k : Nat) : Bool :=
  tokens.any fun t => t.isTrivia && decide (t.start.offset ≤ k ∧ k < t.stop.offset)

/-- What a character of a comment is blanked to. Lines stay lines. -/
def blankFor (c : Char) : Char := if c = '\n' then '\n' else ' '

/-- A text that starts at an offset, with each character that lies in a comment blanked. -/
def blankOut (tokens : List Token) (offset : Nat) : Text → Text
  | [] => []
  | c :: t => (if inComment tokens offset then blankFor c else c) ::
      blankOut tokens (offset + c.utf8Size) t

/-- A source with its comments blanked out. -/
def withoutComments (source : Text) : Text := blankOut (tokenize source).tokens 0 source

section

variable {α : Type} (view : Position → α)

/-- A token, with its places as a view shows them. -/
def Token.seenBy (t : Token) : TokenKind × Text × Option Literal × α × α :=
  (t.kind, t.lexeme, t.value, view t.start, view t.stop)

def LexicalError.seenBy (e : LexicalError) : FaultKind × Text × α :=
  (e.kind, e.text, view e.position)

end

/-- The line and the column. -/
def Position.place (p : Position) : Nat × Nat := (p.line, p.column)

/-- The second scan is the first without its comments, at the same lines and columns. It is at the
same offsets too if no comment holds a character of more than one byte. -/
structure SameButComments (s s' : ScanResult) : Prop where
  no_comment : ∀ t ∈ s'.tokens, t.kind ≠ .comment
  no_open_comment : ∀ e ∈ s'.errors, e.kind ≠ .unterminatedComment
  tokens : s'.tokens.map (Token.seenBy Position.place) =
    s.significant.map (Token.seenBy Position.place)
  errors : s'.errors.map (LexicalError.seenBy Position.place) =
    (s.errors.filter (·.kind ≠ .unterminatedComment)).map (LexicalError.seenBy Position.place)
  offsets : (∀ t ∈ s.tokens, t.kind = .comment → ∀ c ∈ t.lexeme, c.toNat < 128) →
    s'.tokens = s.significant ∧ s'.errors = s.errors.filter (·.kind ≠ .unterminatedComment)

/-! ## A text that fades -/

/-- The second text is the first one, up to where the first has a slash and the second a blank. -/
inductive FadesTo : Text → Text → Prop
  | nil : FadesTo [] []
  | same {c : Char} {t t' : Text} : FadesTo t t' → FadesTo (c :: t) (c :: t')
  | slash {t t' : Text} : FadesTo ('/' :: t) (' ' :: t')

namespace FadesTo

variable {t t' : Text}

theorem append (h : FadesTo t t') (s : Text) : FadesTo (s ++ t) (s ++ t') := by
  induction s with
  | nil => exact h
  | cons c s ih => exact .same ih

theorem stops {p : Char → Bool} (h : FadesTo t t') (hstop : Stops p t) (hp : p ' ' = false) :
    Stops p t' := by
  cases h with
  | nil => exact hstop
  | same _ => exact stops_cons_iff.mpr (stops_cons_iff.mp hstop)
  | slash => exact stops_cons_iff.mpr hp

/-- Where a line ends nothing fades. -/
theorem head_eq_of_line_end (h : FadesTo t t') (hend : Stops (· ≠ '\n') t) :
    t'.head? = t.head? := by
  cases h with
  | nil => rfl
  | same _ => rfl
  | slash => exact absurd (stops_cons_iff.mp hend) (by decide)

theorem head_iff (h : FadesTo t t') {c : Char} (hslash : c ≠ '/') (hblank : c ≠ ' ') :
    t'.head? = some c ↔ t.head? = some c := by
  cases h with
  | nil => rfl
  | same _ => rfl
  | slash => simp [hslash.symm, hblank.symm]

/-- A text of two characters at most that is no blank does not look into what faded, if it begins
in front of it. -/
theorem prefix_of_prefix (h : FadesTo t t') {front short : Text} (hfront : front ≠ [])
    (hlen : short.length ≤ 2) (hblank : ' ' ∉ short) (hp : short <+: front ++ t') :
    short <+: front ++ t := by
  by_cases hle : short.length ≤ front.length
  · exact ((List.isPrefix_append_of_length hle).mp hp).trans (List.prefix_append _ _)
  · obtain ⟨a, front, rfl⟩ := List.exists_cons_of_ne_nil hfront
    have hnil : front = [] := by
      rw [List.length_cons] at hle
      exact List.length_eq_zero_iff.mp (by omega)
    subst hnil
    obtain ⟨b, c, rfl⟩ : ∃ b c, short = [b, c] :=
      List.length_eq_two.mp (by rw [List.length_singleton] at hle; omega)
    rw [List.singleton_append, List.cons_prefix_cons] at hp ⊢
    refine ⟨hp.1, ?_⟩
    cases h with
    | nil => exact hp.2
    | same _ =>
      have hc := (List.cons_prefix_cons.mp hp.2).1
      exact List.cons_prefix_cons.mpr ⟨hc, List.nil_prefix⟩
    | slash =>
      have hc := (List.cons_prefix_cons.mp hp.2).1
      exact absurd (by simp [hc]) hblank

end FadesTo

/-- To what stands in front of it, a text that fades looks as before. -/
theorem FadesTo.looksLike {t t' : Text} (h : FadesTo t t') : LooksLike t t' where
  word hstop := h.stops hstop (by decide)
  digit hstop := h.stops hstop (by decide)
  point := h.head_iff (by decide) (by decide)
  after_point := by
    rintro more' rfl
    cases h with
    | same hmore => exact ⟨_, rfl, fun hstop => hmore.stops hstop (by decide)⟩
  reach _ _ hfront hlen hno hp :=
    h.prefix_of_prefix hfront hlen (fun hmem => List.any_eq_false.mp hno _ hmem rfl) hp

/-- What is no comment stands in front of a text that fades as before. -/
theorem Piece.Stands.of_fades {x : Piece} {rest rest' : Text} (h : x.Stands rest)
    (hk : ∀ l, x = .lexeme l → l.kind ≠ .comment) (hfade : FadesTo rest rest') :
    x.Stands rest' :=
  h.of_looksLike hk hfade.looksLike fun _ _ _ hend => hfade.head_eq_of_line_end hend

/-! ## The pieces of a source without comments -/

/-- The blanks that a comment leaves, and any other piece as it is. -/
def Piece.blanked : Piece → List Piece
  | lexeme l => if l.kind = .comment then (l.text.map blankFor).map blank else [lexeme l]
  | x => [x]

theorem Piece.blanked_cases (x : Piece) :
    (∃ l, x = .lexeme l ∧ l.kind = .comment ∧ x.blanked = (l.text.map blankFor).map .blank) ∨
      ((∀ l, x = .lexeme l → l.kind ≠ .comment) ∧ x.blanked = [x]) := by
  cases x with
  | blank c => exact .inr ⟨fun _ h => (by cases h), rfl⟩
  | stray c => exact .inr ⟨fun _ h => (by cases h), rfl⟩
  | lexeme l =>
    by_cases hk : l.kind = .comment
    · exact .inl ⟨l, rfl, hk, if_pos hk⟩
    · refine .inr ⟨?_, if_neg hk⟩
      rintro _ ⟨⟩
      exact hk

@[simp] theorem textOf_blanks (t : Text) : textOf (t.map .blank) = t := by
  induction t with
  | nil => rfl
  | cons c t ih => exact congrArg (c :: ·) ih

theorem isBlank_blankFor (c : Char) : isBlank (blankFor c) = true := by
  unfold blankFor
  split <;> rfl

theorem Lexeme.Stands.comment_slash {l : Lexeme} {rest : Text} (h : l.Stands rest)
    (hk : l.kind = .comment) : ∃ t, l.text = '/' :: t := by
  rcases h.of_comment hk with ⟨t, rfl⟩ | ⟨-, u, hu, -⟩ | ⟨r, rfl, -⟩
  · exact ⟨_, rfl⟩
  · exact ⟨_, hu⟩
  · exact ⟨_, rfl⟩

theorem WellLaid.fadesTo_blanked {ps : List Piece} (h : WellLaid ps) :
    FadesTo (textOf ps) (textOf (ps.flatMap Piece.blanked)) := by
  induction h with
  | nil => exact .nil
  | @cons x ps hx _ ih =>
    rw [List.flatMap_cons, textOf_append, textOf_cons]
    rcases x.blanked_cases with ⟨l, rfl, hk, hblanked⟩ | ⟨-, hsame⟩
    · cases hx with
      | lexeme hl =>
        obtain ⟨t, ht⟩ := hl.comment_slash hk
        rw [hblanked, textOf_blanks, Piece.text, ht]
        exact .slash
    · rw [hsame, textOf_cons, textOf_nil, List.append_nil]
      exact ih.append x.text

theorem WellLaid.blanks {ps : List Piece} (h : WellLaid ps) (t : Text) :
    WellLaid ((t.map blankFor).map .blank ++ ps) := by
  induction t with
  | nil => exact h
  | cons c t ih => exact .cons (.blank (isBlank_blankFor c)) ih

theorem WellLaid.blanked {ps : List Piece} (h : WellLaid ps) :
    WellLaid (ps.flatMap Piece.blanked) := by
  induction h with
  | nil => exact .nil
  | @cons x ps hx hps ih =>
    rw [List.flatMap_cons]
    rcases x.blanked_cases with ⟨l, rfl, -, hblanked⟩ | ⟨hk, hsame⟩
    · rw [hblanked]
      exact ih.blanks l.text
    · rw [hsame]
      exact .cons (hx.of_fades hk hps.fadesTo_blanked) ih

/-! ## Blanking by offsets and by pieces -/

theorem blankOut_append (tokens : List Token) (offset : Nat) (s t : Text) :
    blankOut tokens offset (s ++ t) =
      blankOut tokens offset s ++ blankOut tokens (offset + s.byteSize) t := by
  induction s generalizing offset with
  | nil => rfl
  | cons c s ih =>
    simp only [List.cons_append, blankOut, ih, Text.byteSize_cons, Nat.add_assoc]

/-- Only the comments from the start of the text on matter. -/
theorem blankOut_congr {tokens tokens' : List Token} {offset : Nat}
    (h : ∀ k, offset ≤ k → inComment tokens k = inComment tokens' k) (t : Text) :
    blankOut tokens offset t = blankOut tokens' offset t := by
  induction t generalizing offset with
  | nil => rfl
  | cons c t ih =>
    rw [blankOut, blankOut, h offset (Nat.le_refl _),
      ih fun k hk => h k (Nat.le_trans (Nat.le_add_right _ _) hk)]

/-- A text that lies in a comment as a whole, or outside of comments as a whole. -/
theorem blankOut_of_forall {tokens : List Token} {offset : Nat} {t : Text} {inside : Bool}
    (h : ∀ k, offset ≤ k → k < offset + t.byteSize → inComment tokens k = inside) :
    blankOut tokens offset t = if inside then t.map blankFor else t := by
  induction t generalizing offset with
  | nil => cases inside <;> rfl
  | cons c t ih =>
    have hpos := c.utf8Size_pos
    rw [Text.byteSize_cons] at h
    rw [blankOut, h offset (Nat.le_refl _) (by omega),
      ih fun k hle hlt => h k (by omega) (by omega)]
    cases inside <;> rfl

theorem inComment_append (ts ts' : List Token) (k : Nat) :
    inComment (ts ++ ts') k = (inComment ts k || inComment ts' k) := List.any_append

theorem inComment_eq_false {tokens : List Token} {k : Nat}
    (h : ∀ t ∈ tokens, k < t.start.offset ∨ t.stop.offset ≤ k) : inComment tokens k = false := by
  unfold inComment
  rw [List.any_eq_false]
  intro t ht hin
  obtain ⟨hle, hlt⟩ := of_decide_eq_true (Bool.and_eq_true_iff.mp hin).2
  have := h t ht
  omega

theorem inComment_piece_after {x : Piece} {p : Position} {k : Nat}
    (hk : p.offset + x.text.byteSize ≤ k) : inComment (x.tokens p) k = false := by
  apply inComment_eq_false
  intro t ht
  cases x with
  | blank => cases ht
  | stray => cases ht
  | lexeme l =>
    rw [List.mem_singleton.mp ht, Lexeme.placed, Position.offset_advancedOver]
    exact .inr hk

theorem inComment_comment {l : Lexeme} (hk : l.kind = .comment) {p : Position} {k : Nat}
    (hle : p.offset ≤ k) (hlt : k < p.offset + l.text.byteSize) :
    inComment (Piece.tokens p (.lexeme l)) k = true := by
  simp [inComment, Piece.tokens, Token.isTrivia, Lexeme.placed, Position.offset_advancedOver, hk,
    hle, hlt]

theorem inComment_not_comment {x : Piece} (hk : ∀ l, x = .lexeme l → l.kind ≠ .comment)
    (p : Position) (k : Nat) : inComment (x.tokens p) k = false := by
  cases x with
  | blank => rfl
  | stray => rfl
  | lexeme l => simp [inComment, Piece.tokens, Token.isTrivia, Lexeme.placed, hk l rfl]

/-- Each piece is blanked out as a whole or not at all. -/
theorem blankOut_tokensOf (p : Position) (ps : List Piece) :
    blankOut (tokensOf p ps) p.offset (textOf ps) = textOf (ps.flatMap Piece.blanked) := by
  induction ps generalizing p with
  | nil => rfl
  | cons x ps ih =>
    have hlater : ∀ k < p.offset + x.text.byteSize,
        inComment (tokensOf (p.advancedOver x.text) ps) k = false := by
      intro k hk
      apply inComment_eq_false
      intro t ht
      have := ((tokensOf_in_order ps (p.advancedOver x.text)).2 t ht).1
      rw [Position.offset_advancedOver] at this
      exact .inl (by omega)
    have hpiece : blankOut (x.tokens p ++ tokensOf (p.advancedOver x.text) ps) p.offset x.text =
        textOf x.blanked := by
      rcases x.blanked_cases with ⟨l, rfl, hk, hblanked⟩ | ⟨hk, hsame⟩
      · rw [hblanked, textOf_blanks, Piece.text]
        refine (blankOut_of_forall fun k hle hlt => ?_).trans (if_pos rfl)
        rw [inComment_append, inComment_comment hk hle hlt, Bool.true_or]
      · rw [hsame, textOf_cons, textOf_nil, List.append_nil]
        refine (blankOut_of_forall fun k hle hlt => ?_).trans (if_neg Bool.false_ne_true)
        rw [inComment_append, inComment_not_comment hk, hlater k hlt, Bool.false_or]
    rw [tokensOf, textOf_cons, blankOut_append, hpiece, List.flatMap_cons, textOf_append, ← ih,
      Position.offset_advancedOver]
    congr 1
    apply blankOut_congr
    intro k hk
    rw [inComment_append, inComment_piece_after hk, Bool.false_or]

theorem pieces_withoutComments (source : Text) :
    pieces (withoutComments source) = (pieces source).flatMap Piece.blanked := by
  apply pieces_iff.mpr
  refine ⟨?_, (wellLaid_pieces source).blanked⟩
  have hblank := blankOut_tokensOf .start (pieces source)
  rw [textOf_pieces] at hblank
  rw [← hblank, withoutComments, tokens_tokenize]
  apply blankOut_congr
  intro k _
  rw [inComment_append, show inComment [Token.endOfFile _] k = false from rfl, Bool.or_false]

/-! ## What a view shows -/

/-- The view of a position goes on alike over the pieces and over what is left of them. -/
structure Unmoved {α : Type} (view : Position → α) (ps : List Piece) : Prop where
  same : ∀ (c : Char) (p q : Position), view p = view q → view (p.advance c) = view (q.advance c)
  blanked : ∀ l, .lexeme l ∈ ps → l.kind = .comment → ∀ c ∈ l.text, ∀ p q : Position,
    view p = view q → view (p.advance c) = view (q.advance (blankFor c))

section

variable {α : Type} {view : Position → α}

theorem view_advancedOver {f : Char → Char} {t : Text} (hstep : ∀ c ∈ t, ∀ p q : Position,
    view p = view q → view (p.advance c) = view (q.advance (f c))) {p q : Position}
    (h : view p = view q) : view (p.advancedOver t) = view (q.advancedOver (t.map f)) := by
  induction t generalizing p q with
  | nil => exact h
  | cons c t ih =>
    exact ih (fun d hd => hstep d (List.mem_cons_of_mem _ hd)) (hstep c List.mem_cons_self p q h)

theorem Unmoved.text {ps : List Piece} (h : Unmoved view ps) (t : Text) {p q : Position}
    (hpq : view p = view q) : view (p.advancedOver t) = view (q.advancedOver t) := by
  have ht := view_advancedOver (f := id) (t := t) (fun c _ => h.same c) hpq
  rwa [List.map_id] at ht

theorem Unmoved.of_cons {x : Piece} {ps : List Piece} (h : Unmoved view (x :: ps)) :
    Unmoved view ps :=
  ⟨h.same, fun l hl => h.blanked l (List.mem_cons_of_mem _ hl)⟩

theorem Unmoved.piece {x : Piece} {ps : List Piece} (h : Unmoved view (x :: ps)) {p q : Position}
    (hpq : view p = view q) :
    view (p.advancedOver x.text) = view (q.advancedOver (textOf x.blanked)) := by
  rcases x.blanked_cases with ⟨l, rfl, hk, hblanked⟩ | ⟨-, hsame⟩
  · rw [hblanked, textOf_blanks]
    exact view_advancedOver (h.blanked l List.mem_cons_self hk) hpq
  · rw [hsame, textOf_cons, textOf_nil, List.append_nil]
    exact h.text x.text hpq

/-- The end of the text is seen at one place. -/
theorem Unmoved.end {ps : List Piece} (h : Unmoved view ps) {p q : Position}
    (hpq : view p = view q) : view (p.advancedOver (textOf ps)) =
      view (q.advancedOver (textOf (ps.flatMap Piece.blanked))) := by
  induction ps generalizing p q with
  | nil => exact hpq
  | cons x ps ih =>
    rw [textOf_cons, List.flatMap_cons, textOf_append, Position.advancedOver_append,
      Position.advancedOver_append]
    exact ih h.of_cons (h.piece hpq)

theorem tokensOf_blanks (q : Position) (t : Text) : tokensOf q (t.map .blank) = [] := by
  induction t generalizing q with
  | nil => rfl
  | cons c t ih => exact ih _

theorem errorsOf_blanks (q : Position) (t : Text) : errorsOf q (t.map .blank) = [] := by
  induction t generalizing q with
  | nil => rfl
  | cons c t ih => exact ih _

theorem Unmoved.tokens_piece {x : Piece} {ps : List Piece} (h : Unmoved view (x :: ps))
    {p q : Position} (hpq : view p = view q) :
    (tokensOf q x.blanked).map (Token.seenBy view) =
      ((x.tokens p).filter (!·.isTrivia)).map (Token.seenBy view) := by
  rcases x.blanked_cases with ⟨l, rfl, hk, hblanked⟩ | ⟨hk, hsame⟩
  · rw [hblanked, tokensOf_blanks]
    simp [Piece.tokens, Token.isTrivia, Lexeme.placed, hk]
  · rw [hsame]
    cases x with
    | blank => rfl
    | stray => rfl
    | lexeme l =>
      have hstop := h.text l.text hpq
      simp [tokensOf, Piece.tokens, Token.isTrivia, Lexeme.placed, Token.seenBy, hk l rfl, hpq,
        hstop]

theorem Unmoved.tokens {ps : List Piece} (h : Unmoved view ps) {p q : Position}
    (hpq : view p = view q) :
    (tokensOf q (ps.flatMap Piece.blanked)).map (Token.seenBy view) =
      ((tokensOf p ps).filter (!·.isTrivia)).map (Token.seenBy view) := by
  induction ps generalizing p q with
  | nil => rfl
  | cons x ps ih =>
    rw [List.flatMap_cons, tokensOf_append, tokensOf, List.filter_append, List.map_append,
      List.map_append, h.tokens_piece hpq, ih h.of_cons (h.piece hpq)]

/-- A token has the error of an unclosed comment only if it is a comment, and then no other. -/
theorem Token.Faulty.open_comment_iff {t : Token} {rest : Text} {e : LexicalError}
    (h : t.Faulty rest e) : e.kind = .unterminatedComment ↔ t.kind = .comment := by
  cases h with
  | unclosedString hs => simp [hs.is_string]
  | badEscape hs => simp [hs.is_string]
  | noValue hk => rcases hk with hk | hk <;> simp [hk]
  | point hk => simp [hk]
  | unclosedComment hk => simp [hk]

theorem Lexeme.Stands.error_kind_iff {l : Lexeme} {rest : Text} {p : Position} {e : LexicalError}
    (h : l.Stands rest) (he : e ∈ Piece.errors p (.lexeme l)) :
    e.kind = .unterminatedComment ↔ l.kind = .comment := by
  obtain ⟨f, hf, rfl⟩ := List.mem_map.mp he
  exact (h.faulty hf p).open_comment_iff

/-- The errors of a piece are no errors of unclosed comments unless it is a comment. -/
theorem Piece.Stands.filter_errors {x : Piece} {rest : Text} (h : x.Stands rest)
    (hk : ∀ l, x = .lexeme l → l.kind ≠ .comment) (p : Position) :
    (x.errors p).filter (·.kind ≠ .unterminatedComment) = x.errors p := by
  rw [List.filter_eq_self]
  intro e he
  cases h with
  | blank => cases he
  | stray => simp [List.mem_singleton.mp he, strayError]
  | lexeme hl => exact decide_eq_true fun hopen => hk _ rfl ((hl.error_kind_iff he).mp hopen)

theorem Unmoved.errors_piece {x : Piece} {ps : List Piece} (h : Unmoved view (x :: ps))
    {rest : Text} (hx : x.Stands rest) {p q : Position} (hpq : view p = view q) :
    (errorsOf q x.blanked).map (LexicalError.seenBy view) =
      ((x.errors p).filter (·.kind ≠ .unterminatedComment)).map (LexicalError.seenBy view) := by
  rcases x.blanked_cases with ⟨l, rfl, hk, hblanked⟩ | ⟨hk, hsame⟩
  · rw [hblanked, errorsOf_blanks, List.filter_eq_nil_iff.mpr]
    intro e he hopen
    cases hx with
    | lexeme hl => exact of_decide_eq_true hopen ((hl.error_kind_iff he).mpr hk)
  · rw [hsame, hx.filter_errors hk, errorsOf, errorsOf, List.append_nil]
    cases x with
    | blank => rfl
    | stray c => simp [Piece.errors, strayError, LexicalError.seenBy, hpq]
    | lexeme l =>
      simp only [Piece.errors, List.map_map]
      apply List.map_congr_left
      intro f _
      simp only [Function.comp_apply, LexicalError.seenBy, Fault.placed, h.text f.before hpq]

theorem Unmoved.errors {ps : List Piece} (h : Unmoved view ps) (hlaid : WellLaid ps)
    {p q : Position} (hpq : view p = view q) :
    (errorsOf q (ps.flatMap Piece.blanked)).map (LexicalError.seenBy view) =
      ((errorsOf p ps).filter (·.kind ≠ .unterminatedComment)).map
        (LexicalError.seenBy view) := by
  induction hlaid generalizing p q with
  | nil => rfl
  | @cons x ps hx _ ih =>
    rw [List.flatMap_cons, errorsOf_append, errorsOf, List.filter_append, List.map_append,
      List.map_append, h.errors_piece hx hpq, ih h.of_cons (h.piece hpq)]

/-- What a view shows of the scan without comments it shows of the scan. -/
theorem Unmoved.scan {source : Text} (h : Unmoved view (pieces source)) :
    (tokenize (withoutComments source)).tokens.map (Token.seenBy view) =
        (tokenize source).significant.map (Token.seenBy view) ∧
      (tokenize (withoutComments source)).errors.map (LexicalError.seenBy view) =
        ((tokenize source).errors.filter (·.kind ≠ .unterminatedComment)).map
          (LexicalError.seenBy view) := by
  have hlaid := wellLaid_pieces source
  have hend := h.end (p := .start) (q := .start) rfl
  rw [← pieces_withoutComments, textOf_pieces, textOf_pieces] at hend
  constructor
  · unfold ScanResult.significant
    rw [tokens_tokenize, tokens_tokenize, List.filter_append, List.map_append, List.map_append,
      pieces_withoutComments, h.tokens (p := .start) rfl]
    simp [Token.endOfFile, Token.isTrivia, Token.seenBy, hend]
  · rw [errors_tokenize, errors_tokenize, pieces_withoutComments]
    exact h.errors hlaid rfl

end

/-! ## Lines, columns and offsets -/

theorem Position.place_advance {c d : Char} (h : c = '\n' ↔ d = '\n') {p q : Position}
    (hpq : p.place = q.place) : (p.advance c).place = (q.advance d).place := by
  simp only [place, Prod.mk.injEq] at hpq
  unfold advance
  by_cases hc : c = '\n'
  · rw [if_pos hc, if_pos (h.mp hc)]
    simp only [place, hpq.1]
  · rw [if_neg hc, if_neg (mt h.mpr hc)]
    simp only [place, hpq.1, hpq.2]

theorem blankFor_eq_line_feed_iff (c : Char) : c = '\n' ↔ blankFor c = '\n' := by
  unfold blankFor
  split <;> simp_all

theorem unmoved_place (ps : List Piece) : Unmoved Position.place ps where
  same _ _ _ hpq := Position.place_advance Iff.rfl hpq
  blanked _ _ _ c _ _ _ hpq := Position.place_advance (blankFor_eq_line_feed_iff c) hpq

theorem advance_blankFor {c : Char} (h : c.toNat < 128) (p : Position) :
    p.advance (blankFor c) = p.advance c := by
  have hsize : c.utf8Size = 1 :=
    Char.utf8Size_eq_one_iff.mpr (UInt32.le_iff_toNat_le.mpr (Nat.le_of_lt_succ h))
  unfold blankFor
  split
  · rename_i hc
    rw [hc]
  · rename_i hc
    simp only [Position.advance, hc, if_false, hsize]
    rfl

theorem unmoved_id {ps : List Piece}
    (h : ∀ l, .lexeme l ∈ ps → l.kind = .comment → ∀ c ∈ l.text, c.toNat < 128) :
    Unmoved (fun p : Position => p) ps where
  same c _ _ hpq := congrArg (Position.advance · c) hpq
  blanked l hl hk c hc p q hpq := by
    rw [advance_blankFor (h l hl hk c hc), show p = q from hpq]

theorem Token.seenBy_id_injective : Function.Injective (Token.seenBy fun p : Position => p) := by
  rintro ⟨kind, lexeme, start, stop, value⟩ ⟨kind', lexeme', start', stop', value'⟩ h
  simp only [seenBy, Prod.mk.injEq] at h
  obtain ⟨rfl, rfl, rfl, rfl, rfl⟩ := h
  rfl

theorem LexicalError.seenBy_id_injective :
    Function.Injective (LexicalError.seenBy fun p : Position => p) := by
  rintro ⟨kind, position, text⟩ ⟨kind', position', text'⟩ h
  simp only [seenBy, Prod.mk.injEq] at h
  obtain ⟨rfl, rfl, rfl⟩ := h
  rfl

/-! ## Comments are blank space -/

/-- Whatever the source is, blanking its comments out takes the comments and their errors away, and
nothing else. -/
theorem comments_are_blank_space (source : Text) :
    SameButComments (tokenize source) (tokenize (withoutComments source)) := by
  obtain ⟨htokens, herrors⟩ := (unmoved_place (pieces source)).scan
  refine
    { no_comment := ?_
      no_open_comment := ?_
      tokens := htokens
      errors := herrors
      offsets := ?_ }
  · intro t ht hk
    have hmem := List.mem_map_of_mem (f := Token.seenBy Position.place) ht
    rw [htokens] at hmem
    obtain ⟨t', ht', hsame⟩ := List.mem_map.mp hmem
    have hk' : t'.kind = .comment := (congrArg Prod.fst hsame).trans hk
    have htrivia := (List.mem_filter.mp ht').2
    simp [Token.isTrivia, hk'] at htrivia
  · intro e he hk
    have hmem := List.mem_map_of_mem (f := LexicalError.seenBy Position.place) he
    rw [herrors] at hmem
    obtain ⟨e', he', hsame⟩ := List.mem_map.mp hmem
    exact of_decide_eq_true (List.mem_filter.mp he').2 ((congrArg Prod.fst hsame).trans hk)
  · intro hascii
    have hpieces : ∀ l, .lexeme l ∈ pieces source → l.kind = .comment →
        ∀ c ∈ l.text, c.toNat < 128 := by
      intro l hl hk c hc
      obtain ⟨front, back, hps⟩ := List.append_of_mem hl
      exact hascii _ (mem_tokens_scanFrom.mpr (.inl ⟨front, l, back, hps, rfl⟩)) hk c hc
    obtain ⟨htokens', herrors'⟩ := (unmoved_id hpieces).scan
    exact ⟨List.map_injective_iff.mpr Token.seenBy_id_injective htokens',
      List.map_injective_iff.mpr LexicalError.seenBy_id_injective herrors'⟩

example : withoutComments "a/*é\n*/b'//'//".toList = "a   \n  b'//'  ".toList := by
  decide +kernel

end Lexis
