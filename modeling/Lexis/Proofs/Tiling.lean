-- The laws of the tiling: the gaps and the lexemes of a scan in turn are the
-- source, and what a gap holds besides blanks is reported once.
import Lexis.Proofs.FaultPlaces

namespace Lexis

/-! ## The gaps of a scan -/

/-- The gap in front of each token: the offset where the token before it stops, and the offset
where it starts. The first gap starts at the given offset. -/
def gapsFrom (start : Nat) : List Token → List (Nat × Nat)
  | [] => []
  | t :: rest => (start, t.start.offset) :: gapsFrom t.stop.offset rest

/-- The offset lies in a gap. -/
def InGap (tokens : List Token) (k : Nat) : Prop := ∃ g ∈ gapsFrom 0 tokens, g.1 ≤ k ∧ k < g.2

/-- The errors of an invalid character at an offset. -/
def straysAt (k : Nat) (errors : List LexicalError) : List LexicalError :=
  errors.filter fun e => e.kind = .invalidCharacter ∧ e.position.offset = k

/-- What it is for a scan to tile a source, given its tokens before the last one and the last. -/
structure Tiling (source : Text) (s : ScanResult) (body : List Token) (last : Token) : Prop where
  tokens_eq : s.tokens = body ++ [last]
  last_ends : last.kind = .endOfFile ∧ last.lexeme = [] ∧ last.start = last.stop ∧
    last.start.offset = source.byteSize
  body_lexeme : ∀ t ∈ body, t.kind ≠ .endOfFile ∧ t.start.offset < t.stop.offset ∧
    source.slice? t.start.offset t.stop.offset = some t.lexeme
  in_order : s.tokens.Pairwise fun a b => a.stop.offset ≤ b.start.offset
  gap_char : ∀ (before : Text) (c : Char) (after : Text), source = before ++ c :: after →
    InGap s.tokens before.byteSize →
    if isBlank c then straysAt before.byteSize s.errors = []
    else ∃ e, straysAt before.byteSize s.errors = [e] ∧ e.text = [c]
  stray_in_gap : ∀ e ∈ s.errors, e.kind = .invalidCharacter →
    ∃ (before : Text) (c : Char) (after : Text), source = before ++ c :: after ∧
      e.position.offset = before.byteSize ∧ e.text = [c] ∧ isBlank c = false ∧
      InGap s.tokens before.byteSize
  rebuilt : ∃ texts : List Text,
    texts.map some = (gapsFrom 0 s.tokens).map (fun g => source.slice? g.1 g.2) ∧
      (List.zipWith (fun gap t => gap ++ t.lexeme) texts s.tokens).flatten = source

/-! ## Tokens in order -/

theorem tokensOf_in_order (ps : List Piece) (p : Position) :
    (tokensOf p ps).Pairwise (fun a b => a.stop.offset ≤ b.start.offset) ∧
      ∀ t ∈ tokensOf p ps, p.offset ≤ t.start.offset ∧
        t.stop.offset ≤ p.offset + (textOf ps).byteSize := by
  induction ps generalizing p with
  | nil => exact ⟨.nil, fun t ht => by cases ht⟩
  | cons x ps ih =>
    obtain ⟨hsorted, hbounds⟩ := ih (p.advancedOver x.text)
    simp only [Position.offset_advancedOver] at hbounds
    have hfirst : ∀ t ∈ x.tokens p, t.start = p ∧ t.stop = p.advancedOver x.text := by
      intro t ht
      cases x with
      | blank => cases ht
      | stray => cases ht
      | lexeme l =>
        rw [List.mem_singleton.mp ht]
        exact ⟨rfl, rfl⟩
    have hone : (x.tokens p).Pairwise fun a b => a.stop.offset ≤ b.start.offset := by
      cases x with
      | blank => exact .nil
      | stray => exact .nil
      | lexeme l => exact List.pairwise_singleton _ _
    simp only [tokensOf, textOf_cons, Text.byteSize_append, List.mem_append]
    refine ⟨List.pairwise_append.mpr ⟨hone, hsorted, ?_⟩, ?_⟩
    · intro a ha b hb
      rw [(hfirst a ha).2, Position.offset_advancedOver]
      exact (hbounds b hb).1
    · rintro t (ht | ht)
      · obtain ⟨hstart, hstop⟩ := hfirst t ht
        rw [hstart, hstop, Position.offset_advancedOver]
        omega
      · have := hbounds t ht
        omega

theorem tokens_tokenize_in_order (source : Text) :
    (tokenize source).tokens.Pairwise fun a b => a.stop.offset ≤ b.start.offset := by
  obtain ⟨hsorted, hbounds⟩ := tokensOf_in_order (pieces source) .start
  rw [tokens_tokenize]
  refine List.pairwise_append.mpr ⟨hsorted, List.pairwise_singleton _ _, ?_⟩
  intro a ha b hb
  have := (hbounds a ha).2
  rw [textOf_pieces] at this
  rw [List.mem_singleton.mp hb, Token.endOfFile, Position.offset_advancedOver]
  exact this

/-! ## What a gap holds -/

/-- The character of a piece that is no lexeme. -/
def Piece.gapChar? : Piece → Option Char
  | blank c => some c
  | stray c => some c
  | lexeme _ => none

theorem Piece.text_of_gapChar? {x : Piece} {c : Char} (h : x.gapChar? = some c) : x.text = [c] := by
  cases x <;> cases h <;> rfl

theorem Piece.eq_lexeme_of_gapChar? {x : Piece} (h : x.gapChar? = none) : ∃ l, x = .lexeme l := by
  cases x with
  | blank => cases h
  | stray => cases h
  | lexeme l => exact ⟨l, rfl⟩

theorem tokens_layOut_gap {x : Piece} {c : Char} (h : x.gapChar? = some c) (p : Position)
    (ps : List Piece) :
    (layOut p (x :: ps)).tokens = (layOut (p.advancedOver x.text) ps).tokens := by
  cases x <;> cases h <;> rfl

theorem tokens_layOut_lexeme (l : Lexeme) (p : Position) (ps : List Piece) :
    (layOut p (.lexeme l :: ps)).tokens =
      l.placed p :: (layOut (p.advancedOver l.text) ps).tokens := rfl

theorem in_gapsFrom_cons {start k : Nat} {t : Token} {ts : List Token} :
    (∃ g ∈ gapsFrom start (t :: ts), g.1 ≤ k ∧ k < g.2) ↔ (start ≤ k ∧ k < t.start.offset) ∨
      ∃ g ∈ gapsFrom t.stop.offset ts, g.1 ≤ k ∧ k < g.2 := by
  simp only [gapsFrom, List.mem_cons, or_and_right, exists_or, exists_eq_left]

/-- The offset lies in a piece that is no lexeme, if the pieces start at a given offset. -/
def InGapPiece (start : Nat) (ps : List Piece) (k : Nat) : Prop :=
  ∃ front x c back, ps = front ++ x :: back ∧ x.gapChar? = some c ∧
    start + (textOf front).byteSize ≤ k ∧ k < start + (textOf front).byteSize + c.utf8Size

theorem inGapPiece_cons {start k : Nat} {x : Piece} {ps : List Piece} :
    InGapPiece start (x :: ps) k ↔
      (∃ c, x.gapChar? = some c ∧ start ≤ k ∧ k < start + c.utf8Size) ∨
        InGapPiece (start + x.text.byteSize) ps k := by
  unfold InGapPiece
  constructor
  · rintro ⟨front, y, c, back, hps, hy, hle, hlt⟩
    cases front with
    | nil =>
      obtain ⟨rfl, rfl⟩ := List.cons.inj hps
      exact .inl ⟨c, hy, hle, hlt⟩
    | cons z front =>
      obtain ⟨rfl, rfl⟩ := List.cons.inj hps
      rw [textOf_cons, Text.byteSize_append] at hle hlt
      exact .inr ⟨front, y, c, back, rfl, hy, by omega, by omega⟩
  · rintro (⟨c, hx, hle, hlt⟩ | ⟨front, y, c, back, rfl, hy, hle, hlt⟩)
    · exact ⟨[], x, c, ps, rfl, hx, hle, hlt⟩
    · refine ⟨x :: front, y, c, back, rfl, hy, ?_, ?_⟩
      · rw [textOf_cons, Text.byteSize_append]; omega
      · rw [textOf_cons, Text.byteSize_append]; omega

/-- The gaps between laid out pieces are where the pieces that are no lexemes are. The first
gap also holds what is in front of the pieces. -/
theorem in_gaps_layOut_iff (ps : List Piece) (p : Position) {start k : Nat}
    (hstart : start ≤ p.offset) :
    (∃ g ∈ gapsFrom start (layOut p ps).tokens, g.1 ≤ k ∧ k < g.2) ↔
      (start ≤ k ∧ k < p.offset) ∨ InGapPiece p.offset ps k := by
  induction ps generalizing p start with
  | nil => simp [layOut, gapsFrom, Token.endOfFile, InGapPiece]
  | cons x ps ih =>
    cases hx : x.gapChar? with
    | some c =>
      have hsize : x.text.byteSize = c.utf8Size := by
        rw [Piece.text_of_gapChar? hx, Text.byteSize_cons, Text.byteSize_nil, Nat.add_zero]
      have hgrow : (start ≤ k ∧ k < p.offset + c.utf8Size) ↔
          (start ≤ k ∧ k < p.offset) ∨ (p.offset ≤ k ∧ k < p.offset + c.utf8Size) := by
        omega
      rw [tokens_layOut_gap hx, ih _ (by rw [Position.offset_advancedOver]; omega),
        Position.offset_advancedOver, inGapPiece_cons, hsize, hgrow, or_assoc]
      simp [hx]
    | none =>
      obtain ⟨l, rfl⟩ := Piece.eq_lexeme_of_gapChar? hx
      have hstop : (l.placed p).stop.offset = (p.advancedOver l.text).offset := rfl
      have hempty : ∀ m, ¬ (m ≤ k ∧ k < m) := by omega
      rw [tokens_layOut_lexeme, in_gapsFrom_cons, hstop, ih _ (Nat.le_refl _),
        Position.offset_advancedOver, inGapPiece_cons]
      simp [hx, hempty, Piece.text, Lexeme.placed]

/-- A character is in a gap exactly when it is a piece that is no lexeme. -/
theorem inGap_iff {source before after : Text} {c : Char} (h : source = before ++ c :: after) :
    InGap (tokenize source).tokens before.byteSize ↔ ∃ front x back,
      pieces source = front ++ x :: back ∧ x.gapChar? = some c ∧ textOf front = before := by
  have hstart : Position.start.offset = 0 := rfl
  unfold InGap tokenize scanFrom
  rw [in_gaps_layOut_iff _ _ (Nat.zero_le _), hstart]
  constructor
  · rintro (⟨-, h0⟩ | ⟨front, x, d, back, hps, hx, hle, hlt⟩)
    · exact absurd h0 (Nat.not_lt_zero _)
    · have hcut := (cut_of_pieces hps).symm.trans h
      rw [Piece.text_of_gapChar? hx, List.singleton_append] at hcut
      obtain ⟨rfl, rfl, -⟩ := Text.eq_of_cut_in_char hcut (by omega) (by omega)
      exact ⟨front, x, back, hps, hx, rfl⟩
  · rintro ⟨front, x, back, hps, hx, rfl⟩
    have := c.utf8Size_pos
    exact .inr ⟨front, x, c, back, hps, hx, by omega, by omega⟩

/-! ## What is reported in a gap -/

theorem Token.Faulty.not_stray {t : Token} {rest : Text} {e : LexicalError}
    (h : t.Faulty rest e) : e.kind ≠ .invalidCharacter := by
  intro hk
  cases h <;> cases hk

/-- The invalid characters of a scan are the characters in its gaps that are not blank. -/
theorem invalid_characters_are_in_gaps {source : Text} {e : LexicalError} :
    e ∈ (tokenize source).errors ∧ e.kind = .invalidCharacter ↔
      ∃ (before : Text) (c : Char) (after : Text), source = before ++ c :: after ∧
        InGap (tokenize source).tokens before.byteSize ∧ isBlank c = false ∧
        e = strayError (Position.start.advancedOver before) c := by
  rw [errors_tokenize, mem_errorsOf]
  constructor
  · rintro ⟨⟨front, x, back, hps, he⟩, hk⟩
    cases stands_of_pieces hps with
    | blank => cases he
    | @stray c _ hblank =>
      have hsource : source = textOf front ++ c :: textOf back := cut_of_pieces hps
      refine ⟨textOf front, c, textOf back, hsource, ?_, hblank, List.mem_singleton.mp he⟩
      exact (inGap_iff hsource).mpr ⟨front, .stray c, back, hps, rfl, rfl⟩
    | lexeme hl =>
      obtain ⟨f, hf, rfl⟩ := List.mem_map.mp he
      exact absurd hk (hl.faulty hf _).not_stray
  · rintro ⟨before, c, after, hsource, hgap, hblank, rfl⟩
    refine ⟨?_, rfl⟩
    obtain ⟨front, x, back, hps, hx, rfl⟩ := (inGap_iff hsource).mp hgap
    refine ⟨front, x, back, hps, ?_⟩
    cases x with
    | blank d =>
      cases hx
      cases stands_of_pieces hps with
      | blank hb => rw [hb] at hblank; cases hblank
    | stray d =>
      cases hx
      exact List.mem_singleton_self _
    | lexeme => cases hx

theorem straysAt_eq_singleton {errors : List LexicalError} {e : LexicalError}
    (hsorted : errors.Pairwise fun a b => a.position.offset < b.position.offset)
    (he : e ∈ errors) (hk : e.kind = .invalidCharacter) :
    straysAt e.position.offset errors = [e] := by
  obtain ⟨front, back, rfl⟩ := List.append_of_mem he
  obtain ⟨-, hback, hfront⟩ := List.pairwise_append.mp hsorted
  have hnone : ∀ {l : List LexicalError}, (∀ a ∈ l, a.position.offset ≠ e.position.offset) →
      l.filter (fun a => a.kind = .invalidCharacter ∧ a.position.offset = e.position.offset) =
        [] := by
    intro l hl
    rw [List.filter_eq_nil_iff]
    intro a ha h
    exact hl a ha (of_decide_eq_true h).2
  unfold straysAt
  rw [List.filter_append, List.filter_cons_of_pos (by simp [hk]), hnone, hnone, List.nil_append]
  · intro a ha
    have := List.rel_of_pairwise_cons hback ha
    omega
  · intro a ha
    have := hfront a ha e List.mem_cons_self
    omega

/-! ## The gaps and the lexemes in turn -/

theorem slice?_gap {source before gap rest : Text} (h : source = before ++ (gap ++ rest)) :
    source.slice? before.byteSize (before ++ gap).byteSize = some gap := by
  rw [h, Text.byteSize_append]
  exact Text.slice?_append before gap rest

theorem gaps_rebuild {source : Text} (ps : List Piece) {before gap : Text}
    (h : source = before ++ (gap ++ textOf ps)) : ∃ texts : List Text,
      texts.map some = (gapsFrom before.byteSize
        (layOut (Position.start.advancedOver (before ++ gap)) ps).tokens).map
          (fun g => source.slice? g.1 g.2) ∧
      (List.zipWith (fun gap t => gap ++ t.lexeme) texts
        (layOut (Position.start.advancedOver (before ++ gap)) ps).tokens).flatten =
          gap ++ textOf ps := by
  induction ps generalizing before gap with
  | nil =>
    refine ⟨[gap], ?_, ?_⟩
    · rw [layOut, gapsFrom, gapsFrom, Token.endOfFile, Position.offset_advancedOver_start,
        List.map_singleton, List.map_singleton, slice?_gap h]
    · simp [layOut, Token.endOfFile]
  | cons x ps ih =>
    cases hx : x.gapChar? with
    | some c =>
      -- The piece joins the gap.
      have htext := Piece.text_of_gapChar? hx
      have hsource : source = before ++ ((gap ++ [c]) ++ textOf ps) := by
        rw [h, textOf_cons, htext, List.append_assoc gap]
      have hrest := ih hsource
      rw [← List.append_assoc before, Position.advancedOver_append] at hrest
      rw [tokens_layOut_gap hx, textOf_cons, htext, ← List.append_assoc gap]
      exact hrest
    | none =>
      -- The lexeme closes the gap, and the next one starts empty.
      obtain ⟨l, rfl⟩ := Piece.eq_lexeme_of_gapChar? hx
      have hsource : source = (before ++ gap ++ l.text) ++ ([] ++ textOf ps) := by
        rw [h, textOf_cons, List.nil_append, List.append_assoc, List.append_assoc]
        rfl
      obtain ⟨texts, hslices, hflatten⟩ := ih hsource
      rw [List.append_nil, Position.advancedOver_append] at hslices hflatten
      refine ⟨gap :: texts, ?_, ?_⟩
      · rw [tokens_layOut_lexeme, gapsFrom, List.map_cons, List.map_cons, l.start_placed,
          l.stop_placed, hslices, slice?_gap h]
      · rw [tokens_layOut_lexeme, List.zipWith_cons_cons, List.flatten_cons, hflatten,
          List.nil_append, textOf_cons, List.append_assoc]
        rfl

/-! ## Tiling -/

theorem token_is_its_slice {source : Text} {t : Token}
    (ht : t ∈ tokensOf .start (pieces source)) : t.kind ≠ .endOfFile ∧
      t.start.offset < t.stop.offset ∧
      source.slice? t.start.offset t.stop.offset = some t.lexeme := by
  obtain ⟨front, l, back, hps, rfl⟩ := mem_tokensOf.mp ht
  have hl := lexeme_stands_of_pieces hps
  obtain ⟨c, r, hcr, -⟩ := hl.first
  have hpos : 0 < l.text.byteSize := Text.byteSize_pos (by rw [hcr]; exact List.cons_ne_nil _ _)
  rw [l.start_placed, l.stop_placed, Text.byteSize_append]
  refine ⟨hl.kind_ne_endOfFile, by omega, ?_⟩
  rw [cut_of_pieces hps]
  exact Text.slice?_append _ _ _

theorem blank_is_not_reported {source before after : Text} {c : Char}
    (h : source = before ++ c :: after) (hblank : isBlank c = true) :
    straysAt before.byteSize (tokenize source).errors = [] := by
  unfold straysAt
  rw [List.filter_eq_nil_iff]
  intro e he hstray
  obtain ⟨hk, hoffset⟩ := of_decide_eq_true hstray
  obtain ⟨before', d, after', h', -, hd, rfl⟩ := invalid_characters_are_in_gaps.mp ⟨he, hk⟩
  rw [strayError, Position.offset_advancedOver_start] at hoffset
  obtain ⟨-, hcd⟩ := Text.append_inj_of_byteSize (h.symm.trans h') hoffset.symm
  rw [(List.cons.inj hcd).1, hd] at hblank
  cases hblank

theorem stray_is_reported_once {source before after : Text} {c : Char}
    (h : source = before ++ c :: after) (hgap : InGap (tokenize source).tokens before.byteSize)
    (hblank : isBlank c = false) :
    ∃ e, straysAt before.byteSize (tokenize source).errors = [e] ∧ e.text = [c] := by
  obtain ⟨he, hk⟩ := invalid_characters_are_in_gaps.mpr ⟨before, c, after, h, hgap, hblank, rfl⟩
  have hone := straysAt_eq_singleton (errors_tokenize_sorted source) he hk
  rw [strayError, Position.offset_advancedOver_start] at hone
  exact ⟨_, hone, rfl⟩

/-- The tokens of a scan tile its source, whatever the source is. -/
theorem tokens_tile_the_source (source : Text) :
    ∃ body last, Tiling source (tokenize source) body last := by
  refine ⟨tokensOf .start (pieces source), Token.endOfFile (Position.start.advancedOver source),
    { tokens_eq := tokens_tokenize source
      last_ends := ⟨rfl, rfl, rfl, Position.offset_advancedOver_start source⟩
      body_lexeme := fun t ht => token_is_its_slice ht
      in_order := tokens_tokenize_in_order source
      gap_char := ?_
      stray_in_gap := ?_
      rebuilt := ?_ }⟩
  · intro before c after hsource hgap
    split
    · rename_i hblank
      exact blank_is_not_reported hsource hblank
    · rename_i hblank
      exact stray_is_reported_once hsource hgap (Bool.eq_false_iff.mpr hblank)
  · intro e he hk
    obtain ⟨before, c, after, hsource, hgap, hblank, rfl⟩ :=
      invalid_characters_are_in_gaps.mp ⟨he, hk⟩
    exact ⟨before, c, after, hsource, Position.offset_advancedOver_start before, rfl, hblank, hgap⟩
  · have hsource : source = [] ++ ([] ++ textOf (pieces source)) := (textOf_pieces source).symm
    obtain ⟨texts, hslices, hflatten⟩ := gaps_rebuild (pieces source) hsource
    exact ⟨texts, hslices, hflatten.trans (textOf_pieces source)⟩

end Lexis
