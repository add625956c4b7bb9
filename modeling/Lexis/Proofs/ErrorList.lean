-- The laws of the error list: a scan reports what is wrong with its source,
-- all of it, nothing else, and in the order in which it stands there.
import Lexis.Proofs.Tiling

namespace Lexis

/-! ## What there is to report -/

/-- What is wrong with a source that was cut into these tokens. -/
inductive Reported (source : Text) (tokens : List Token) : LexicalError → Prop
  | stray {before after : Text} {c : Char} : source = before ++ c :: after →
      InGap tokens before.byteSize → isBlank c = false →
      Reported source tokens ⟨.invalidCharacter, Position.start.advancedOver before, [c]⟩
  | ofToken {t : Token} {rest : Text} {e : LexicalError} : t ∈ tokens → Follows source t rest →
      t.Faulty rest e → Reported source tokens e

/-- An error list that is sound, complete and in order. -/
structure Faithful (source : Text) (s : ScanResult) : Prop where
  in_order : s.errors.Pairwise fun a b => a.position.offset < b.position.offset
  exactly : ∀ e, e ∈ s.errors ↔ Reported source s.tokens e
  quoted : ∀ e ∈ s.errors, ∃ upTo after, e.position = Position.start.advancedOver upTo ∧
    source.splitAt? e.position.offset = some (upTo, e.text ++ after)

/-! ## Soundness -/

/-- An error belongs to a character of a gap or to a token. -/
theorem reported_of_error {source : Text} {e : LexicalError}
    (he : e ∈ (tokenize source).errors) : Reported source (tokenize source).tokens e := by
  have he' := he
  rw [errors_tokenize, mem_errorsOf] at he'
  obtain ⟨front, x, back, hps, hx⟩ := he'
  have hsource := cut_of_pieces hps
  cases stands_of_pieces hps with
  | blank => cases hx
  | stray =>
    rw [List.mem_singleton.mp hx] at he
    obtain ⟨before, c, after, hcut, hgap, hblank, heq⟩ :=
      invalid_characters_are_in_gaps.mp ⟨he, rfl⟩
    rw [List.mem_singleton.mp hx, heq]
    exact .stray hcut hgap hblank
  | @lexeme l _ hl =>
    obtain ⟨f, hf, rfl⟩ := List.mem_map.mp hx
    apply Reported.ofToken (t := l.placed (Position.start.advancedOver (textOf front)))
    · rw [tokens_tokenize]
      exact List.mem_append_left _ (mem_tokensOf.mpr ⟨front, l, back, hps, rfl⟩)
    · rw [hsource]
      exact follows_placed (textOf front) l (textOf back)
    · exact hl.faulty hf _

/-! ## Completeness -/

theorem Token.Faulty.not_last {t : Token} {rest : Text} {e : LexicalError}
    (h : t.Faulty rest e) : t.kind ≠ .endOfFile := by
  intro hk
  cases h with
  | unclosedString hs => rw [hs.is_string] at hk; cases hk
  | badEscape hs => rw [hs.is_string] at hk; cases hk
  | noValue hn => rcases hn with hn | hn <;> (rw [hn] at hk; cases hk)
  | point hn => rw [hn] at hk; cases hk
  | unclosedComment hc => rw [hc] at hk; cases hk

/-- What is wrong with a source is reported. -/
theorem error_of_reported {source : Text} {e : LexicalError}
    (h : Reported source (tokenize source).tokens e) : e ∈ (tokenize source).errors := by
  cases h with
  | stray hcut hgap hblank =>
    exact (invalid_characters_are_in_gaps.mpr ⟨_, _, _, hcut, hgap, hblank, rfl⟩).1
  | ofToken ht hrest hfaulty =>
    obtain ⟨before, l, rest', hsource, hl, rfl, hfaults⟩ := lexeme_of_token ht hfaulty.not_last
    have hfollows := follows_placed before l rest'
    rw [← hsource] at hfollows
    rw [hrest.unique hfollows] at hfaulty
    obtain ⟨f, hf, rfl⟩ := hl.fault_of_faulty hfaulty
    exact hfaults _ (List.mem_map.mpr ⟨f, hf, rfl⟩)

/-! ## Every error quotes the source -/

theorem error_quotes_source {origin : Position} {source : Text} {e : LexicalError}
    (he : e ∈ (scanFrom origin source).errors) : ∃ upTo after,
      source = upTo ++ (e.text ++ after) ∧ e.position = origin.advancedOver upTo := by
  rw [scanFrom_eq] at he
  obtain ⟨front, x, back, hps, hx⟩ := mem_errorsOf.mp he
  have hsource := cut_of_pieces hps
  cases stands_of_pieces hps with
  | blank => cases hx
  | stray =>
    rw [List.mem_singleton.mp hx]
    exact ⟨textOf front, textOf back, hsource, rfl⟩
  | @lexeme l _ hl =>
    obtain ⟨f, hf, rfl⟩ := List.mem_map.mp hx
    have hposition : (f.placed (origin.advancedOver (textOf front))).position =
        origin.advancedOver (textOf front ++ f.before) := by
      rw [Position.advancedOver_append]
      rfl
    rcases hl.fault_place hf with ⟨-, more, hmore⟩ | ⟨-, hbefore, hpoint, hrest⟩
    · refine ⟨textOf front ++ f.before, more ++ textOf back, ?_, hposition⟩
      rw [hsource, Piece.text, ← hmore]
      simp [Fault.placed]
    · obtain ⟨more, hmore⟩ := List.head?_eq_some_iff.mp hrest
      refine ⟨textOf front ++ f.before, more, ?_, hposition⟩
      rw [hsource, Piece.text, hbefore, hmore]
      simp [Fault.placed, hpoint]

/-! ## The error list -/

/-- Whatever the source is, its errors are exactly what is wrong with it, in strict order. -/
theorem the_errors_are_what_is_wrong (source : Text) : Faithful source (tokenize source) where
  in_order := errors_tokenize_sorted source
  exactly e := ⟨reported_of_error, error_of_reported⟩
  quoted e he := by
    obtain ⟨upTo, after, hsource, hposition⟩ := error_quotes_source he
    refine ⟨upTo, after, hposition, ?_⟩
    rw [hposition, Position.offset_advancedOver_start, hsource]
    exact Text.splitAt?_append _ _

end Lexis
