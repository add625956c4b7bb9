-- The law of the message: the message of an error quotes the offending text with escapes, and the
-- language reads these escapes as the text. So a message tells which text it is about.
import Lexis.Diagnostic.OfError
import Lexis.Proofs.StringSpellings

namespace Lexis

/-! ## What a message quotes -/

/-- The part of a text between its first and its last backquote. -/
def BetweenBackquotes (t part : Text) : Prop :=
  ∃ before after, t = before ++ '`' :: (part ++ '`' :: after) ∧ '`' ∉ before ∧ '`' ∉ after

/-- The scan of a source that is one string with a value. -/
def stringScan (source value : Text) : ScanResult :=
  ⟨[⟨.stringLiteral, source, .start, Position.start.advancedOver source, some (.string value)⟩,
    Token.endOfFile (Position.start.advancedOver source)], []⟩

/-- The controls that would spoil a line of a message. -/
def controls : Text := ['\n', '\r', '\t', '\x00']

/-- The message of an error quotes a text without controls. Between double quotes it is a string of
the language, and its value is the offending text. -/
structure ReadsBack (e : LexicalError) (quoted : Text) : Prop where
  between : ∀ part, BetweenBackquotes e.toDiagnostic.message part ↔ part = quoted
  no_control : ∀ c ∈ quoted, c ∉ controls
  read : tokenize ('"' :: (quoted ++ ['"'])) = stringScan ('"' :: (quoted ++ ['"'])) e.text

/-! ## Hexadecimal digits of a number -/

theorem hexDigitIs_digitChar {v : Nat} (h : v < 16) : HexDigitIs (Nat.digitChar v) v := by
  have all_values : ∀ v < 16, hexDigits[v]? = some (Nat.digitChar v).toLower := by decide
  exact all_values v h

theorem hexSpells_hexOfNat (n : Nat) : HexSpells (Text.hexOfNat n) n := by
  unfold Text.hexOfNat
  induction n using Nat.strong_induction_on with
  | _ n ih =>
    rcases Nat.lt_or_ge n 16 with hn | hn
    · rw [Nat.toDigits_of_lt_base hn]
      exact ⟨[n], .cons (hexDigitIs_digitChar hn) .nil, Nat.ofDigits_singleton⟩
    · obtain ⟨values, hvalues, hspelled⟩ := ih (n / 16) (by omega)
      rw [Nat.toDigits_of_base_le (by decide) hn]
      refine ⟨values ++ [n % 16], ?_, ?_⟩
      · exact List.rel_append hvalues (.cons (hexDigitIs_digitChar (by omega)) .nil)
      · rw [List.reverse_append, List.reverse_singleton, List.singleton_append, Nat.ofDigits_cons,
          hspelled]
        exact Nat.mod_add_div n 16

theorem length_hexOfNat_le (c : Char) : (Text.hexOfNat c.toNat).length ≤ 6 := by
  have hvalid : c.toNat < 16 ^ 6 := by
    have : c.toNat.isValidChar := c.valid
    simp only [Nat.isValidChar] at this
    omega
  exact (Nat.length_toDigits_le_iff (by decide) (by decide)).mpr hvalid

/-! ## What is written for a character -/

/-- A character is written with a letter after a backslash, by its number, or as itself. Characters
that have a letter are never written otherwise. -/
theorem escapeChar_cases (first : Bool) (c : Char) :
    (∃ letter, (letter, c) ∈ shortEscapes ∧
      Text.escapeChar .message first c = ['\\', letter]) ∨
    Text.escapeChar .message first c = numbered (Text.hexOfNat c.toNat) ∨
    ((∀ letter, (letter, c) ∉ shortEscapes) ∧ Text.escapeChar .message first c = [c]) := by
  unfold Text.escapeChar
  split
  · exact .inl ⟨'0', by decide, rfl⟩
  · exact .inl ⟨'t', by decide, rfl⟩
  · exact .inl ⟨'n', by decide, rfl⟩
  · exact .inl ⟨'r', by decide, rfl⟩
  · exact .inl ⟨'\\', by decide, rfl⟩
  · exact .inl ⟨'"', by decide, rfl⟩
  · exact .inl ⟨'\'', by decide, rfl⟩
  · rename_i hnul htab hline hreturn hback hdouble hsingle
    split
    · exact .inr (.inl rfl)
    · split
      · exact .inr (.inl rfl)
      · refine .inr (.inr ⟨?_, rfl⟩)
        intro letter hmem
        simp only [shortEscapes, List.mem_cons, Prod.mk.injEq, List.not_mem_nil, or_false] at hmem
        tauto

theorem ne_of_no_letter {c d : Char} (letter : Char) (h : ∀ letter, (letter, c) ∉ shortEscapes)
    (hd : (letter, d) ∈ shortEscapes) : c ≠ d := by
  rintro rfl
  exact h letter hd

/-- What is written for a character is one of its spellings between double quotes. -/
theorem spells_escapeChar (first : Bool) (c : Char) :
    Spells '"' c (Text.escapeChar .message first c) := by
  rcases escapeChar_cases first c with ⟨letter, hmem, heq⟩ | heq | ⟨hno, heq⟩
  · rw [heq]
    exact .short hmem
  · rw [heq]
    exact .byNumber Nat.length_toDigits_pos (length_hexOfNat_le c) (hexSpells_hexOfNat c.toNat)
  · rw [heq]
    exact .itself (ne_of_no_letter '"' hno (by decide))
      (ne_of_no_letter '\\' hno (by decide))
      (ne_of_no_letter 'n' hno (by decide))

theorem no_control_of_isHexDigit {x : Char} (h : isHexDigit x = true) : x ∉ controls := by
  intro hmem
  have all_controls : controls.all (fun c => !isHexDigit c) = true := by decide
  have hx := List.all_eq_true.mp all_controls x hmem
  rw [h] at hx
  cases hx

theorem no_control_escapeChar (first : Bool) (c : Char) :
    ∀ x ∈ Text.escapeChar .message first c, x ∉ controls := by
  intro x hx
  rcases escapeChar_cases first c with ⟨letter, hmem, heq⟩ | heq | ⟨hno, heq⟩
  · have all_letters : shortEscapes.all (fun entry => decide (entry.1 ∉ controls)) = true := by
      decide
    rw [heq, List.mem_cons, List.mem_singleton] at hx
    rcases hx with rfl | rfl
    · decide
    · exact of_decide_eq_true (List.all_eq_true.mp all_letters _ hmem)
  · have hdigits := (hexSpells_iff.mp (hexSpells_hexOfNat c.toNat)).1
    simp only [heq, numbered, List.cons_append, List.mem_cons, List.mem_append, List.not_mem_nil,
      or_false] at hx
    rcases hx with rfl | rfl | rfl | hx | rfl
    · decide
    · decide
    · decide
    · exact no_control_of_isHexDigit (hdigits x hx)
    · decide
  · rw [heq, List.mem_singleton] at hx
    simp only [hx, controls, List.mem_cons, List.not_mem_nil, or_false, not_or]
    exact ⟨ne_of_no_letter 'n' hno (by decide), ne_of_no_letter 'r' hno (by decide),
      ne_of_no_letter 't' hno (by decide), ne_of_no_letter '0' hno (by decide)⟩

/-! ## What is written for a text -/

/-- What is written for a text spells its characters, one after the other. -/
theorem escape_spells (t : Text) :
    ∃ rs, List.Forall₂ (Spells '"') t rs ∧ rs.flatten = Text.escape .message t := by
  cases t with
  | nil => exact ⟨[], .nil, rfl⟩
  | cons c t =>
    refine ⟨Text.escapeChar .message true c :: t.map (Text.escapeChar .message false), ?_, ?_⟩
    · refine .cons (spells_escapeChar true c) ?_
      rw [List.forall₂_map_right_iff]
      exact List.forall₂_same.mpr fun d _ => spells_escapeChar false d
    · rw [List.flatten_cons, Text.escape, List.flatMap_def]

theorem no_control_escape (t : Text) :
    ∀ x ∈ Text.escape .message t, x ∉ controls := by
  intro x hx
  cases t with
  | nil => cases hx
  | cons c t =>
    rw [Text.escape, List.mem_append, List.mem_flatMap] at hx
    rcases hx with hx | ⟨d, -, hx⟩
    · exact no_control_escapeChar true c x hx
    · exact no_control_escapeChar false d x hx

/-! ## The quoted part of a message -/

theorem eq_of_first_mark {c : Char} {a a' b b' : Text} (ha : c ∉ a) (ha' : c ∉ a')
    (h : a ++ c :: b = a' ++ c :: b') : a = a' ∧ b = b' := by
  have run_before : ∀ {a b : Text}, c ∉ a → (a ++ c :: b).takeWhile (· ≠ c) = a := fun ha =>
    takeWhile_of_stops (fun _ hx => decide_eq_true (ne_of_mem_of_not_mem hx ha))
      (stops_cons_iff.mpr (by simp))
  have hfront : a = a' := by rw [← run_before ha, h, run_before ha']
  subst hfront
  exact ⟨rfl, (List.cons.inj (List.append_cancel_left h)).2⟩

theorem betweenBackquotes_iff {before quoted after : Text} (hbefore : '`' ∉ before)
    (hafter : '`' ∉ after) (part : Text) :
    BetweenBackquotes (before ++ '`' :: (quoted ++ '`' :: after)) part ↔ part = quoted := by
  constructor
  · rintro ⟨before', after', heq, hbefore', hafter'⟩
    obtain ⟨-, hrest⟩ := eq_of_first_mark hbefore hbefore' heq
    -- the last backquote is the first from behind
    have hback : after.reverse ++ '`' :: quoted.reverse =
        after'.reverse ++ '`' :: part.reverse := by
      simpa using congrArg List.reverse hrest
    have hcut := eq_of_first_mark (by simpa using hafter) (by simpa using hafter') hback
    exact (List.reverse_injective hcut.2).symm
  · rintro rfl
    exact ⟨before, after, rfl, hbefore, hafter⟩

theorem summary_eq (e : LexicalError) :
    e.summary = (e.kind.message ++ [' ']) ++ '`' :: (Text.escape .message e.text ++ '`' :: []) := by
  simp [LexicalError.summary]

theorem no_backquote_message (kind : FaultKind) : '`' ∉ kind.message ++ [' '] := by
  cases kind <;> decide

/-- A source that spells a text between double quotes is one string. -/
theorem tokenize_spelled {cs : Text} {rs : List Text} (h : List.Forall₂ (Spells '"') cs rs) :
    tokenize ('"' :: (rs.flatten ++ ['"'])) = stringScan ('"' :: (rs.flatten ++ ['"'])) cs := by
  rw [tokenize, scanFrom_eq, pieces_spelled (.inl rfl) h [], pieces]
  rfl

theorem readsBack (e : LexicalError) : ReadsBack e (Text.escape .message e.text) := by
  obtain ⟨rs, hspelled, hflat⟩ := escape_spells e.text
  refine ⟨?_, no_control_escape e.text, ?_⟩
  · intro part
    rw [LexicalError.toDiagnostic, summary_eq]
    exact betweenBackquotes_iff (no_backquote_message e.kind) List.not_mem_nil part
  · rw [← hflat]
    exact tokenize_spelled hspelled

/-- Errors of one kind that quote the same text are about the same text. -/
theorem ReadsBack.text_eq {e e' : LexicalError} {quoted : Text} (h : ReadsBack e quoted)
    (h' : ReadsBack e' quoted) : e.text = e'.text := by
  have hscan := h.read.symm.trans h'.read
  simpa [stringScan] using hscan

/-- The message of an error quotes a text that the language reads back as the offending text. So
errors of one kind have the same message only where they are about the same text. -/
theorem messages_quote_what_they_read (e : LexicalError) :
    (∃ quoted, ReadsBack e quoted) ∧
      ∀ (p : Position) (t : Text),
        (⟨e.kind, p, t⟩ : LexicalError).toDiagnostic.message = e.toDiagnostic.message ↔
          t = e.text := by
  refine ⟨⟨_, readsBack e⟩, fun p t => ⟨?_, ?_⟩⟩
  · intro hmessage
    have h := readsBack ⟨e.kind, p, t⟩
    have hbetween := (h.between (Text.escape .message t)).mpr rfl
    rw [hmessage] at hbetween
    have hsame := ((readsBack e).between _).mp hbetween
    rw [hsame] at h
    exact h.text_eq (readsBack e)
  · rintro rfl
    rfl

end Lexis
