-- The law of the digits: a run of digits at the start of a token is an integer, or the whole part
-- of a float, by what comes after the run. Its value and its errors depend on nothing else.
import Lexis.Proofs.TokenPlaces
import Mathlib.Data.Nat.Digits.Defs

namespace Lexis

/-! ## What digits are read as -/

/-- The digits spell the number to the base 10, the first digit counting most. -/
def DecimalSpells (digits : Text) (n : Nat) : Prop :=
  ∃ values : List Nat, (∀ v ∈ values, v < 10) ∧ digits = values.map Nat.digitChar ∧
    Nat.ofDigits 10 values.reverse = n

/-- The errors about numbers that a scan reports in a token or at its end. -/
def ScanResult.numberErrors (s : ScanResult) (t : Token) : List LexicalError :=
  s.errors.filter fun e => e.kind = .malformedNumber ∧ t.start.offset ≤ e.position.offset ∧
    e.position.offset ≤ t.stop.offset

/-- The digits, the point and all the digits after it are one token. A second point is no error. -/
structure ReadAsFloat (s : ScanResult) (t : Token) (digits more : Text) : Prop where
  kind : t.kind = .floatLiteral
  lexeme : ∃ fraction after, more = fraction ++ after ∧ (∀ d ∈ fraction, d.isDigit) ∧
    Stops Char.isDigit after ∧ t.lexeme = digits ++ '.' :: fraction
  errors : s.numberErrors t =
    if t.value = none then [⟨.malformedNumber, t.start, t.lexeme⟩] else []

/-- The digits alone are one token. It has the number that they spell as its value if that fits in
64 bits. A number that does not fit and a point after it are two errors, in this order. -/
structure ReadAsInteger (s : ScanResult) (t : Token) (digits rest : Text) (n : Nat) : Prop where
  kind : t.kind = .integerLiteral
  lexeme : t.lexeme = digits
  spelled : ∀ m, DecimalSpells digits m ↔ m = n
  fits : n < 2 ^ 64 → ∃ v : UInt64, t.value = some (.integer v) ∧ v.toNat = n
  too_large : 2 ^ 64 ≤ n → t.value = none
  errors : s.numberErrors t =
    (if n < 2 ^ 64 then [] else [⟨.malformedNumber, t.start, digits⟩]) ++
      if rest.head? = some '.' then [⟨.malformedNumber, t.stop, ['.']⟩] else []
  point : rest.head? = some '.' → ∃ front back, s.tokens =
    front ++ t :: ⟨.punctuation .dot, ['.'], t.stop, t.stop.advance '.', none⟩ :: back

/-- What a scan makes of a run of digits that a token starts with, given the text after the run. -/
structure ReadsDigits (s : ScanResult) (t : Token) (digits rest : Text) : Prop where
  float : ∀ d more, rest = '.' :: d :: more → d.isDigit → ReadAsFloat s t digits (d :: more)
  integer : (∀ d more, rest = '.' :: d :: more → d.isDigit = false) →
    ∃ n, ReadAsInteger s t digits rest n

/-! ## Decimal values -/

theorem exists_digitChar {d : Char} (h : d.isDigit = true) : ∃ v < 10, d = Nat.digitChar v := by
  obtain ⟨hlow, hhigh⟩ := Char.isDigit_iff_toNat.mp h
  have hv : d.toNat - 48 < 10 := Nat.lt_of_le_of_lt (Nat.sub_le_sub_right hhigh 48) (by decide)
  refine ⟨d.toNat - 48, hv, Char.toNat_inj.mp ?_⟩
  rw [Nat.toNat_digitChar_of_lt_ten hv]
  exact (Nat.add_sub_of_le hlow).symm

theorem exists_digit_values {digits : Text} (h : ∀ d ∈ digits, d.isDigit) :
    ∃ values : List Nat, (∀ v ∈ values, v < 10) ∧ digits = values.map Nat.digitChar := by
  induction digits with
  | nil => exact ⟨[], by simp, rfl⟩
  | cons d digits ih =>
    obtain ⟨v, hv, rfl⟩ := exists_digitChar (h d List.mem_cons_self)
    obtain ⟨values, hvalues, rfl⟩ := ih fun x hx => h x (List.mem_cons_of_mem _ hx)
    exact ⟨v :: values, List.forall_mem_cons.mpr ⟨hv, hvalues⟩, rfl⟩

theorem ofDigitChars_map_digitChar {values : List Nat} (h : ∀ v ∈ values, v < 10) (init : Nat) :
    Nat.ofDigitChars 10 (values.map Nat.digitChar) init =
      values.foldl (fun n v => v + 10 * n) init := by
  induction values generalizing init with
  | nil => rfl
  | cons v values ih =>
    obtain ⟨hv, hvalues⟩ := List.forall_mem_cons.mp h
    rw [List.map_cons, Nat.ofDigitChars_cons_digitChar_of_lt_ten hv, ih hvalues, List.foldl_cons,
      Nat.add_comm]

theorem decimalValue_map_digitChar {values : List Nat} (h : ∀ v ∈ values, v < 10) :
    Text.decimalValue (values.map Nat.digitChar) = Nat.ofDigits 10 values.reverse := by
  rw [Text.decimalValue, ofDigitChars_map_digitChar h, Nat.ofDigits_eq_foldr, List.foldr_reverse]
  rfl

/-- Digits spell one number, and it is the one that is computed from them. -/
theorem decimalSpells_iff {digits : Text} (h : ∀ d ∈ digits, d.isDigit) (n : Nat) :
    DecimalSpells digits n ↔ n = Text.decimalValue digits := by
  constructor
  · rintro ⟨values, hvalues, rfl, rfl⟩
    exact (decimalValue_map_digitChar hvalues).symm
  · rintro rfl
    obtain ⟨values, hvalues, rfl⟩ := exists_digit_values h
    exact ⟨values, hvalues, rfl, (decimalValue_map_digitChar hvalues).symm⟩

theorem integerValue?_of_lt {digits : Text} (h : Text.decimalValue digits < 2 ^ 64) :
    ∃ v : UInt64, integerValue? digits = some (.integer v) ∧
      v.toNat = Text.decimalValue digits :=
  ⟨UInt64.ofNatLT (Text.decimalValue digits) h, dif_pos h, UInt64.toNat_ofNatLT⟩

theorem integerValue?_of_ge {digits : Text} (h : 2 ^ 64 ≤ Text.decimalValue digits) :
    integerValue? digits = none := dif_neg (Nat.not_lt.mpr h)

/-- A number that does not fit in 64 bits has no value, and that is its fault. -/
theorem valueFaults_integer (digits : Text) : valueFaults digits (integerValue? digits) =
    if Text.decimalValue digits < 2 ^ 64 then [] else [⟨.malformedNumber, [], digits⟩] := by
  rcases Nat.lt_or_ge (Text.decimalValue digits) (2 ^ 64) with h | h
  · obtain ⟨v, hv, -⟩ := integerValue?_of_lt h
    rw [if_pos h, hv]
    rfl
  · rw [if_neg (Nat.not_lt.mpr h), integerValue?_of_ge h]
    rfl

/-! ## The errors of a number -/

theorem Lexeme.Stands.number_first {l : Lexeme} {rest : Text} (h : l.Stands rest)
    (hk : l.kind = .integerLiteral ∨ l.kind = .floatLiteral) :
    ∃ d t, l.text = d :: t ∧ d.isDigit = true := by
  rcases hk with hk | hk
  · obtain ⟨digits, rfl, hne, hdigits, -⟩ := h.of_integer hk
    obtain ⟨d, ds, rfl⟩ := List.exists_cons_of_ne_nil hne
    exact ⟨d, ds, rfl, hdigits d List.mem_cons_self⟩
  · obtain ⟨whole, fraction, rfl, hne, -, hdigits, -⟩ := h.of_float hk
    obtain ⟨d, ds, rfl⟩ := List.exists_cons_of_ne_nil hne
    exact ⟨d, _, rfl, hdigits d List.mem_cons_self⟩

/-- Where no digit comes next, no number is malformed right there. -/
theorem WellLaid.number_error_later {ps : List Piece} (h : WellLaid ps)
    (hstop : Stops Char.isDigit (textOf ps)) {p : Position} {e : LexicalError}
    (he : e ∈ errorsOf p ps) (hk : e.kind = .malformedNumber) :
    p.offset < e.position.offset := by
  cases h with
  | nil => cases he
  | @cons x ps hx hps =>
    have hpos := Text.byteSize_pos hx.text_ne_nil
    rcases List.mem_append.mp he with he | he
    · cases hx with
      | blank => cases he
      | stray =>
        rw [List.mem_singleton.mp he] at hk
        cases hk
      | @lexeme l _ hl =>
        obtain ⟨f, hf, rfl⟩ := List.mem_map.mp he
        generalize hplaced : f.placed p = e at hk
        have hfaulty := hl.faulty hf p
        rw [hplaced] at hfaulty
        cases hfaulty with
        | noValue hnumber =>
          obtain ⟨d, t, ht, hd⟩ := hl.number_first hnumber
          rw [textOf_cons, Piece.text, ht, List.cons_append, stops_cons_iff, hd] at hstop
          cases hstop
        | point =>
          simp only [Lexeme.placed, Position.offset_advancedOver]
          exact Nat.lt_add_of_pos_right hpos
        | _ => cases hk
    · have := ((hps.errors_sorted _).2 e he).1
      rw [Position.offset_advancedOver] at this
      omega

theorem Lexeme.Stands.number_fault {l : Lexeme} {rest : Text} {f : Fault} (h : l.Stands rest)
    (hk : l.kind = .integerLiteral ∨ l.kind = .floatLiteral) (hf : f ∈ l.faults) :
    f.kind = .malformedNumber ∧ f.before.byteSize ≤ l.text.byteSize := by
  rcases hk with hk | hk
  · obtain ⟨digits, rfl, -⟩ := h.of_integer hk
    rcases List.mem_append.mp hf with hf | hf
    · obtain ⟨-, rfl⟩ := mem_valueFaults.mp hf
      exact ⟨rfl, Nat.zero_le _⟩
    · obtain ⟨-, rfl⟩ := mem_pointFaults.mp hf
      exact ⟨rfl, Nat.le_refl _⟩
  · obtain ⟨whole, fraction, rfl, -⟩ := h.of_float hk
    obtain ⟨-, rfl⟩ := mem_valueFaults.mp hf
    exact ⟨rfl, Nat.zero_le _⟩

/-- The errors about numbers in a number, its end included, are the faults of its lexeme. -/
theorem numberErrors_placed {source : Text} {front back : List Piece} {l : Lexeme}
    (h : pieces source = front ++ .lexeme l :: back)
    (hk : l.kind = .integerLiteral ∨ l.kind = .floatLiteral)
    (hstop : Stops Char.isDigit (textOf back)) (origin : Position) :
    (scanFrom origin source).numberErrors (l.placed (origin.advancedOver (textOf front))) =
      l.faults.map (Fault.placed (origin.advancedOver (textOf front))) := by
  have hstands := lexeme_stands_of_pieces h
  have hlaid := wellLaid_pieces source
  rw [h] at hlaid
  obtain ⟨d, t, ht, hd⟩ := hstands.number_first hk
  have hbefore : ∀ e ∈ errorsOf origin front,
      e.position.offset < (origin.advancedOver (textOf front)).offset := by
    intro e he
    rw [Position.offset_advancedOver]
    apply hlaid.errors_before _ he
    rw [textOf_cons, Piece.text, ht, List.cons_append]
    rintro ⟨⟩
    cases hd
  have hafter : ∀ e ∈ errorsOf ((origin.advancedOver (textOf front)).advancedOver l.text) back,
      e.kind = .malformedNumber →
      ((origin.advancedOver (textOf front)).advancedOver l.text).offset < e.position.offset := by
    intro e he
    cases hlaid.of_append with
    | cons _ hback => exact hback.number_error_later hstop he
  simp only [ScanResult.numberErrors, scanFrom_eq, h, errorsOf_append, errorsOf, Piece.errors,
    Piece.text, List.filter_append]
  rw [List.filter_eq_nil_iff.mpr, List.filter_eq_self.mpr, List.filter_eq_nil_iff.mpr,
    List.nil_append, List.append_nil]
  · intro e he hin
    obtain ⟨hnumber, -, hle⟩ := of_decide_eq_true hin
    exact Nat.not_lt.mpr hle (hafter e he hnumber)
  · intro e he
    obtain ⟨f, hf, rfl⟩ := List.mem_map.mp he
    obtain ⟨hnumber, hle⟩ := hstands.number_fault hk hf
    simp only [Lexeme.placed, Fault.offset_placed, Position.offset_advancedOver, decide_eq_true_eq]
    exact ⟨hnumber, by omega, by omega⟩
  · intro e he hin
    exact Nat.not_le.mpr (hbefore e he) (of_decide_eq_true hin).2.1

/-! ## Reading at a run of digits -/

/-- A character of a class begins the longest run of the class. -/
theorem exists_run {p : Char → Bool} {c : Char} (hc : p c = true) (r : Text) : ∃ run rest,
    c :: r = run ++ rest ∧ run ≠ [] ∧ (∀ x ∈ run, p x) ∧ Stops p rest := by
  refine ⟨(c :: r).takeWhile p, (c :: r).dropWhile p, List.takeWhile_append_dropWhile.symm, ?_,
    fun x hx => List.mem_takeWhile_imp hx, stops_dropWhile p (c :: r)⟩
  rw [List.takeWhile_cons_of_pos hc]
  exact List.cons_ne_nil _ _

/-- A text that begins with a digit begins with a token. -/
theorem token_at_digit (origin : Position) {d : Char} (hd : d.isDigit = true) (r : Text) :
    ∃ t ∈ (scanFrom origin (d :: r)).tokens, t.start = origin := by
  have hpiece : readPiece d r = (.lexeme (readNumber d r).1, (readNumber d r).2) := by
    simp [readPiece, readLexeme?_digit hd, isBlank_eq_false_of_isDigit hd]
  have hps : pieces (d :: r) = [] ++ .lexeme (readNumber d r).1 :: pieces (readNumber d r).2 := by
    rw [pieces, hpiece]
    rfl
  exact ⟨_, mem_tokens_scanFrom.mpr (.inl ⟨[], _, _, hps, rfl⟩), rfl⟩

/-- A point in front of a text is a token of its own. -/
theorem scanFrom_point (p : Position) (r : Text) : ∃ later, (scanFrom p ('.' :: r)).tokens =
    ⟨.punctuation .dot, ['.'], p, p.advance '.', none⟩ :: later := by
  have hdot : Piece.Stands (.lexeme (.plain (.punctuation .dot) ['.'])) r :=
    .lexeme (.punctuation (p := .dot))
  have hread := readPiece_of_stands hdot (show _ = '.' :: r from rfl)
  rw [scanFrom_eq, pieces, hread]
  exact ⟨_, rfl⟩

/-- One text begins with one lexeme. -/
theorem Lexeme.Stands.unique {l l' : Lexeme} {rest rest' : Text} (h : l.Stands rest)
    (h' : l'.Stands rest') (htext : l.text ++ rest = l'.text ++ rest') : l = l' ∧ rest = rest' := by
  obtain ⟨c, t, ht, -⟩ := h.first
  have hcons : l.text ++ rest = c :: (t ++ rest) := by rw [ht, List.cons_append]
  have hread := readLexeme?_of_stands h hcons
  rw [readLexeme?_of_stands h' (htext.symm.trans hcons), Option.some.injEq, Prod.mk.injEq] at hread
  exact ⟨hread.1.symm, hread.2.symm⟩

section

variable {origin : Position} {before digits rest : Text} {t : Token}

theorem float_is_read {d : Char} {more : Text}
    (ht : t ∈ (scanFrom origin (before ++ (digits ++ '.' :: d :: more))).tokens)
    (hstart : t.start = origin.advancedOver before) (hne : digits ≠ [])
    (hdigits : ∀ x ∈ digits, x.isDigit) (hd : d.isDigit = true) :
    ReadAsFloat (scanFrom origin (before ++ (digits ++ '.' :: d :: more))) t digits
      (d :: more) := by
  obtain ⟨front, l, back, hps, rfl, hs, rfl⟩ := lexeme_of_start ht hstart (by simp)
  obtain ⟨fraction, after, hmore, hne', hfraction, hstop⟩ := exists_run hd more
  obtain ⟨rfl, hback⟩ := (lexeme_stands_of_pieces hps).unique
    (.float hne hne' hdigits hfraction hstop) (by rw [hs, hmore]; simp [floatLexeme])
  refine ⟨rfl, ⟨fraction, after, hmore, hfraction, hstop, rfl⟩, ?_⟩
  rw [numberErrors_placed hps (.inr rfl) (by rwa [hback]) origin]
  simp only [floatLexeme, valueFaults, Lexeme.placed, Option.isNone_iff_eq_none]
  split
  · rfl
  · rfl

theorem integer_is_read (ht : t ∈ (scanFrom origin (before ++ (digits ++ rest))).tokens)
    (hstart : t.start = origin.advancedOver before) (hne : digits ≠ [])
    (hdigits : ∀ x ∈ digits, x.isDigit) (hstop : Stops Char.isDigit rest)
    (hpoint : ∀ more, rest = '.' :: more → Stops Char.isDigit more) :
    ReadAsInteger (scanFrom origin (before ++ (digits ++ rest))) t digits rest
      (Text.decimalValue digits) := by
  obtain ⟨front, l, back, hps, rfl, hs, rfl⟩ := lexeme_of_start ht hstart (by simp [hne])
  obtain ⟨rfl, hback⟩ := (lexeme_stands_of_pieces hps).unique
    (.integer hne hdigits hstop hpoint) hs
  refine
    { kind := rfl
      lexeme := rfl
      spelled := decimalSpells_iff hdigits
      fits := integerValue?_of_lt
      too_large := integerValue?_of_ge
      errors := ?_
      point := ?_ }
  · rw [numberErrors_placed hps (.inl rfl) (by rwa [hback]) origin]
    simp only [integerLexeme, List.map_append]
    rw [valueFaults_integer, pointFaults]
    congr 1
    · split
      · rfl
      · rfl
    · split
      · rfl
      · rfl
  · intro hhead
    obtain ⟨more, rfl⟩ := List.head?_eq_some_iff.mp hhead
    obtain ⟨later, hlater⟩ := scanFrom_point
      ((origin.advancedOver (textOf front)).advancedOver digits) more
    refine ⟨tokensOf origin front, later, ?_⟩
    rw [scanFrom_at_lexeme hps origin, hback]
    exact congrArg (tokensOf origin front ++ _ :: ·) hlater

end

/-! ## Digits are read as numbers -/

/-- Wherever a token starts with a run of digits, the text after the run says whether it is a float
or an integer, and a text that begins with digits begins with such a token. -/
theorem digits_are_read_as_numbers {digits rest : Text} (hne : digits ≠ [])
    (hdigits : ∀ d ∈ digits, d.isDigit) (hstop : Stops Char.isDigit rest) (origin : Position) :
    (∃ t ∈ (scanFrom origin (digits ++ rest)).tokens, t.start = origin) ∧
    ∀ before, ∀ t ∈ (scanFrom origin (before ++ (digits ++ rest))).tokens,
      t.start = origin.advancedOver before →
      ReadsDigits (scanFrom origin (before ++ (digits ++ rest))) t digits rest := by
  constructor
  · obtain ⟨d, ds, rfl⟩ := List.exists_cons_of_ne_nil hne
    exact token_at_digit origin (hdigits d List.mem_cons_self) (ds ++ rest)
  · intro before t ht hstart
    constructor
    · rintro d more rfl hd
      exact float_is_read ht hstart hne hdigits hd
    · intro hpoint
      refine ⟨_, integer_is_read ht hstart hne hdigits hstop ?_⟩
      rintro more rfl
      cases more with
      | nil => exact stops_nil _
      | cons d more => exact stops_cons_iff.mpr (hpoint d more rfl)

theorem a_large_integer_and_a_float_before_points :
    let origin : Position := ⟨2, 5, 9⟩
    let large := "018446744073709551616".toList
    let integer : Token := ⟨.integerLiteral, large, ⟨2, 7, 12⟩, ⟨2, 28, 33⟩, none⟩
    let float : Token := ⟨.floatLiteral, "07.5".toList, ⟨2, 6, 10⟩, ⟨2, 10, 14⟩,
      Binary64.ofDecimal? "07".toList "5".toList |>.map .float⟩
    (large ≠ [] ∧ (∀ d ∈ large, d.isDigit) ∧ Stops Char.isDigit "..5".toList ∧
      integer ∈ (scanFrom origin ("é ".toList ++ (large ++ "..5".toList))).tokens ∧
      ReadsDigits (scanFrom origin ("é ".toList ++ (large ++ "..5".toList))) integer large
        "..5".toList) ∧
    "07".toList ≠ [] ∧ (∀ d ∈ "07".toList, d.isDigit) ∧ Stops Char.isDigit ".5.".toList ∧
      float ∈ (scanFrom origin ("-".toList ++ ("07".toList ++ ".5.".toList))).tokens ∧
      ReadsDigits (scanFrom origin ("-".toList ++ ("07".toList ++ ".5.".toList))) float
        "07".toList ".5.".toList := by
  intro origin large integer float
  have hne : large ≠ [] := by decide
  have hdigits : ∀ d ∈ large, d.isDigit := List.all_eq_true.mp (by decide)
  have hstop : Stops Char.isDigit "..5".toList := stops_cons_iff.mpr (by decide)
  have hinteger : integer ∈ (scanFrom origin ("é ".toList ++ (large ++ "..5".toList))).tokens := by
    decide +kernel
  have hne' : "07".toList ≠ [] := by decide
  have hdigits' : ∀ d ∈ "07".toList, d.isDigit := List.all_eq_true.mp (by decide)
  have hstop' : Stops Char.isDigit ".5.".toList := stops_cons_iff.mpr (by decide)
  have hfloat : float ∈ (scanFrom origin ("-".toList ++ ("07".toList ++ ".5.".toList))).tokens := by
    decide +kernel
  exact ⟨⟨hne, hdigits, hstop, hinteger,
      (digits_are_read_as_numbers hne hdigits hstop origin).2 _ integer hinteger rfl⟩,
    hne', hdigits', hstop', hfloat,
    (digits_are_read_as_numbers hne' hdigits' hstop' origin).2 _ float hfloat rfl⟩

end Lexis
