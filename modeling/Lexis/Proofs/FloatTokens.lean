-- The law of floats: the value of a float is the number nearest to the fraction that its digits
-- denote. A float has no value, and one error, when the fraction is past the greatest number.
import Lexis.Proofs.NearestBinary64
import Lexis.Proofs.NumberTokens

namespace Lexis

/-! ## What a float denotes -/

/-- The lexeme is digits, a point and digits, and they denote the fraction. -/
def Denotes (lexeme : Text) (r : ℚ) : Prop :=
  ∃ whole fraction : Text, lexeme = whole ++ '.' :: fraction ∧ whole ≠ [] ∧ fraction ≠ [] ∧
    ∃ m n : ℕ, DecimalSpells whole m ∧ DecimalSpells fraction n ∧
      r = m + n / 10 ^ fraction.length

/-- What a scan makes of a float that denotes the fraction. A fraction below the least number that
fills its bits has a value in units of the least exponent, and one up to half a unit has zero. -/
structure ReadAsFraction (s : ScanResult) (t : Token) (r : ℚ) : Prop where
  no_value_iff : t.value = none ↔ 2 ^ 1024 - 2 ^ 970 ≤ r
  nearest : ∀ v ∈ t.value, ∃ x, v = .float x ∧ x.IsNearest r ∧
    (r < 2 ^ (-1022 : ℤ) → x.exponent = -1074) ∧ (x = .zero ↔ r ≤ 2 ^ (-1075 : ℤ))
  errors : s.errorsIn t = if t.value = none then [⟨.malformedNumber, t.start, t.lexeme⟩] else []
  number_errors : s.numberErrors t = s.errorsIn t

/-! ## The digits of a fraction -/

theorem DecimalSpells.isDigit {digits : Text} {n : ℕ} (h : DecimalSpells digits n) :
    ∀ d ∈ digits, d.isDigit = true := by
  obtain ⟨values, hvalues, rfl, -⟩ := h
  intro d hd
  obtain ⟨v, hv, rfl⟩ := List.mem_map.mp hd
  rw [Nat.isDigit_digitChar, decide_eq_true_eq]
  exact hvalues v hv

theorem DecimalSpells.append {digits digits' : Text} {m n : ℕ} (h : DecimalSpells digits m)
    (h' : DecimalSpells digits' n) :
    DecimalSpells (digits ++ digits') (m * 10 ^ digits'.length + n) := by
  obtain ⟨values, hvalues, rfl, rfl⟩ := h
  obtain ⟨values', hvalues', rfl, rfl⟩ := h'
  refine ⟨values ++ values', ?_, List.map_append.symm, ?_⟩
  · intro v hv
    exact (List.mem_append.mp hv).elim (hvalues v) (hvalues' v)
  · rw [List.reverse_append, Nat.ofDigits_append, List.length_map, List.length_reverse]
    ring

/-- The digits on both sides of the point, as one number, are the fraction scaled up. -/
theorem decimalValue_append {whole fraction : Text} {m n : ℕ} (hm : DecimalSpells whole m)
    (hn : DecimalSpells fraction n) :
    ((Text.decimalValue (whole ++ fraction) : ℕ) : ℚ) / (10 ^ fraction.length : ℕ) =
      m + n / 10 ^ fraction.length := by
  have hboth := hm.append hn
  have hpos : (0 : ℚ) < 10 ^ fraction.length := by positivity
  rw [← (decimalSpells_iff hboth.isDigit _).mp hboth]
  push_cast
  field_simp

/-- Digits, a point and digits denote one fraction. -/
theorem denotes_iff {whole fraction : Text} (hne : whole ≠ []) (hne' : fraction ≠ [])
    (h : ∀ d ∈ whole, d.isDigit) (h' : ∀ d ∈ fraction, d.isDigit) (r : ℚ) :
    Denotes (whole ++ '.' :: fraction) r ↔
      r = (Text.decimalValue (whole ++ fraction) : ℕ) / (10 ^ fraction.length : ℕ) := by
  constructor
  · rintro ⟨whole', fraction', heq, -, -, m, n, hm, hn, rfl⟩
    have hpoint : '.' ∉ whole := fun hmem => nomatch h '.' hmem
    have hpoint' : '.' ∉ fraction := fun hmem => nomatch h' '.' hmem
    obtain ⟨rfl, -, rfl⟩ := (List.append_cons_inj_of_notMem hpoint hpoint').mp heq
    exact (decimalValue_append hm hn).symm
  · rintro rfl
    have hm := (decimalSpells_iff h _).mpr rfl
    have hn := (decimalSpells_iff h' _).mpr rfl
    exact ⟨whole, fraction, rfl, hne, hne', _, _, hm, hn, decimalValue_append hm hn⟩

/-! ## Floats are read as fractions -/

theorem floatValue_none_iff {r : ℚ} {result : Option Binary64} (h : Binary64.Rounds r result) :
    result.map Literal.float = none ↔ 2 ^ 1024 - 2 ^ 970 ≤ r :=
  Option.map_eq_none_iff.trans h.none_iff

theorem floatValue_nearest {r : ℚ} {result : Option Binary64} (h : Binary64.Rounds r result)
    (hr : 0 ≤ r) {v : Literal} (hv : v ∈ result.map Literal.float) : ∃ x, v = .float x ∧
      x.IsNearest r ∧ (r < 2 ^ (-1022 : ℤ) → x.exponent = -1074) ∧
        (x = .zero ↔ r ≤ 2 ^ (-1075 : ℤ)) := by
  obtain ⟨x, hx, rfl⟩ := Option.mem_map.mp hv
  have hnearest := h.isNearest x hx
  exact ⟨x, rfl, hnearest, hnearest.exponent_of_lt, hnearest.eq_zero_iff hr⟩

/-- The float without a value has one fault, its text. -/
theorem faults_floatLexeme (whole fraction : Text) (p : Position) :
    let t := (floatLexeme whole fraction).placed p
    (floatLexeme whole fraction).faults.map (Fault.placed p) =
      if t.value = none then [⟨.malformedNumber, t.start, t.lexeme⟩] else [] := by
  simp only [floatLexeme, valueFaults, Lexeme.placed, Option.isNone_iff_eq_none]
  split
  · rfl
  · rfl

/-- In every scan, each float denotes one fraction, and it is read as this fraction. -/
theorem floats_are_read_as_fractions (origin : Position) (source : Text) {t : Token}
    (ht : t ∈ (scanFrom origin source).tokens) (hk : t.kind = .floatLiteral) :
    ∃ r, (∀ q, Denotes t.lexeme q ↔ q = r) ∧ ReadAsFraction (scanFrom origin source) t r := by
  rcases mem_tokens_scanFrom.mp ht with ⟨front, l, back, hps, rfl⟩ | rfl
  · obtain ⟨whole, fraction, rfl, hne, hne', hdigits, hdigits', hstop⟩ :=
      (lexeme_stands_of_pieces hps).of_float hk
    have hrounds := Binary64.rounds_ofRatio? (Text.decimalValue (whole ++ fraction))
      (Nat.pow_pos (by decide) : 0 < 10 ^ fraction.length)
    refine ⟨_, denotes_iff hne hne' hdigits hdigits', ?_⟩
    have hhead : (floatLexeme whole fraction).text.head? ≠ some '.' := by
      obtain ⟨d, ds, rfl⟩ := List.exists_cons_of_ne_nil hne
      rintro ⟨⟩
      cases hdigits '.' List.mem_cons_self
    have herrors := errorsIn_placed hps (fun h => nomatch h) hhead origin
    exact
      { no_value_iff := floatValue_none_iff hrounds
        nearest := fun v => floatValue_nearest hrounds (by positivity)
        errors := by rw [herrors, faults_floatLexeme]
        number_errors := by rw [herrors, numberErrors_placed hps (.inr rfl) hstop] }
  · cases hk

/-- After a number of 310 digits a tenth is read, and then a number that rounds to the least one
after zero. -/
theorem three_floats_of_one_scan :
    let zeros := List.replicate 309 '0'
    let source := '1' :: zeros ++ ".0 0.1 0.".toList ++ zeros ++ "000000000000004".toList
    let s := scanFrom .start source
    let huge := '1' :: zeros ++ ".0".toList
    let tiny := '0' :: '.' :: zeros ++ "000000000000004".toList
    let place (n : ℕ) : Position := ⟨1, n + 1, n⟩
    let first : Token := ⟨.floatLiteral, huge, place 0, place 312, none⟩
    let second : Token := ⟨.floatLiteral, "0.1".toList, place 313, place 316,
      (Binary64.ofParts? 7205759403792794 (-56)).map .float⟩
    let third : Token := ⟨.floatLiteral, tiny, place 317, place 643,
      (Binary64.ofParts? 1 (-1074)).map .float⟩
    (first ∈ s.tokens ∧
      ∃ r, (∀ q, Denotes first.lexeme q ↔ q = r) ∧ ReadAsFraction s first r) ∧
    (second ∈ s.tokens ∧
      ∃ r, (∀ q, Denotes second.lexeme q ↔ q = r) ∧ ReadAsFraction s second r) ∧
    third ∈ s.tokens ∧ ∃ r, (∀ q, Denotes third.lexeme q ↔ q = r) ∧ ReadAsFraction s third r := by
  intro zeros source s huge tiny place first second third
  have hfirst : first ∈ s.tokens := by decide +kernel
  have hsecond : second ∈ s.tokens := by decide +kernel
  have hthird : third ∈ s.tokens := by decide +kernel
  exact ⟨⟨hfirst, floats_are_read_as_fractions .start source hfirst rfl⟩,
    ⟨hsecond, floats_are_read_as_fractions .start source hsecond rfl⟩,
    hthird, floats_are_read_as_fractions .start source hthird rfl⟩

end Lexis
