-- The grammar of string literals: which segment stands where. The reader
-- finds the one way to cut the body of a string into segments.
import Lexis.Scan.Quoted
import Mathlib.Data.List.TakeWhile

namespace Lexis

/-! ## The grammar -/

/-- The text does not go on with a character of the class. -/
def Stops (p : Char → Bool) (rest : Text) : Prop := ∀ c ∈ rest.head?, p c = false

/-- The two quotes that a string may stand between. -/
def IsQuote (c : Char) : Prop := c = '"' ∨ c = '\''

/-- The text of an escape by number. -/
def numbered (digits : Text) : Text := '\\' :: 'u' :: '{' :: digits ++ ['}']

/-- A segment as it may stand in a string with this quote, given the text after it. -/
inductive Segment.Stands (quote : Char) : Segment → Text → Prop
  | plain {c : Char} {r : Text} : c ≠ quote → c ≠ '\\' → c ≠ '\n' → Stands quote (.plain c) r
  | short {c d : Char} {r : Text} : shortEscape? c = some d →
      Stands quote (.escape ['\\', c] d) r
  | named {digits : Text} {c : Char} {r : Text} : charOfHex? digits = some c →
      Stands quote (.escape (numbered digits) c) r
  | unknown {c : Char} {r : Text} : c ≠ '\n' → c ≠ 'u' → shortEscape? c = none →
      Stands quote (.malformed ['\\', c]) r
  | unbraced {r : Text} : r.head? ≠ some '{' → Stands quote (.malformed ['\\', 'u']) r
  | unclosed {digits r : Text} : (∀ d ∈ digits, isHexDigit d) → Stops isHexDigit r →
      r.head? ≠ some '}' → Stands quote (.malformed ('\\' :: 'u' :: '{' :: digits)) r
  | unnamed {digits r : Text} : (∀ d ∈ digits, isHexDigit d) → charOfHex? digits = none →
      Stands quote (.malformed (numbered digits)) r
  | backslash {r : Text} : Stops (· ≠ '\n') r → Stands quote .backslash r

/-- Each segment stands in front of the segments after it and of what follows them all. -/
inductive Segmented (quote : Char) : List Segment → Text → Prop
  | nil {tail : Text} : Segmented quote [] tail
  | cons {s : Segment} {ss : List Segment} {tail : Text} :
      s.Stands quote (ss.flatMap Segment.raw ++ tail) → Segmented quote ss tail →
      Segmented quote (s :: ss) tail

/-- The closing quote of a body, if it has one, and the text after the string. -/
def QuotedBody.tail (quote : Char) (b : QuotedBody) : Text :=
  (bif b.closed then [quote] else []) ++ b.rest

/-- A body of a string. Only the end of the line leaves it without its closing quote. -/
structure QuotedBody.WellFormed (quote : Char) (b : QuotedBody) : Prop where
  segmented : Segmented quote b.segments (b.tail quote)
  cut_off : b.closed = false → Stops (· ≠ '\n') b.rest

/-! ## Runs of a class -/

theorem stops_nil (p : Char → Bool) : Stops p [] := by
  intro c hc
  cases hc

theorem stops_cons_iff {p : Char → Bool} {c : Char} {r : Text} :
    Stops p (c :: r) ↔ p c = false := by
  unfold Stops
  simp

theorem stops_dropWhile (p : Char → Bool) (t : Text) : Stops p (t.dropWhile p) := by
  intro c hc
  have h := List.head?_dropWhile_not p t
  rw [hc] at h
  simpa using h

theorem takeWhile_of_stops {p : Char → Bool} {run rest : Text} (hrun : ∀ c ∈ run, p c)
    (hrest : Stops p rest) : (run ++ rest).takeWhile p = run := by
  rw [List.takeWhile_append_of_pos hrun]
  cases rest with
  | nil => simp
  | cons c r => simp [stops_cons_iff.mp hrest]

theorem dropWhile_of_stops {p : Char → Bool} {run rest : Text} (hrun : ∀ c ∈ run, p c)
    (hrest : Stops p rest) : (run ++ rest).dropWhile p = rest := by
  rw [List.dropWhile_append_of_pos hrun]
  cases rest with
  | nil => rfl
  | cons c r => simp [stops_cons_iff.mp hrest]

/-! ## The reader of escapes -/

theorem isHexDigit_of_charOfHex? {digits : Text} {c : Char} (h : charOfHex? digits = some c) :
    ∀ d ∈ digits, isHexDigit d := by
  intro d hd
  unfold charOfHex? at h
  split at h
  · cases h
  · rename_i hn
    simp only [not_or, Decidable.not_not, List.all_eq_true] at hn
    exact hn.2.2 d hd

theorem shortEscape?_ne {c d : Char} (h : shortEscape? c = some d) : c ≠ '\n' ∧ c ≠ 'u' := by
  constructor
  · rintro rfl; cases h
  · rintro rfl; cases h

theorem stands_readNumberEscape (quote : Char) (r : Text) :
    (readNumberEscape r).1.Stands quote (readNumberEscape r).2 := by
  unfold readNumberEscape
  split
  · rename_i t
    have hdigits : ∀ d ∈ t.takeWhile isHexDigit, isHexDigit d := fun d hd =>
      List.mem_takeWhile_imp hd
    have hstop := stops_dropWhile isHexDigit t
    simp only
    split
    · split
      · rename_i hc; exact .named hc
      · rename_i hc; exact .unnamed hdigits hc
    · rename_i rest hne
      refine .unclosed hdigits hstop ?_
      intro hh
      cases hr : t.dropWhile isHexDigit with
      | nil => rw [hr] at hh; cases hh
      | cons x y =>
        rw [hr] at hh
        simp only [List.head?_cons, Option.some.injEq] at hh
        subst hh
        exact hne y hr
  · rename_i hne
    refine .unbraced ?_
    intro hh
    cases r with
    | nil => cases hh
    | cons x y =>
      simp only [List.head?_cons, Option.some.injEq] at hh
      subst hh
      exact hne y rfl

theorem stands_readEscape (quote : Char) (r : Text) :
    (readEscape r).1.Stands quote (readEscape r).2 := by
  unfold readEscape
  split
  · exact .backslash (stops_nil _)
  · rename_i c t
    split
    · rename_i hn
      exact .backslash (stops_cons_iff.mpr (by simp [hn]))
    · rename_i hn
      split
      · exact stands_readNumberEscape quote t
      · rename_i hu
        split
        · rename_i d hd; exact .short hd
        · rename_i hd; exact .unknown hn hu hd

theorem readNumberEscape_numbered {digits r : Text} (h : ∀ d ∈ digits, isHexDigit d) :
    readNumberEscape ('{' :: (digits ++ '}' :: r)) =
      match charOfHex? digits with
      | some c => (.escape (numbered digits) c, r)
      | none => (.malformed (numbered digits), r) := by
  have hstop : Stops isHexDigit ('}' :: r) := stops_cons_iff.mpr (by decide)
  have hrun := takeWhile_of_stops h hstop
  have hrest := dropWhile_of_stops h hstop
  cases hc : charOfHex? digits with
  | none => simp only [readNumberEscape, hrun, hrest, hc, numbered]
  | some c => simp only [readNumberEscape, hrun, hrest, hc, numbered]

/-- The reader finds the segment that stands at a backslash. -/
theorem readEscape_of_stands {quote : Char} {s : Segment} {r t : Text} (h : s.Stands quote r)
    (ht : s.raw ++ r = '\\' :: t) : readEscape t = (s, r) := by
  cases h with
  | plain _ hb _ =>
    simp only [Segment.raw, List.cons_append, List.cons.injEq] at ht
    exact absurd ht.1 hb
  | short hd =>
    obtain ⟨hn, hu⟩ := shortEscape?_ne hd
    simp only [Segment.raw, List.cons_append, List.cons.injEq, true_and] at ht
    simp [← ht, readEscape, hn, hu, hd]
  | named hc =>
    simp only [Segment.raw, numbered, List.cons_append, List.append_assoc, List.cons.injEq,
      true_and, List.nil_append] at ht
    rw [← ht]
    simp [readEscape, readNumberEscape_numbered (isHexDigit_of_charOfHex? hc), hc]
  | unknown hn hu hd =>
    simp only [Segment.raw, List.cons_append, List.cons.injEq, true_and] at ht
    simp [← ht, readEscape, hn, hu, hd]
  | unbraced hbrace =>
    simp only [Segment.raw, List.cons_append, List.nil_append, List.cons.injEq, true_and] at ht
    rw [← ht]
    cases r with
    | nil => rfl
    | cons x r =>
      have hx : x ≠ '{' := fun hx => hbrace (by rw [hx]; rfl)
      simp [readEscape, readNumberEscape, hx]
  | @unclosed digits r hdigits hstop hclose =>
    simp only [Segment.raw, List.cons_append, List.cons.injEq, true_and] at ht
    rw [← ht]
    simp only [readEscape, readNumberEscape, takeWhile_of_stops hdigits hstop,
      dropWhile_of_stops hdigits hstop]
    cases r with
    | nil => rfl
    | cons x r =>
      have hx : x ≠ '}' := fun hx => hclose (by rw [hx]; rfl)
      simp [hx]
  | unnamed hdigits hc =>
    simp only [Segment.raw, numbered, List.cons_append, List.append_assoc, List.cons.injEq,
      true_and, List.nil_append] at ht
    rw [← ht]
    simp [readEscape, readNumberEscape_numbered hdigits, hc]
  | backslash hstop =>
    simp only [Segment.raw, List.cons_append, List.nil_append, List.cons.injEq, true_and] at ht
    subst ht
    cases r with
    | nil => rfl
    | cons x r =>
      have hx : x = '\n' := by simpa using stops_cons_iff.mp hstop
      simp [readEscape, hx]

/-! ## The reader of bodies -/

theorem QuotedBody.text_append_rest (quote : Char) (b : QuotedBody) :
    b.text quote ++ b.rest = b.segments.flatMap Segment.raw ++ b.tail quote := by
  simp [QuotedBody.text, QuotedBody.tail]

theorem QuotedBody.WellFormed.after {quote : Char} {s : Segment} {b : QuotedBody}
    (h : b.WellFormed quote) (hs : s.Stands quote (b.text quote ++ b.rest)) :
    (b.after s).WellFormed quote := by
  rw [text_append_rest] at hs
  exact ⟨.cons hs h.segmented, h.cut_off⟩

theorem wellFormed_readQuotedBody (quote : Char) (r : Text) :
    (readQuotedBody quote r).WellFormed quote := by
  fun_induction readQuotedBody quote r with
  | case1 => exact ⟨.nil, fun _ => stops_nil _⟩
  | case2 t => exact ⟨.nil, fun _ => stops_cons_iff.mpr (by simp)⟩
  | case3 t => exact ⟨.nil, fun h => by cases h⟩
  | case4 t found hq hn ih =>
    refine ih.after ?_
    rw [readQuotedBody_append]
    exact stands_readEscape quote t
  | case5 c t hn hq hb ih => exact ih.after (.plain hq hb hn)

/-- A segment that is no plain character begins with a backslash. -/
theorem Segment.Stands.plain_or_backslash {quote : Char} {s : Segment} {r : Text}
    (h : s.Stands quote r) :
    (∃ c, s = .plain c ∧ c ≠ quote ∧ c ≠ '\\' ∧ c ≠ '\n') ∨ ∃ t, s.raw = '\\' :: t := by
  cases h with
  | plain hq hb hn => exact .inl ⟨_, rfl, hq, hb, hn⟩
  | short => exact .inr ⟨_, rfl⟩
  | named => exact .inr ⟨_, rfl⟩
  | unknown => exact .inr ⟨_, rfl⟩
  | unbraced => exact .inr ⟨_, rfl⟩
  | unclosed => exact .inr ⟨_, rfl⟩
  | unnamed => exact .inr ⟨_, rfl⟩
  | backslash => exact .inr ⟨_, rfl⟩

theorem Segment.Stands.raw_ne_nil {quote : Char} {s : Segment} {r : Text}
    (h : s.Stands quote r) : s.raw ≠ [] := by
  rcases h.plain_or_backslash with ⟨c, rfl, -⟩ | ⟨t, ht⟩
  · exact List.cons_ne_nil _ _
  · rw [ht]
    exact List.cons_ne_nil _ _

/-- Each segment stands in front of the segments after it. -/
theorem segmented_iff {quote : Char} {ss : List Segment} {tail : Text} : Segmented quote ss tail ↔
    ∀ front s back, ss = front ++ s :: back →
      s.Stands quote (back.flatMap Segment.raw ++ tail) := by
  induction ss with
  | nil => exact ⟨fun _ front s back h => by simp at h, fun _ => .nil⟩
  | cons s ss ih =>
    constructor
    · rintro h front s' back hss
      cases h with
      | cons hs hrest =>
        cases front with
        | nil =>
          obtain ⟨rfl, rfl⟩ := List.cons.inj hss
          exact hs
        | cons s'' front => exact ih.mp hrest front s' back (List.cons.inj hss).2
    · intro h
      refine .cons (h [] s ss rfl) (ih.mpr ?_)
      rintro front s' back rfl
      exact h (s :: front) s' back rfl

theorem Segmented.stands_of_mem {quote : Char} {ss : List Segment} {tail : Text}
    (h : Segmented quote ss tail) {s : Segment} (hs : s ∈ ss) : ∃ rest, s.Stands quote rest := by
  obtain ⟨front, back, rfl⟩ := List.append_of_mem hs
  exact ⟨_, segmented_iff.mp h front s back rfl⟩

theorem Segmented.raw_ne_nil {quote : Char} {ss : List Segment} {tail : Text}
    (h : Segmented quote ss tail) : ∀ s ∈ ss, s.raw ≠ [] := by
  intro s hs
  obtain ⟨rest, hstands⟩ := h.stands_of_mem hs
  exact hstands.raw_ne_nil

/-- The reader goes over the segments that stand at the front, and then on. -/
theorem readQuotedBody_of_segmented {quote : Char} (hquote : IsQuote quote) {ss : List Segment}
    {tail : Text} (h : Segmented quote ss tail) :
    readQuotedBody quote (ss.flatMap Segment.raw ++ tail) =
      ⟨ss ++ (readQuotedBody quote tail).segments, (readQuotedBody quote tail).closed,
        (readQuotedBody quote tail).rest⟩ := by
  have hb : quote ≠ '\\' := by rcases hquote with rfl | rfl <;> decide
  induction h with
  | nil => rfl
  | @cons s ss tail hs _ ih =>
    have happ : (s :: ss).flatMap Segment.raw ++ tail =
        s.raw ++ (ss.flatMap Segment.raw ++ tail) := by
      rw [List.flatMap_cons, List.append_assoc]
    generalize ss.flatMap Segment.raw ++ tail = u at hs ih happ
    rw [happ]
    rcases hs.plain_or_backslash with ⟨c, rfl, hcq, hcb, hcn⟩ | ⟨t, ht⟩
    · simp only [Segment.raw, List.cons_append, List.nil_append]
      rw [readQuotedBody]
      simp only [hcn, hcq, hcb, if_false, ih]
      rfl
    · have hread := readEscape_of_stands hs (by rw [ht, List.cons_append])
      rw [ht, List.cons_append, readQuotedBody]
      simp only [Ne.symm hb, show ('\\' : Char) ≠ '\n' by decide, if_false, if_true, hread, ih]
      rfl

theorem readQuotedBody_quote {quote : Char} (hquote : IsQuote quote) (rest : Text) :
    readQuotedBody quote (quote :: rest) = ⟨[], true, rest⟩ := by
  have hn : quote ≠ '\n' := by rcases hquote with rfl | rfl <;> decide
  simp [readQuotedBody, hn]

theorem readQuotedBody_line_end {quote : Char} {rest : Text} (hend : Stops (· ≠ '\n') rest) :
    readQuotedBody quote rest = ⟨[], false, rest⟩ := by
  cases rest with
  | nil => simp [readQuotedBody]
  | cons c r =>
    have hc : c = '\n' := by simpa using stops_cons_iff.mp hend
    simp [readQuotedBody, hc]

/-- The reader finds the body that the grammar allows. So there is only one. -/
theorem QuotedBody.WellFormed.read {quote : Char} {b : QuotedBody} (h : b.WellFormed quote)
    (hquote : IsQuote quote) : readQuotedBody quote (b.text quote ++ b.rest) = b := by
  obtain ⟨ss, closed, rest⟩ := b
  rw [text_append_rest, readQuotedBody_of_segmented hquote h.segmented]
  cases closed with
  | true =>
    rw [show tail quote ⟨ss, true, rest⟩ = quote :: rest from rfl, readQuotedBody_quote hquote]
    simp
  | false =>
    rw [show tail quote ⟨ss, false, rest⟩ = rest from rfl, readQuotedBody_line_end (h.cut_off rfl)]
    simp

theorem readQuotedBody_iff {quote : Char} (hquote : IsQuote quote) {r : Text} {b : QuotedBody} :
    readQuotedBody quote r = b ↔ b.text quote ++ b.rest = r ∧ b.WellFormed quote := by
  constructor
  · rintro rfl
    exact ⟨readQuotedBody_append quote r, wellFormed_readQuotedBody quote r⟩
  · rintro ⟨rfl, h⟩
    exact h.read hquote

end Lexis
