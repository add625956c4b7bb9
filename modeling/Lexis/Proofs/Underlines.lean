-- The law of the underline: the snippet of an error quotes the line that the error stands in, and
-- the carets stand under the offending text. A carriage return at the end of a line is not shown.
-- Where the offending text ends in it, a caret stands for it all the same, past the quoted line.
import Lexis.Diagnostic.OfError
import Lexis.Diagnostic.Render
import Lexis.Proofs.LineTable

namespace Lexis

/-! ## What is shown -/

/-- The margin of a line of a snippet. The line of carets has no label. -/
def margin (number : Nat) (label : Text) : Text :=
  Text.padLeft (max 3 (Text.ofNat number).length) ' ' label ++ [' ', '|', ' ']

/-- The lines of a diagnostic that quotes a line of its file, with carets after a part of it. Under
that part stands a tab where the line has a tab, and a blank everywhere else. -/
def quotingLines (d : Diagnostic) (f : SourceFile) (before rest : Text) (carets : Nat) :
    List Text :=
  [d.header, d.locator f,
    margin d.span.start.line (Text.ofNat d.span.start.line) ++ (before ++ rest),
    margin d.span.start.line [] ++
      ((before.map fun c => if c = '\t' then '\t' else ' ') ++ Text.filled carets '^')] ++
    d.notes.map (Diagnostic.remark .note) ++ d.helps.map (Diagnostic.remark .help)

/-- A text as its line shows it. From the text on the line is `rest`, and `under` and `behind` are
shown of it: what the line shows of the text, and what stands behind. `unshown` counts the carriage
return that a text on one line loses when the line ends there. -/
structure Underline (text rest under behind : Text) (unshown : Nat) : Prop where
  shown : rest.dropReturn = under ++ behind
  under_ne_nil : under ≠ []
  on_one_line : '\n' ∉ text → text = under ++ Text.filled unshown '\r'
  on_more_lines : '\n' ∈ text →
    under = Text.dropReturn (text.takeWhile (· ≠ '\n')) ∧ behind = [] ∧ unshown = 0
  unshown_eq : unshown = if rest = text ∧ text.getLast? = some '\r' then 1 else 0
  at_end : unshown ≠ 0 → behind = []

/-- An error as its file shows it. Its line is `before` and `rest`, and is quoted as `before`,
`under` and `behind`. The carets stand under `under`, and `unshown` more of them past the line. -/
structure Underlined (f : SourceFile) (e : LexicalError) (before rest under behind : Text)
    (unshown : Nat) : Prop where
  line : (f.content.splitOn '\n')[e.position.line - 1]? = some (before ++ rest)
  column : e.position.column = before.length + 1
  underline : Underline e.text rest under behind unshown
  quoted : f.line e.position.line = .ok (before ++ (under ++ behind))
  rendered : e.toDiagnostic.render (some f) = Text.join ['\n']
    (quotingLines e.toDiagnostic f before (under ++ behind) (under.length + unshown))

/-! ## The text of an error -/

/-- What is wrong with a token that begins with no blank begins with no blank. -/
theorem Token.Faulty.first {t : Token} {rest : Text} {e : LexicalError} (h : t.Faulty rest e)
    (ht : ∃ c s, t.lexeme = c :: s ∧ isBlank c = false) :
    ∃ c s, e.text = c :: s ∧ isBlank c = false := by
  cases h with
  | unclosedString => exact ht
  | @badEscape _ _ _ _ raw hs hss =>
    obtain ⟨next, hstands⟩ :=
      hs.well_formed.segmented.stands_of_mem (s := .malformed raw) (by rw [hss]; simp)
    rcases hstands.plain_or_backslash with ⟨c, hplain, -⟩ | ⟨s, hraw⟩
    · cases hplain
    · exact ⟨'\\', s, hraw, by decide⟩
  | noValue => exact ht
  | point => exact ⟨'.', [], rfl, by decide⟩
  | unclosedComment => exact ht

/-- An error does not begin with a blank. -/
theorem error_first {origin : Position} {source : Text} {e : LexicalError}
    (he : e ∈ (scanFrom origin source).errors) : ∃ c t, e.text = c :: t ∧ isBlank c = false := by
  rw [scanFrom_eq] at he
  obtain ⟨front, x, back, hps, hx⟩ := mem_errorsOf.mp he
  cases stands_of_pieces hps with
  | blank => cases hx
  | stray hblank =>
    rw [List.mem_singleton.mp hx]
    exact ⟨_, [], rfl, hblank⟩
  | lexeme hl =>
    obtain ⟨f, hf, rfl⟩ := List.mem_map.mp hx
    exact (hl.faulty hf _).first hl.first

/-! ## The rest of a line -/

/-- A line from a text on: the text and what stands behind it, or the first line of the text. -/
theorem rest_of_line {text after rest next : Text} (h : text ++ after = rest ++ next)
    (hrest : '\n' ∉ rest) (hnext : next = [] ∨ ∃ u, next = '\n' :: u) :
    ('\n' ∉ text ∧ ∃ behind, rest = text ++ behind) ∨
      ('\n' ∈ text ∧ rest = text.takeWhile (· ≠ '\n')) := by
  rcases List.append_eq_append_iff.mp h with ⟨behind, rfl, -⟩ | ⟨more, rfl, hmore⟩
  · exact .inl ⟨fun hmem => hrest (List.mem_append_left _ hmem), behind, rfl⟩
  · cases more with
    | nil => exact .inl ⟨by simpa using hrest, [], by simp⟩
    | cons c more =>
      obtain rfl : c = '\n' := by
        rcases hnext with rfl | ⟨u, rfl⟩
        · cases hmore
        · exact (List.cons.inj hmore).1.symm
      refine .inr ⟨by simp, ?_⟩
      have hall : ∀ c ∈ rest, decide (c ≠ '\n') = true := fun c hc =>
        decide_eq_true (ne_of_mem_of_not_mem hc hrest)
      rw [List.takeWhile_append_of_pos hall, List.takeWhile_cons_of_neg (by simp),
        List.append_nil]

theorem dropReturn_append {s t : Text} (ht : t ≠ []) :
    (s ++ t).dropReturn = s ++ t.dropReturn := by
  unfold Text.dropReturn
  rw [List.getLast?_append_of_ne_nil _ ht, List.dropLast_append_of_ne_nil ht]
  split
  · rfl
  · rfl

theorem dropReturn_ne_nil {c : Char} (hc : c ≠ '\r') (t : Text) :
    Text.dropReturn (c :: t) ≠ [] := by
  intro hnil
  rcases dropReturn_cases (c :: t) with heq | ⟨heq, -⟩
  · rw [hnil] at heq
    exact hc (List.cons.inj heq).1
  · rw [hnil] at heq
    cases heq

/-- A text that does not begin with a blank is underlined in the line where it stands. -/
theorem exists_underline {text rest : Text}
    (hfirst : ∃ c t, text = c :: t ∧ isBlank c = false)
    (hrest : ('\n' ∉ text ∧ ∃ behind, rest = text ++ behind) ∨
      ('\n' ∈ text ∧ rest = text.takeWhile (· ≠ '\n'))) :
    ∃ under behind unshown, Underline text rest under behind unshown := by
  obtain ⟨c, t, rfl, hblank⟩ := hfirst
  have hreturn : c ≠ '\r' := by
    rintro rfl
    cases hblank
  rcases hrest with ⟨hone, behind, rfl⟩ | ⟨hmore, rfl⟩
  · by_cases hbehind : behind = []
    · subst hbehind
      rw [List.append_nil]
      -- only here can the carriage return of the line be one of the text
      rcases dropReturn_cases (c :: t) with heq | ⟨heq, hlast⟩
      · refine ⟨_, [], 1, (List.append_nil _).symm, dropReturn_ne_nil hreturn t, fun _ => heq,
          fun hmem => absurd hmem hone, ?_, fun _ => rfl⟩
        rw [if_pos ⟨rfl, by rw [heq]; exact List.getLast?_concat⟩]
      · refine ⟨_, [], 0, ?_, List.cons_ne_nil c t, fun _ => (List.append_nil _).symm,
          fun hmem => absurd hmem hone, ?_, fun _ => rfl⟩
        · rw [List.append_nil, ← heq]
        · rw [if_neg fun h => hlast h.2]
    · refine ⟨c :: t, behind.dropReturn, 0, dropReturn_append hbehind, List.cons_ne_nil c t,
        fun _ => (List.append_nil _).symm, fun hmem => absurd hmem hone, ?_, fun h => absurd rfl h⟩
      rw [if_neg fun h => hbehind (List.append_right_eq_self.mp h.1)]
  · have hc : c ≠ '\n' := by
      rintro rfl
      cases hblank
    refine ⟨_, [], 0, (List.append_nil _).symm, ?_, fun hone => absurd hmore hone,
      fun _ => ⟨rfl, rfl, rfl⟩, ?_, fun _ => rfl⟩
    · have hkeep : (c :: t).takeWhile (· ≠ '\n') = c :: t.takeWhile (· ≠ '\n') :=
        List.takeWhile_cons_of_pos (decide_eq_true hc)
      rw [hkeep]
      exact dropReturn_ne_nil hreturn _
    · rw [if_neg]
      rintro ⟨heq, -⟩
      rw [List.takeWhile_eq_self_iff] at heq
      exact absurd (heq _ hmore) (by decide)

/-! ## The snippet -/

/-- A snippet that starts behind a part of its line. -/
theorem Snippet.lines_eq {s : Snippet} {before rest : Text} {carets : Nat}
    (hline : s.line = before ++ rest) (hstart : s.startColumn = before.length + 1)
    (hstop : s.stopColumn = before.length + 1 + carets) (hcarets : 0 < carets) :
    s.lines = [margin s.number (Text.ofNat s.number) ++ (before ++ rest),
      margin s.number [] ++ (before.map paddingChar ++ Text.filled carets '^')] := by
  have hpadding : s.padding = before.map paddingChar := by
    have hcount : s.startColumn - 1 = before.length := by omega
    have hpast : before.length - s.line.length = 0 := by
      rw [hline, List.length_append]
      omega
    simp only [padding, hcount, hpast]
    rw [hline, List.take_left, Text.filled, List.replicate_zero, List.append_nil]
  have hwidth : max 1 (s.stopColumn - s.startColumn) = carets := by omega
  rw [lines, hpadding, Snippet.carets, hwidth, hline, List.append_assoc]
  rfl

/-- A diagnostic whose span starts behind a part of a line. -/
theorem Diagnostic.lines_of_line {d : Diagnostic} {f : SourceFile} {before rest : Text}
    {carets : Nat} (hline : f.line d.span.start.line = .ok (before ++ rest))
    (hstart : d.span.start.column = before.length + 1)
    (hstop : (if d.span.stop.line = d.span.start.line then d.span.stop.column
      else (before ++ rest).length + 1) = before.length + 1 + carets)
    (hcarets : 0 < carets) : d.lines (some f) = quotingLines d f before rest carets := by
  have hsnippet : d.snippet? f = some ⟨before ++ rest, d.span.start.line,
      d.span.start.column, before.length + 1 + carets⟩ := by
    simp only [snippet?, hline, hstop]
  simp only [lines, Option.map_some, Option.getD_some, excerpt, hsnippet]
  rw [Snippet.lines_eq rfl hstart rfl hcarets]
  rfl

/-- Where the underline of an error stops. -/
theorem Underline.stop_eq {e : LexicalError} {before rest under behind : Text} {unshown : Nat}
    (h : Underline e.text rest under behind unshown)
    (hcolumn : e.position.column = before.length + 1) :
    (if e.span.stop.line = e.span.start.line then e.span.stop.column
      else (before ++ (under ++ behind)).length + 1) =
      before.length + 1 + (under.length + unshown) := by
  have hline : e.span.stop.line = e.span.start.line + e.text.count '\n' :=
    Position.line_advancedOver e.position e.text
  by_cases hmem : '\n' ∈ e.text
  · have hpos := List.count_pos_iff.mpr hmem
    obtain ⟨-, rfl, rfl⟩ := h.on_more_lines hmem
    rw [if_neg (by omega)]
    simp only [List.length_append, List.length_nil]
    omega
  · have hlength := congrArg List.length (h.on_one_line hmem)
    have hstop : e.span.stop.column = e.position.column + e.text.length :=
      Position.column_advancedOver hmem e.position
    rw [if_pos (by rw [hline, List.count_eq_zero_of_not_mem hmem, Nat.add_zero]), hstop, hcolumn,
      hlength, List.length_append, Text.filled, List.length_replicate]

/-! ## The law of the underline -/

/-- Whatever a file holds, each of its errors is underlined in its line. -/
theorem errors_are_underlined (f : SourceFile) {e : LexicalError}
    (he : e ∈ (tokenize f.content).errors) :
    ∃ before rest under behind unshown, Underlined f e before rest under behind unshown := by
  obtain ⟨upTo, after, hsource, hposition⟩ := error_quotes_source he
  obtain ⟨front, before, rest, next, hupTo, hcut⟩ := exists_line_of_place hsource
  have hline : e.position.line = upTo.count '\n' + 1 := by rw [hposition, line_of_place]
  have hcolumn : e.position.column = before.length + 1 := by
    rw [hposition, hupTo, column_of_line hcut.closed fun hmem =>
      hcut.no_line_feed (List.mem_append_left _ hmem)]
  have hafter : e.text ++ after = rest ++ next := by
    have hcontent := hsource.symm.trans hcut.cut
    rw [hupTo] at hcontent
    simpa only [List.append_assoc, List.append_cancel_left_eq] using hcontent
  have hrest := rest_of_line hafter (fun hmem => hcut.no_line_feed (List.mem_append_right _ hmem))
    hcut.ends
  obtain ⟨under, behind, unshown, hunderline⟩ := exists_underline (error_first he) hrest
  have hquoted : f.line e.position.line = .ok (before ++ (under ++ behind)) := by
    have hne : rest ≠ [] := by
      rintro rfl
      have hshown := hunderline.shown
      simp [Text.dropReturn, hunderline.under_ne_nil] at hshown
    rw [hline, hcut.line_eq, dropReturn_append hne, hunderline.shown]
  have hcarets : 0 < under.length + unshown :=
    Nat.add_pos_left (List.length_pos_iff.mpr hunderline.under_ne_nil) unshown
  refine ⟨before, rest, under, behind, unshown, ?_, hcolumn, hunderline, hquoted, ?_⟩
  · rw [hline, Nat.add_sub_cancel]
    exact hcut.splitOn_eq
  · rw [Diagnostic.render, Diagnostic.lines_of_line (d := e.toDiagnostic) hquoted hcolumn
      (hunderline.stop_eq hcolumn) hcarets]

theorem an_open_comment_is_underlined_on_its_line :
    let f : SourceFile := ⟨"main.imp".toList, "\té /* a\r\n*".toList⟩
    let e : LexicalError := ⟨.unterminatedComment, ⟨1, 4, 4⟩, "/* a\r\n*".toList⟩
    e ∈ (tokenize f.content).errors ∧
      ∃ before rest under behind unshown, Underlined f e before rest under behind unshown := by
  intro f e
  have he : e ∈ (tokenize f.content).errors := by decide +kernel
  exact ⟨he, errors_are_underlined f he⟩

/-- A string that its line cuts off takes the carriage return in front of the line feed. The line
is shown without it, and the last caret stands under nothing. -/
theorem a_caret_stands_past_a_carriage_return :
    let f : SourceFile := ⟨"main.imp".toList, "\"a\r\n".toList⟩
    let e : LexicalError := ⟨.unterminatedString, .start, "\"a\r".toList⟩
    e ∈ (tokenize f.content).errors ∧ f.line 1 = .ok "\"a".toList ∧
      (e.toDiagnostic.lines (some f)).take 4 =
        ["error[E1002]: unterminated string literal `\\\"a\\r`".toList,
          "  --> main.imp:1:1".toList, "  1 | \"a".toList, "    | ^^^".toList] ∧
      ¬ ∃ before rest under behind, Underlined f e before rest under behind 0 := by
  intro f e
  have hline : f.line 1 = .ok "\"a".toList := by decide +kernel
  refine ⟨by decide +kernel, hline, by decide +kernel, ?_⟩
  rintro ⟨before, rest, under, behind, h⟩
  have hquoted : before ++ (under ++ behind) = "\"a".toList :=
    Except.ok.inj (h.quoted.symm.trans hline)
  have hunder : "\"a\r".toList = under ++ [] := h.underline.on_one_line (by decide)
  -- three characters of the text would have to stand in a line of two
  have hlength := congrArg List.length hquoted
  rw [List.append_nil] at hunder
  simp only [← hunder, List.length_append] at hlength
  have hthree : "\"a\r".toList.length = 3 := by decide
  have htwo : "\"a".toList.length = 2 := by decide
  omega

end Lexis
