-- The law of the blocks: diagnostics are printed with an empty line between neighbours, and the
-- diagnostic of an error holds no empty line itself. So what is printed for a source falls apart
-- into the diagnostics of its errors again.
import Lexis.Diagnostic.Handler
import Lexis.Proofs.QuotedMessages
import Lexis.Proofs.Underlines

namespace Lexis

/-! ## Blocks -/

/-- The parts of a text between empty lines. It is cut at each two line feeds, from the left. -/
def blocks : Text → List Text
  | [] => [[]]
  | '\n' :: '\n' :: t => [] :: blocks t
  | c :: t => (blocks t).modifyHead (c :: ·)

/-- The lines that are printed for an error: the header with the code, the place, the quoted line,
the carets, and one for each note and each help. -/
def errorLines (f : SourceFile) (e : LexicalError) (quoted padding : Text) (carets : Nat) :
    List Text :=
  ["error[".toList ++ e.kind.code.display ++ "]: ".toList ++ e.summary,
    "  --> ".toList ++ f.name ++ ':' :: e.position.display,
    margin e.position.line (Text.ofNat e.position.line) ++ quoted,
    margin e.position.line [] ++ (padding ++ Text.filled carets '^')] ++
    e.kind.notes.map ("   = note: ".toList ++ ·) ++ e.kind.helps.map ("   = help: ".toList ++ ·)

/-- What is printed for an error of a file. It quotes the line that the error stands in, and has
carets after blanks. No line of it is empty. -/
structure ErrorBlock (f : SourceFile) (e : LexicalError) (block : Text) : Prop where
  rendered : block = e.toDiagnostic.render (some f)
  lines : ∃ quoted padding carets, f.line e.position.line = .ok quoted ∧
    (∀ c ∈ padding, c = ' ' ∨ c = '\t') ∧ 0 < carets ∧
    block.splitOn '\n' = errorLines f e quoted padding carets
  no_empty_line : [] ∉ block.splitOn '\n'

/-- A line that is not empty. -/
def FilledLine (l : Text) : Prop := l ≠ [] ∧ '\n' ∉ l

/-! ## Cutting lines at empty lines -/

theorem blocks_append {l : Text} (h : '\n' ∉ l) (t : Text) :
    blocks (l ++ t) = (blocks t).modifyHead (l ++ ·) := by
  induction l with
  | nil => exact (congrFun List.modifyHead_id _).symm
  | cons c l ih =>
    have hc : c ≠ '\n' := fun heq => h (heq ▸ List.mem_cons_self)
    rw [List.cons_append, blocks, ih fun hmem => h (List.mem_cons_of_mem _ hmem),
      List.modifyHead_modifyHead]
    · rfl
    · intro _ heq
      exact absurd heq hc

/-- One line feed does not cut. -/
theorem blocks_line_feed {l : Text} (h : FilledLine l) (t : Text) :
    blocks ('\n' :: (l ++ t)) = (blocks (l ++ t)).modifyHead ('\n' :: ·) := by
  obtain ⟨c, l, rfl⟩ := List.exists_cons_of_ne_nil h.1
  have hc : c ≠ '\n' := fun heq => h.2 (heq ▸ List.mem_cons_self)
  rw [List.cons_append, blocks]
  intro _ _ heq
  exact hc (List.cons.inj heq).1

/-- Lines that are not empty stay in one block, up to where the text is cut after them. -/
theorem blocks_lines {ls : List Text} (hne : ls ≠ []) (hls : ∀ l ∈ ls, FilledLine l)
    {tail : Text} {bs : List Text} (htail : blocks tail = [] :: bs) :
    blocks (Text.join ['\n'] ls ++ tail) = Text.join ['\n'] ls :: bs := by
  induction ls with
  | nil => exact absurd rfl hne
  | cons l ls ih =>
    have hl := hls l List.mem_cons_self
    cases ls with
    | nil =>
      rw [Text.join_singleton, blocks_append hl.2, htail, List.modifyHead_cons, List.append_nil]
    | cons m ls =>
      have hrest := ih (List.cons_ne_nil m ls) fun x hx => hls x (List.mem_cons_of_mem _ hx)
      have hm := hls m (List.mem_cons_of_mem _ List.mem_cons_self)
      obtain ⟨more, hmore⟩ : ∃ more, Text.join ['\n'] (m :: ls) = m ++ more := by
        cases ls with
        | nil => exact ⟨[], by rw [Text.join_singleton, List.append_nil]⟩
        | cons k ls => exact ⟨_, Text.join_cons_cons _ _ _ _⟩
      rw [hmore, List.append_assoc] at hrest
      rw [Text.join_cons_cons, hmore, List.append_assoc, blocks_append hl.2, List.append_assoc,
        List.singleton_append, List.append_assoc, blocks_line_feed hm, hrest]
      rfl

/-- Texts of such lines with an empty line between neighbours are cut into the texts again. -/
theorem blocks_join {lss : List (List Text)} (hne : lss ≠ [])
    (h : ∀ ls ∈ lss, ls ≠ [] ∧ ∀ l ∈ ls, FilledLine l) :
    blocks (Text.join ['\n', '\n'] (lss.map (Text.join ['\n']))) = lss.map (Text.join ['\n']) := by
  induction lss with
  | nil => exact absurd rfl hne
  | cons ls lss ih =>
    obtain ⟨hls, hfilled⟩ := h ls List.mem_cons_self
    cases lss with
    | nil =>
      have hblock := blocks_lines hls hfilled (show blocks [] = [[]] from rfl)
      rw [List.append_nil] at hblock
      rw [List.map_singleton, Text.join_singleton, hblock]
    | cons ms lss =>
      have hrest := ih (List.cons_ne_nil ms lss) fun x hx => h x (List.mem_cons_of_mem _ hx)
      rw [List.map_cons, List.map_cons, Text.join_cons_cons]
      exact blocks_lines hls hfilled (congrArg ([] :: ·) hrest)

example : blocks "a\nb\n\nc".toList = ["a\nb".toList, "c".toList] := by decide +kernel

/-! ## The lines of an error -/

theorem no_line_feed_ofNat (n : Nat) : '\n' ∉ Text.ofNat n := by
  intro hmem
  have hdigit := Nat.isDigit_of_mem_toDigits (by decide) (by decide) hmem
  cases hdigit

theorem no_line_feed_dropReturn {t : Text} (h : '\n' ∉ t) : '\n' ∉ t.dropReturn := by
  rcases dropReturn_cases t with heq | ⟨heq, -⟩
  · rw [heq] at h
    exact fun hmem => h (List.mem_append_left _ hmem)
  · rwa [← heq]

/-- The line of an error is found, and is one line. -/
theorem line_of_error {f : SourceFile} {e : LexicalError}
    (he : e ∈ (tokenize f.content).errors) :
    ∃ quoted, f.line e.position.line = .ok quoted ∧ '\n' ∉ quoted := by
  obtain ⟨upTo, after, hsource, hposition⟩ := error_quotes_source he
  obtain ⟨front, column, rest, next, hupTo, hcut⟩ := exists_line_of_place hsource
  refine ⟨(column ++ rest).dropReturn, ?_, no_line_feed_dropReturn hcut.no_line_feed⟩
  rw [hposition, line_of_place, hcut.line_eq]

theorem mem_padding {s : Snippet} {c : Char} (h : c ∈ s.padding) : c = ' ' ∨ c = '\t' := by
  rw [Snippet.padding, List.mem_append, List.mem_map] at h
  rcases h with ⟨d, -, rfl⟩ | h
  · unfold Snippet.paddingChar
    split
    · exact .inr rfl
    · exact .inl rfl
  · exact .inl (List.eq_of_mem_replicate h)

theorem header_of_error (e : LexicalError) : e.toDiagnostic.header =
    "error[".toList ++ e.kind.code.display ++ "]: ".toList ++ e.summary := by
  have hfront : "error[".toList = "error".toList ++ ['['] := rfl
  have hback : "]: ".toList = [']'] ++ ": ".toList := rfl
  have hlabel : e.toDiagnostic.header = "error".toList ++ '[' :: e.kind.code.display ++ [']'] ++
      ": ".toList ++ e.summary := rfl
  rw [hlabel, hfront, hback]
  simp only [List.append_assoc, List.cons_append, List.nil_append]

/-- The lines of an error whose line is found. -/
theorem lines_of_error {f : SourceFile} {e : LexicalError} {quoted : Text}
    (hline : f.line e.position.line = .ok quoted) :
    ∃ padding carets, (∀ c ∈ padding, c = ' ' ∨ c = '\t') ∧ 0 < carets ∧
      e.toDiagnostic.lines (some f) = errorLines f e quoted padding carets := by
  obtain ⟨s, hsnippet, hshown, hnumber⟩ : ∃ s, e.toDiagnostic.snippet? f = some s ∧
      s.line = quoted ∧ s.number = e.position.line := by
    unfold Diagnostic.snippet?
    have hstart : f.line e.toDiagnostic.span.start.line = .ok quoted := hline
    rw [hstart]
    exact ⟨_, rfl, rfl, rfl⟩
  refine ⟨s.padding, max 1 (s.stopColumn - s.startColumn), fun _ hc => mem_padding hc,
    Nat.le_max_left 1 _, ?_⟩
  simp only [Diagnostic.lines, Option.map_some, Option.getD_some, Diagnostic.excerpt, hsnippet,
    Snippet.lines, Snippet.gutter, Snippet.gutterWidth, hshown, hnumber, header_of_error]
  rw [List.append_assoc _ s.padding]
  rfl

theorem FilledLine.append {s t : Text} (h : FilledLine s) (ht : '\n' ∉ t) :
    FilledLine (s ++ t) :=
  ⟨List.append_ne_nil_of_left_ne_nil h.1 t, by simpa using ⟨h.2, ht⟩⟩

theorem filledLine_margin (number : Nat) {label : Text} (h : '\n' ∉ label) :
    FilledLine (margin number label) := by
  refine ⟨by simp [margin], ?_⟩
  simp [margin, Text.padLeft, Text.filled, h]

theorem FaultKind.no_line_feed_code (kind : FaultKind) : '\n' ∉ kind.code.display := by
  cases kind <;> decide

theorem FaultKind.no_line_feed_notes (kind : FaultKind) : ∀ note ∈ kind.notes, '\n' ∉ note := by
  cases kind <;> decide

theorem FaultKind.no_line_feed_helps (kind : FaultKind) : ∀ help ∈ kind.helps, '\n' ∉ help := by
  cases kind <;> decide

theorem no_line_feed_summary (e : LexicalError) : '\n' ∉ e.summary := by
  have hmessage : ∀ kind : FaultKind, '\n' ∉ kind.message ++ " `".toList := by
    intro kind
    cases kind <;> decide
  have hescape : '\n' ∉ Text.escape .message e.text := fun hmem =>
    no_control_escape e.text _ hmem List.mem_cons_self
  rw [LexicalError.summary, List.mem_append, List.mem_append]
  rintro ((hmem | hmem) | hmem)
  · exact hmessage e.kind hmem
  · exact hescape hmem
  · exact absurd hmem (by decide)

theorem no_line_feed_position (p : Position) : '\n' ∉ ':' :: p.display := by
  simp [Position.display, no_line_feed_ofNat]

/-- No line that is printed for an error is empty. -/
theorem filledLine_of_error {f : SourceFile} (hname : '\n' ∉ f.name) {e : LexicalError}
    {quoted padding : Text} (hquoted : '\n' ∉ quoted)
    (hpadding : ∀ c ∈ padding, c = ' ' ∨ c = '\t') (carets : Nat) :
    ∀ l ∈ errorLines f e quoted padding carets, FilledLine l := by
  have hcarets : '\n' ∉ padding ++ Text.filled carets '^' := by
    rw [List.mem_append]
    rintro (hmem | hmem)
    · rcases hpadding _ hmem with heq | heq <;> cases heq
    · cases List.eq_of_mem_replicate hmem
  intro l hl
  simp only [errorLines, List.mem_append, List.mem_cons, List.not_mem_nil, or_false,
    List.mem_map] at hl
  rcases hl with ((rfl | rfl | rfl | rfl) | ⟨note, hnote, rfl⟩) | ⟨help, hhelp, rfl⟩
  · have hfirst : FilledLine "error[".toList := ⟨by decide, by decide⟩
    have hlabel := (hfirst.append e.kind.no_line_feed_code).append (t := "]: ".toList) (by decide)
    exact hlabel.append (no_line_feed_summary e)
  · have hfirst : FilledLine "  --> ".toList := ⟨by decide, by decide⟩
    exact (hfirst.append hname).append (no_line_feed_position e.position)
  · exact (filledLine_margin _ (no_line_feed_ofNat _)).append hquoted
  · exact (filledLine_margin _ List.not_mem_nil).append hcarets
  · have hfirst : FilledLine "   = note: ".toList := ⟨by decide, by decide⟩
    exact hfirst.append (e.kind.no_line_feed_notes note hnote)
  · have hfirst : FilledLine "   = help: ".toList := ⟨by decide, by decide⟩
    exact hfirst.append (e.kind.no_line_feed_helps help hhelp)

theorem filledLine_lines {f : SourceFile} (hname : '\n' ∉ f.name) {e : LexicalError}
    (he : e ∈ (tokenize f.content).errors) :
    ∀ l ∈ e.toDiagnostic.lines (some f), FilledLine l := by
  obtain ⟨quoted, hline, hquoted⟩ := line_of_error he
  obtain ⟨padding, carets, hpadding, -, heq⟩ := lines_of_error hline
  rw [heq]
  exact filledLine_of_error hname hquoted hpadding carets

/-! ## The law of the blocks -/

theorem lines_ne_nil (d : Diagnostic) (file : Option SourceFile) : d.lines file ≠ [] := by
  simp [Diagnostic.lines]

theorem errorBlock_render {f : SourceFile} (hname : '\n' ∉ f.name) {e : LexicalError}
    (he : e ∈ (tokenize f.content).errors) :
    ErrorBlock f e (e.toDiagnostic.render (some f)) := by
  have hfilled := filledLine_lines hname he
  obtain ⟨quoted, hline, -⟩ := line_of_error he
  obtain ⟨padding, carets, hpadding, hcarets, hlines⟩ := lines_of_error hline
  have hsplit : (e.toDiagnostic.render (some f)).splitOn '\n' = e.toDiagnostic.lines (some f) :=
    List.splitOn_intercalate '\n' (fun l hl => (hfilled l hl).2) (lines_ne_nil _ _)
  refine ⟨rfl, ⟨quoted, padding, carets, hline, hpadding, hcarets, ?_⟩, ?_⟩
  · rw [hsplit, hlines]
  · rw [hsplit]
    exact fun hmem => (hfilled [] hmem).1 rfl

theorem renderAll_eq (ds : List Diagnostic) (file : Option SourceFile) :
    (Handler.empty.emitAll ds).renderAll file =
      Text.join ['\n', '\n'] ((ds.map (·.lines file)).map (Text.join ['\n'])) := by
  rw [Handler.renderAll, Handler.diagnostics_emitAll, List.map_map]
  rfl

end Lexis
