-- The law of the commands on source files. A run reads its files in order up to the first that
-- cannot be read, and says what it has to say about the files before that one. Lexical errors never
-- stop it, and it changes no file.
import Lexis.Command.Check
import Lexis.Command.Lex
import Lexis.Proofs.ReportReading
import Mathlib.Algebra.Ring.Nat
import Mathlib.Data.List.Forall2

namespace Lexis

/-! ## Which files are read -/

/-- The path of a source file names a regular file with the content of the source file. -/
def FileTree.Holds (t : FileTree) (f : SourceFile) : Prop :=
  ∃ bytes, t.lookup? f.name = some (.file bytes) ∧ decodeSource bytes = .ok f.content

/-- Why a path gives no source file. -/
inductive FileTree.Fails (t : FileTree) (p : Path) : Failure → Prop
  | notFile : (∀ bytes, t.lookup? p ≠ some (.file bytes)) →
      FileTree.Fails t p (.fileOperation ("Input path is not a file: ".toList ++ p))
  | notText {bytes : List UInt8} {cause : DecodingError} : t.lookup? p = some (.file bytes) →
      decodeSource bytes = .error cause → FileTree.Fails t p (.decoding p cause)

/-- The source files of paths up to the first path that gives none, if there is one. -/
inductive StopsAt (t : FileTree) (paths : List Path) (files : List SourceFile) :
    Option Failure → Prop
  | never : paths = files.map SourceFile.name → (∀ f ∈ files, t.Holds f) →
      StopsAt t paths files none
  | first {k : Path} {back : List Path} {e : Failure} :
      paths = files.map SourceFile.name ++ k :: back → (∀ f ∈ files, t.Holds f) → t.Fails k e →
      StopsAt t paths files (some e)

/-- A result, or the failure that a run stopped at. -/
def resultOf {α : Type} (failure? : Option Failure) (value : α) : Except Failure α :=
  match failure? with
  | some e => .error e
  | none => .ok value

/-- A source file, scanned. -/
def SourceFile.analysis (f : SourceFile) : Analysis := ⟨f.name, f, tokenize f.content⟩

/-- Every path gives a source file or has a reason to give none. -/
theorem analyze_cases (t : FileTree) (p : Path) :
    (∃ f, f.name = p ∧ t.Holds f ∧ analyze t p = .ok f.analysis) ∨
      ∃ e, t.Fails p e ∧ analyze t p = .error e := by
  unfold analyze
  cases hentry : t.lookup? p with
  | none => exact .inr ⟨_, .notFile fun _ h => (nomatch hentry.symm.trans h), rfl⟩
  | some entry =>
    cases entry with
    | directory => exact .inr ⟨_, .notFile fun _ h => (nomatch hentry.symm.trans h), rfl⟩
    | file bytes =>
      cases hd : decodeSource bytes with
      | error cause => exact .inr ⟨_, .notText hentry hd, by simp [hd]⟩
      | ok text => exact .inl ⟨⟨p, text⟩, rfl, ⟨bytes, hentry, hd⟩, by simp [hd]; rfl⟩

/-- Analyzing goes up to the first path that gives no source file. -/
theorem analyzeAll_stopsAt (t : FileTree) (paths : List Path) : ∃ files failure?,
    StopsAt t paths files failure? ∧
      analyzeAll t paths = (files.map SourceFile.analysis, resultOf failure? ()) := by
  induction paths with
  | nil => exact ⟨[], none, .never rfl (fun _ h => nomatch h), rfl⟩
  | cons p paths ih =>
    rcases analyze_cases t p with ⟨f, rfl, hf, hanalyze⟩ | ⟨e, he, hanalyze⟩
    · obtain ⟨files, failure?, hstops, hall⟩ := ih
      refine ⟨f :: files, failure?, ?_, ?_⟩
      · cases hstops with
        | never hpaths hfiles =>
          exact .never (by rw [hpaths, List.map_cons]) (List.forall_mem_cons.mpr ⟨hf, hfiles⟩)
        | first hpaths hfiles hk =>
          exact .first (by rw [hpaths]; rfl) (List.forall_mem_cons.mpr ⟨hf, hfiles⟩) hk
      · rw [analyzeAll, hanalyze]
        simp only [hall, List.map_cons]
    · refine ⟨[], some e, .first rfl (fun _ h => nomatch h) he, ?_⟩
      rw [analyzeAll, hanalyze]
      rfl

/-! ## What is said about a file -/

/-- The diagnostics of the lexical errors of a source file. -/
def SourceFile.diagnosed (f : SourceFile) : Text :=
  let diagnostics := (tokenize f.content).errors.map LexicalError.toDiagnostic
  Text.join ['\n', '\n'] (diagnostics.map fun d => d.render (some f)) ++ ['\n', '\n']

def SourceFile.hasErrors (f : SourceFile) : Bool := !(tokenize f.content).errors.isEmpty

def SourceFile.errorCount (f : SourceFile) : Nat := (tokenize f.content).errors.length

/-- A rendering for the output shows one source file and says nothing else. -/
theorem outputText_events (request : LexRequest) (f : SourceFile) :
    outputText (request.events f.analysis) = request.render f.analysis ++ ['\n'] := by
  have hlog : ∀ rs : List LogRecord, outputText (rs.map .log) = [] := fun rs => by
    simp [outputText, List.flatMap_map, Event.onOutput]
  show (request.render f.analysis ++ ['\n']) ++ outputText _ = _
  rw [hlog, List.append_nil]

theorem diagnosticsText_events (request : LexRequest) (f : SourceFile) :
    diagnosticsText (request.events f.analysis) = [] := by
  simp [diagnosticsText, LexRequest.events, List.flatMap_map, Event.onDiagnostics]

/-- The handler of a source file has one diagnostic for each lexical error. -/
theorem diagnostics_handler (f : SourceFile) : f.analysis.handler.diagnostics =
    (tokenize f.content).errors.map LexicalError.toDiagnostic :=
  Handler.diagnostics_emitAll _ _

theorem hasErrors_handler (f : SourceFile) : f.analysis.handler.hasErrors = f.hasErrors := by
  have hlevel : ((fun d => d.level == .error) ∘ LexicalError.toDiagnostic) = fun _ => true := rfl
  rw [Handler.hasErrors, diagnostics_handler, List.any_map, hlevel]
  unfold SourceFile.hasErrors
  cases (tokenize f.content).errors with
  | nil => rfl
  | cons e es => rfl

theorem errorCount_analysis (f : SourceFile) : f.analysis.errorCount = f.errorCount := by
  have hlevel : ((fun d => d.level == .error) ∘ LexicalError.toDiagnostic) = fun _ => true := rfl
  rw [Analysis.errorCount, Handler.errorCount, Handler.count, diagnostics_handler, List.countP_map,
    hlevel, List.countP_true]
  rfl

theorem outputText_checkEvents (f : SourceFile) : outputText f.analysis.checkEvents = [] := by
  unfold Analysis.checkEvents
  split <;> rfl

theorem diagnosticsText_checkEvents (f : SourceFile) :
    diagnosticsText f.analysis.checkEvents = if f.hasErrors then f.diagnosed else [] := by
  unfold Analysis.checkEvents
  simp only [hasErrors_handler, Handler.renderAll, diagnostics_handler]
  cases f.hasErrors with
  | false => rfl
  | true => exact List.append_nil _

/-- What a stream gets of the events of source files. -/
theorem flatMap_events (stream : Event → Text) (events : Analysis → List Event)
    (fs : List SourceFile) : ((fs.map SourceFile.analysis).flatMap events).flatMap stream =
      fs.flatMap fun f => (events f.analysis).flatMap stream := by
  rw [List.flatMap_map]
  exact List.flatMap_assoc

theorem flatMap_diagnosed (fs : List SourceFile) :
    (fs.flatMap fun f => if f.hasErrors then f.diagnosed else []) =
      (fs.filter SourceFile.hasErrors).flatMap SourceFile.diagnosed := by
  induction fs with
  | nil => rfl
  | cons f fs ih =>
    rw [List.flatMap_cons, ih, List.filter_cons]
    cases f.hasErrors with
    | false => rfl
    | true => rfl

/-! ## Runs -/

/-- The lex command shows the source files in front of the failure, if there is one. -/
structure LexRun (t : FileTree) (request : LexRequest) (files : List SourceFile)
    (failure? : Option Failure) (run : Outcome Unit) : Prop where
  output : outputText run.events = files.flatMap fun f => request.render f.analysis ++ ['\n']
  diagnostics : diagnosticsText run.events = []
  result : run.result = resultOf failure? ()
  tree : run.tree = t

/-- The check command reports the lexical errors of the source files in front of the failure, and
counts them. Its diagnostics are all that the command itself writes to the standard error stream.
Log lines are events of their own: `Program.errorStream` puts those that are shown on the same
stream, between the diagnostics. -/
structure CheckRun (t : FileTree) (files : List SourceFile) (failure? : Option Failure)
    (run : Outcome Nat) : Prop where
  output : outputText run.events = []
  diagnostics : diagnosticsText run.events =
    (files.filter SourceFile.hasErrors).flatMap SourceFile.diagnosed
  result : run.result = resultOf failure? (files.map SourceFile.errorCount).sum
  tree : run.tree = t

theorem lexRun {t : FileTree} {request : LexRequest} {files : List SourceFile}
    {failure? : Option Failure} (h : analyzeAll t request.files =
      (files.map SourceFile.analysis, resultOf failure? ())) :
    LexRun t request files failure? (lex t request) := by
  unfold lex
  rw [h]
  constructor
  · refine (flatMap_events Event.onOutput request.events files).trans ?_
    exact List.flatMap_congr fun f _ => outputText_events request f
  · refine (flatMap_events Event.onDiagnostics request.events files).trans ?_
    exact List.flatMap_eq_nil_iff.mpr fun f _ => diagnosticsText_events request f
  · rfl
  · rfl

theorem checkRun {t : FileTree} {paths : List Path} {files : List SourceFile}
    {failure? : Option Failure} (h : analyzeAll t paths =
      (files.map SourceFile.analysis, resultOf failure? ())) :
    CheckRun t files failure? (check t paths) := by
  unfold check
  rw [h]
  constructor
  · refine (flatMap_events Event.onOutput Analysis.checkEvents files).trans ?_
    exact List.flatMap_eq_nil_iff.mpr fun f _ => outputText_checkEvents f
  · refine (flatMap_events Event.onDiagnostics Analysis.checkEvents files).trans ?_
    exact (List.flatMap_congr fun f _ => diagnosticsText_checkEvents f).trans
      (flatMap_diagnosed files)
  · have htotal : (files.map SourceFile.analysis).foldr (fun a total => a.errorCount + total) 0 =
        (files.map SourceFile.errorCount).sum := by
      rw [List.foldr_map, List.sum_eq_foldr, List.foldr_map]
      simp only [errorCount_analysis]
    show (resultOf failure? ()).map _ = _
    rw [htotal]
    cases failure? with
    | none => rfl
    | some e => rfl
  · rfl

/-- A strict check fails on lexical errors, and says what the check says. -/
structure StrictRun (t : FileTree) (files : List SourceFile) (failure? : Option Failure)
    (plain : Outcome Nat) (run : Outcome Unit) : Prop where
  events : run.events = plain.events
  stopped : ∀ e, failure? = some e → run.result = .error e
  passed : failure? = none → (run.result = .ok () ↔ (files.map SourceFile.errorCount).sum = 0)
  failed : failure? = none → (files.map SourceFile.errorCount).sum ≠ 0 →
    run.result = .error (.lexicalErrors (files.map SourceFile.errorCount).sum)
  tree : run.tree = t

theorem result_checkStrictly (t : FileTree) (paths : List Path) :
    (checkStrictly t paths).result = match (check t paths).result with
      | .error e => .error e
      | .ok count => if count = 0 then .ok () else .error (.lexicalErrors count) := rfl

theorem strictRun {t : FileTree} {paths : List Path} {files : List SourceFile}
    {failure? : Option Failure} (h : CheckRun t files failure? (check t paths)) :
    StrictRun t files failure? (check t paths) (checkStrictly t paths) where
  events := rfl
  stopped e he := by
    rw [result_checkStrictly, h.result, he]
    rfl
  passed hnone := by
    rw [result_checkStrictly, h.result, hnone]
    show (if _ = 0 then _ else _) = _ ↔ _
    split_ifs with hsum
    · exact iff_of_true rfl hsum
    · exact iff_of_false (fun heq => nomatch heq) hsum
  failed hnone hsum := by
    rw [result_checkStrictly, h.result, hnone]
    exact if_neg hsum
  tree := h.tree

/-- The row says of the error where it is, what it is, and what text it is about. -/
structure ErrorRow.Lists (r : ErrorRow) (e : LexicalError) : Prop where
  line : r.line = e.position.line
  column : r.column = e.position.column
  kind : r.kind = e.kind.name
  text : r.text = e.text
  message : r.message = e.kind.message

/-- The report lists the lexical errors of the source file, one row for each. -/
structure Report.Lists (r : Report) (f : SourceFile) : Prop where
  file : r.file = f.name
  errors : List.Forall₂ ErrorRow.Lists r.errors (tokenize f.content).errors

/-- What the lex command prints in its JSON form with errors shown can be read back. It lists the
errors of the source files in front of the failure, and when there is no failure the entries that
are read are as many as the check command counts. -/
structure ListsAsCounted (t : FileTree) (paths : List Path) (files : List SourceFile) : Prop where
  listed : ∀ comments, ∃ reports,
    readReports (outputText (lex t ⟨paths, .json, comments, true⟩).events) = some reports ∧
      List.Forall₂ Report.Lists reports files
  counted : ∀ comments reports,
    readReports (outputText (lex t ⟨paths, .json, comments, true⟩).events) = some reports →
      ∀ total, (check t paths).result = .ok total →
        total = (reports.map fun r => r.errors.length).sum

/-- The report that is printed for a source file. -/
def SourceFile.report (comments : Bool) (f : SourceFile) : Report :=
  ⟨f.name, tokenRows comments (tokenize f.content).tokens, errorRows (tokenize f.content).errors⟩

theorem lists_errorRows (es : List LexicalError) :
    List.Forall₂ ErrorRow.Lists (errorRows es) es := by
  rw [errorRows, List.forall₂_map_left_iff, List.forall₂_same]
  exact fun e _ => ⟨rfl, rfl, rfl, rfl, rfl⟩

theorem lists_reports (comments : Bool) (files : List SourceFile) :
    List.Forall₂ Report.Lists (files.map (SourceFile.report comments)) files := by
  rw [List.forall₂_map_left_iff, List.forall₂_same]
  exact fun f _ => ⟨rfl, lists_errorRows _⟩

/-- The output of the lex command in its JSON form is read as the reports of the source files. -/
theorem readReports_lex {t : FileTree} {paths : List Path} {files : List SourceFile}
    {failure? : Option Failure} (h : analyzeAll t paths =
      (files.map SourceFile.analysis, resultOf failure? ())) (comments : Bool) :
    readReports (outputText (lex t ⟨paths, .json, comments, true⟩).events) =
      some (files.map (SourceFile.report comments)) := by
  have houtput : outputText (lex t ⟨paths, .json, comments, true⟩).events =
      (files.map (SourceFile.report comments)).flatMap fun r =>
        fileReportJson r.file r.tokens r.errors ++ ['\n'] := by
    rw [List.flatMap_map]
    exact (lexRun h).output
  rw [houtput, readReports_write]

theorem listsAsCounted {t : FileTree} {paths : List Path} {files : List SourceFile}
    {failure? : Option Failure} (h : analyzeAll t paths =
      (files.map SourceFile.analysis, resultOf failure? ())) : ListsAsCounted t paths files where
  listed comments := ⟨_, readReports_lex h comments, lists_reports comments files⟩
  counted comments reports hread total htotal := by
    rw [readReports_lex h] at hread
    rw [(checkRun h).result] at htotal
    cases failure? with
    | some e => cases htotal
    | none =>
      obtain rfl := Option.some.inj hread
      obtain rfl := Except.ok.inj htotal
      have hcount : ∀ f : SourceFile, (f.report comments).errors.length = f.errorCount :=
        fun f => List.length_map _
      rw [List.map_map]
      exact congrArg List.sum (List.map_congr_left fun f _ => (hcount f).symm)

/-- Whatever files there are, the commands on source files stop at the first path that gives no
source file, with its failure, and count the same lexical errors in front of it. -/
theorem commands_stop_at_the_first_failure (t : FileTree) (paths : List Path) :
    ∃ files failure?, StopsAt t paths files failure? ∧
      (∀ display, LexRun t ⟨paths, display⟩ files failure? (lex t ⟨paths, display⟩)) ∧
      CheckRun t files failure? (check t paths) ∧
      StrictRun t files failure? (check t paths) (checkStrictly t paths) ∧
      ListsAsCounted t paths files := by
  obtain ⟨files, failure?, hstops, hall⟩ := analyzeAll_stopsAt t paths
  exact ⟨files, failure?, hstops, fun _ => lexRun hall, checkRun hall, strictRun (checkRun hall),
    listsAsCounted hall⟩

end Lexis
