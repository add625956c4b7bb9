-- A handler collects diagnostics in the order they are emitted.
import Lexis.Diagnostic.Render

namespace Lexis

structure Handler where
  diagnostics : List Diagnostic
deriving DecidableEq, Repr

namespace Handler

def empty : Handler := ⟨[]⟩

def emit (h : Handler) (d : Diagnostic) : Handler := ⟨h.diagnostics ++ [d]⟩

def emitAll (h : Handler) (ds : List Diagnostic) : Handler := ds.foldl emit h

/-- The number of diagnostics of a level. -/
def count (h : Handler) (level : Level) : Nat :=
  h.diagnostics.countP fun d => d.level == level

def errorCount (h : Handler) : Nat := h.count .error

def warningCount (h : Handler) : Nat := h.count .warning

def hasErrors (h : Handler) : Bool := h.diagnostics.any fun d => d.level == .error

/-- All diagnostics, with an empty line between neighbours. -/
def renderAll (h : Handler) (file : Option SourceFile) : Text :=
  Text.join ['\n', '\n'] (h.diagnostics.map fun d => d.render file)

theorem diagnostics_emitAll (h : Handler) (ds : List Diagnostic) :
    (h.emitAll ds).diagnostics = h.diagnostics ++ ds := by
  induction ds generalizing h with
  | nil => simp [emitAll]
  | cons d ds ih =>
    have := ih (h.emit d)
    simp [emitAll, emit] at this ⊢
    exact this

end Handler

end Lexis
