import ServiceAnnotator.Text.Span

/-!
# Diagnostics

A diagnostic is a message about a span of a document.
-/

namespace ServiceAnnotator

/-- How serious a diagnostic is. Only errors keep a package from being changed. -/
inductive Severity where
  | error
  | warning
  | hint
  deriving DecidableEq, Repr

namespace Severity

/-- The severity in words. -/
def name : Severity → String
  | error => "error"
  | warning => "warning"
  | hint => "hint"

end Severity

/-- A message about a span of a document. -/
structure Diagnostic where
  severity : Severity
  message : String
  span : Span
  deriving DecidableEq, Repr

namespace Diagnostic

/-- Whether a diagnostic is an error. -/
def isError (diagnostic : Diagnostic) : Bool := diagnostic.severity = .error

/-- Whether none of some diagnostics is an error. -/
def allowChanges (diagnostics : List Diagnostic) : Bool := !diagnostics.any isError

end Diagnostic

end ServiceAnnotator
