import Reckoner.Analysis

/-!
# Documents

A text under a name, with everything known about it.  Its published diagnostics are the report on
what the grammar rejects, if anything, then those of the analysis.
-/

namespace Reckoner

/-- How grave a published diagnostic is. -/
inductive Severity where
  | error
  deriving DecidableEq

/-- A diagnostic as it is shown outside. -/
structure Publication where
  diagnostic : Diagnostic
  severity : Severity
  source : String
  deriving DecidableEq

/-- Publishes a diagnostic in the name of the calculator. -/
def Publication.ofDiagnostic (d : Diagnostic) : Publication := ⟨d, .error, "calculator"⟩

/-- A text under a name, analyzed. -/
structure Document where
  uri : String
  content : Text
  issue : Issue
  analysis : Analysis
  deriving DecidableEq

namespace Document

/-- The document of a text. -/
def ofText (uri : String) (t : Text) : Document :=
  let outcome := parse t
  ⟨uri, t, outcome.issue, .ofOutcome t outcome⟩

/-- Everything reported on a document. -/
def diagnostics (d : Document) : List Diagnostic :=
  (d.issue.diagnostic? d.content).toList ++ d.analysis.errors

/-- What is published for a document. -/
def publications (d : Document) : List Publication := d.diagnostics.map .ofDiagnostic

end Document

end Reckoner
