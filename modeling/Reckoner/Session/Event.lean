import Reckoner.Session.Document

/-!
# Events

What a run of the program leaves in its log, in the order in which it happens.
-/

namespace Reckoner

/-- How important an event is. -/
inductive Level where
  | warn
  | info
  | debug
  | trace
  deriving DecidableEq

/-- The part of the program that an event comes from. -/
inductive Component where
  | session
  | grammar
  | analysis
  | calculator
  deriving DecidableEq

/-- Something worth a line in the log. -/
inductive Event where
  | opened (uri : String)
  | changed (uri : String)
  | parsed (issue : Issue)
  | analyzed (size : Nat) (analysis : Analysis)
  | published (uri : String) (count : Nat)
  | closed (uri : String)
  | closedUnknown (uri : String)
  | resetFailed (reason : String)
  | refreshFailed (reason : String)
  deriving DecidableEq

namespace Event

/-- How important an event is. -/
def level : Event → Level
  | opened _ | closed _ => .info
  | changed _ | analyzed .. | published .. => .debug
  | parsed _ => .trace
  | closedUnknown _ | resetFailed _ | refreshFailed _ => .warn

/-- Where an event comes from. -/
def component : Event → Component
  | opened _ | changed _ | published .. | closed _ | closedUnknown _ => .session
  | parsed _ => .grammar
  | analyzed .. => .analysis
  | resetFailed _ | refreshFailed _ => .calculator

/-- The line of an event. -/
def message : Event → String
  | opened _ => "ouverture"
  | changed _ => "modification"
  | parsed _ => "parse"
  | analyzed .. => "analyse"
  | published .. => "publication"
  | closed _ => "fermeture"
  | closedUnknown _ => "fermeture d’un document inconnu"
  | resetFailed _ => "remise à zéro"
  | refreshFailed _ => "état introuvable après modification"

/-- A value as it is logged. -/
def showValue : Option Float → String
  | none => "None"
  | some x => "Some(" ++ Numeral.trace x ++ ")"

/-- The details of an event. -/
def fields : Event → List (String × String)
  | opened uri | changed uri | closed uri | closedUnknown uri => [("uri", uri)]
  | parsed issue =>
    [("reussi", toString issue.succeeded), ("consomme", toString issue.consumed),
     ("total", toString issue.total)]
  | analyzed size analysis =>
    [("longueur", toString size), ("erreurs", toString analysis.errors.length),
     ("valeur", showValue analysis.value)]
  | published uri count => [("uri", uri), ("diagnostics", toString count)]
  | resetFailed reason | refreshFailed reason => [("erreur", reason)]

end Event

/-- The events of reading, analyzing and publishing a document. -/
def Document.events (d : Document) : List Event :=
  [.parsed d.issue, .analyzed d.content.size d.analysis, .published d.uri d.diagnostics.length]

end Reckoner
