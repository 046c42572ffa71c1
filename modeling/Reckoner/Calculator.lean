import Reckoner.Session.Basic

/-!
# The calculator

The text being entered, its document in a session, and a preview of what is known about it.  Every
action but `enter` and `closeDocument` ends with the document and the preview of the entry.
-/

namespace Reckoner

/-- What is shown about a text. -/
structure Preview where
  value : Option String
  diagnostics : List String
  derivation : Text
  segments : List Segment
  deriving DecidableEq, Inhabited

namespace Preview

/-- Nothing is shown about no text. -/
def empty : Preview := ⟨none, [], [], []⟩

/-- What is shown of what the session published, stores and colours. -/
def ofReplies (publications : List Publication) (d : Document) (segments : List Segment) :
    Preview where
  value := d.analysis.value.map Numeral.ofFloat
  diagnostics := publications.map (·.diagnostic.render)
  derivation := (d.analysis.ast.map (·.polish d.content)).getD []
  segments := segments

end Preview

/-- A value and what was logged on the way to it. -/
structure Logged (α : Type) where
  value : α
  events : List Event

/-- The state of the calculator. -/
structure Calculator where
  entry : Text
  session : Session
  preview : Preview
  focus : Bool

/-- What can be done to the calculator. -/
inductive Action where
  /-- Sets the entry and nothing else. -/
  | enter (t : Text)
  /-- Analyzes the entry. -/
  | refresh
  /-- Starts over with an empty entry and a new document. -/
  | reset
  /-- Empties the entry. -/
  | clear
  /-- Takes back the last symbol of the entry. -/
  | erase
  /-- Adds to the end of the entry. -/
  | insert (t : Text)
  /-- Replaces the word at the end of the entry by a call of a function. -/
  | accept (f : Function)
  /-- Closes the document without the calculator taking part. -/
  | closeDocument

namespace Calculator

/-- The name of the document of the entry. -/
def uri : String := "saisie://entree"

/-- The openings of calls that are taken back as one symbol, in the order in which to try them. -/
def openings : List Text := ["sqrt(", "sin(", "cos(", "tan(", "log("].map String.toList

/-- The entry without its last symbol: without the spaces at its end, then without the opening of
a call or else one character. -/
def withoutLastSymbol (t : Text) : Text :=
  let bare : Text := (t.reverse.dropWhile (· = ' ')).reverse
  match openings.find? (·.isSuffixOf bare) with
  | some opening => bare.truncate (bare.size - opening.size)
  | none => bare.dropLast

/-- The entry whose last word is replaced by the opening of a call. -/
def withCall (t : Text) (f : Function) : Text :=
  t.truncate (t.size - (Completion.wordAt t t.size).size) ++ f.opening.toList

/-- The functions to offer at the end of the entry. -/
def suggestions (c : Calculator) : List Function := Completion.atEnd c.entry

/-- Analyzes the entry: sends it to the session and reads back what is known about it. -/
def refresh (c : Calculator) : Logged Calculator :=
  let changing := c.session.handle (.changeText uri c.entry)
  let reading := changing.session.handle (.state uri)
  let colouring := reading.session.handle (.segments uri)
  let events := changing.events ++ reading.events ++ colouring.events
  let (preview, failure) : Preview × List Event :=
    match changing.reply, reading.reply, colouring.reply with
    | .published publications, .document d, .segments segments =>
      (.ofReplies publications d segments, [])
    | _, _, _ => (.empty, [.refreshFailed (unknownDocument uri)])
  ⟨{ c with session := colouring.session, preview := preview }, events ++ failure⟩

/-- Changes the entry, analyzes it, and asks for the focus. -/
def edit (c : Calculator) (t : Text) : Logged Calculator :=
  refresh { c with entry := t, focus := true }

/-- Begins with an empty entry in an empty document. -/
def start (s : Session) : Logged Calculator :=
  let opening := s.handle (.openText uri [])
  ⟨⟨[], opening.session, .empty, true⟩, opening.events⟩

/-- The calculator at first. -/
def initial : Logged Calculator := start .empty

/-- Closes the document, which may be closed already, and begins again. -/
def reset (c : Calculator) : Logged Calculator :=
  let closing := c.session.handle (.close uri)
  let failure : List Event :=
    match closing.reply with
    | .unknown uri => [.resetFailed (unknownDocument uri)]
    | _ => []
  let fresh := start closing.session
  ⟨fresh.value, closing.events ++ failure ++ fresh.events⟩

/-- Does an action. -/
def act (c : Calculator) : Action → Logged Calculator
  | .enter t => ⟨{ c with entry := t }, []⟩
  | .refresh => c.refresh
  | .reset => c.reset
  | .clear => c.edit []
  | .erase => c.edit (withoutLastSymbol c.entry)
  | .insert t => c.edit (c.entry ++ t)
  | .accept f => c.edit (withCall c.entry f)
  | .closeDocument =>
    let closing := c.session.handle (.close uri)
    ⟨{ c with session := closing.session }, closing.events⟩

/-- The calculator after a sequence of actions. -/
def run (c : Calculator) (actions : List Action) : Calculator :=
  actions.foldl (fun c action => (c.act action).value) c

end Calculator

end Reckoner
