import Std.Data.HashMap
import Reckoner.Completion
import Reckoner.Session.Event

/-!
# Sessions

The open documents by name.  Opening and changing both take a whole text and analyze it; a change
of a document that is not open opens it.  Every other request fails on a document that is not open
and then changes nothing.  Storing and removing one document leaves the others as they are
(`find?_store`, `find?_remove`).
-/

namespace Reckoner

/-- The open documents. -/
structure Session where
  documents : Std.HashMap String Document

/-- What a session can be asked for. -/
inductive Request where
  | openText (uri : String) (t : Text)
  | changeText (uri : String) (t : Text)
  | close (uri : String)
  | state (uri : String)
  | complete (uri : String) (p : Position)
  | segments (uri : String)

/-- What a session answers. -/
inductive Reply where
  | published (publications : List Publication)
  | closed
  | document (d : Document)
  | completions (functions : List Function)
  | segments (segments : List Segment)
  | unknown (uri : String)

/-- What is said about a document that is not open. -/
def unknownDocument (uri : String) : String := "unknown document: " ++ uri

/-- The answer to a request, the session after it, and what is logged on the way. -/
structure Response where
  reply : Reply
  session : Session
  events : List Event

namespace Session

/-- No document is open. -/
def empty : Session := ⟨∅⟩

instance : Inhabited Session := ⟨empty⟩

/-- The open document of a name. -/
def find? (s : Session) (uri : String) : Option Document := s.documents[uri]?

/-- The number of open documents. -/
def count (s : Session) : Nat := s.documents.size

/-- The session in which a document is open under its name. -/
def store (s : Session) (d : Document) : Session := ⟨s.documents.insert d.uri d⟩

/-- The session in which no document is open under a name. -/
def remove (s : Session) (uri : String) : Session := ⟨s.documents.erase uri⟩

@[simp] theorem find?_empty (uri : String) : empty.find? uri = none := by
  simp [find?, empty]

/-- A document that is stored replaces the one of its name and no other. -/
@[simp] theorem find?_store (s : Session) (d : Document) (uri : String) :
    (s.store d).find? uri = if d.uri = uri then some d else s.find? uri := by
  simp [find?, store, Std.HashMap.getElem?_insert]

/-- A document that is removed is gone, and no other is. -/
@[simp] theorem find?_remove (s : Session) (removed uri : String) :
    (s.remove removed).find? uri = if removed = uri then none else s.find? uri := by
  simp [find?, remove, Std.HashMap.getElem?_erase]

/-- Stores a text and publishes what is found in it, after logging `first`. -/
def publish (s : Session) (first : Event) (uri : String) (t : Text) : Response :=
  let d := Document.ofText uri t
  ⟨.published d.publications, s.store d, first :: d.events⟩

/-- Answers from the open document of a name. -/
def answer (s : Session) (uri : String) (f : Document → Reply) : Response :=
  match s.find? uri with
  | none => ⟨.unknown uri, s, []⟩
  | some d => ⟨f d, s, []⟩

/-- Serves a request. -/
def handle (s : Session) : Request → Response
  | .openText uri t => s.publish (.opened uri) uri t
  | .changeText uri t => s.publish (.changed uri) uri t
  | .close uri =>
    match s.find? uri with
    | none => ⟨.unknown uri, s, [.closedUnknown uri]⟩
    | some _ => ⟨.closed, s.remove uri, [.closed uri]⟩
  | .state uri => s.answer uri .document
  | .complete uri p => s.answer uri fun d => .completions (Completion.atPosition d.content p)
  | .segments uri => s.answer uri fun d => .segments d.issue.segments

/-- The session after a sequence of requests. -/
def run (s : Session) (requests : List Request) : Session :=
  requests.foldl (fun s request => (s.handle request).session) s

end Session

end Reckoner
