import Mathlib.Data.List.Induction
import Mathlib.Tactic.Lemma
import Reckoner.Session.Basic

/-!
# The history of a session

A session is what its history makes it: after any run of requests the documents that are open, and
all that is stored with each of them, are determined by the last text that was given for each name
and by whether the name was closed since.  `find?_handle` says what one request does to one
document, and the runs follow from it by induction.
-/

namespace Reckoner

namespace Request

/-- The name that a request is about. -/
def uri : Request → String
  | openText uri _ | changeText uri _ | close uri | state uri | complete uri _ | segments uri => uri

/-- A request that gives a document its text. -/
inductive Gives (uri : String) (t : Text) : Request → Prop
  | openText : Gives uri t (.openText uri t)
  | changeText : Gives uri t (.changeText uri t)

/-- What a request makes of the document it is about. -/
def leave (d? : Option Document) : Request → Option Document
  | openText uri t | changeText uri t => some (.ofText uri t)
  | close _ => none
  | state _ | complete _ _ | segments _ => d?

/-- Of `requests`, the last that gives `uri` a text is `request`, between `before` and `after`. -/
structure LastGiving (requests : List Request) (uri : String) (t : Text) (before : List Request)
    (request : Request) (after : List Request) : Prop where
  split : requests = before ++ request :: after
  gives : request.Gives uri t
  last : ∀ later ∈ after, ∀ u, ¬ later.Gives uri u

/-- A request that gives no text leaves the last one that does where it was. -/
lemma LastGiving.concat {requests before after : List Request} {request next : Request}
    {uri : String} {t : Text} (h : LastGiving requests uri t before request after)
    (noText : ∀ u, ¬ next.Gives uri u) :
    LastGiving (requests ++ [next]) uri t before request (after ++ [next]) where
  split := by rw [h.split, List.append_assoc, List.cons_append]
  gives := h.gives
  last := by
    intro later mem
    rcases List.mem_append.mp mem with mem | mem
    · exact h.last later mem
    · rw [List.mem_singleton.mp mem]
      exact noText

end Request

/-- What is reported on a document comes from its parse and from its analysis. -/
lemma Document.diagnostics_ofText (uri : String) (t : Text) :
    (ofText uri t).diagnostics =
      ((parse t).issue.diagnostic? t).toList ++ (analyze t).errors := rfl

namespace Session

variable {s : Session} {uri : String} {t : Text} {d : Document}
variable {request : Request} {requests : List Request}

/-- Requests one after the other are run one after the other. -/
lemma run_append (s : Session) (first second : List Request) :
    s.run (first ++ second) = (s.run first).run second :=
  List.foldl_append

/-- The last request is handled by what those before it left. -/
lemma run_concat (s : Session) (requests : List Request) (request : Request) :
    s.run (requests ++ [request]) = ((s.run requests).handle request).session :=
  List.foldl_append

/-- A request changes the document it is about and no other. -/
lemma find?_handle (s : Session) (request : Request) (uri : String) :
    (s.handle request).session.find? uri =
      if request.uri = uri then request.leave (s.find? uri) else s.find? uri := by
  have answered (name : String) (f : Document → Reply) : (s.answer name f).session = s := by
    unfold answer
    split <;> rfl
  cases request with
  | openText name t => exact find?_store s _ uri
  | changeText name t => exact find?_store s _ uri
  | close name =>
    rw [handle]
    split
    next closed =>
      split
      next same => exact same ▸ closed
      next => rfl
    next => exact find?_remove s name uri
  | state name => rw [handle, answered]; exact (ite_self _).symm
  | complete name p => rw [handle, answered]; exact (ite_self _).symm
  | segments name => rw [handle, answered]; exact (ite_self _).symm

/-- A request about another document leaves this one as it is. -/
lemma find?_handle_other (other : request.uri ≠ uri) :
    (s.handle request).session.find? uri = s.find? uri := by
  rw [find?_handle, if_neg other]

/-- A document that is given a text is that text with all that is found in it. -/
lemma find?_handle_gives (gives : request.Gives uri t) :
    (s.handle request).session.find? uri = some (.ofText uri t) := by
  cases gives <;> rw [find?_handle] <;> exact if_pos rfl

/-- A document that is closed is gone. -/
lemma find?_handle_close : (s.handle (.close uri)).session.find? uri = none := by
  rw [find?_handle]
  exact if_pos rfl

/-- A document stays as it is when a request neither gives it a text nor closes it. -/
lemma find?_handle_keeps (noText : ∀ t, ¬ request.Gives uri t) (remains : request ≠ .close uri) :
    (s.handle request).session.find? uri = s.find? uri := by
  rw [find?_handle]
  split
  next same =>
    subst same
    cases request with
    | openText uri t => exact absurd .openText (noText t)
    | changeText uri t => exact absurd .changeText (noText t)
    | close uri => exact absurd rfl remains
    | state | complete | segments => rfl
  next => rfl

/-- What every single request leaves as it is, a run leaves as it is. -/
lemma find?_run_of_forall
    (leaves : ∀ request ∈ requests, ∀ s : Session,
      (s.handle request).session.find? uri = s.find? uri) :
    (s.run requests).find? uri = s.find? uri := by
  induction requests generalizing s with
  | nil => rfl
  | cons request requests ih =>
    obtain ⟨now, later⟩ := List.forall_mem_cons.mp leaves
    exact (ih later).trans (now s)

/-- Requests about other documents leave this one as it is. -/
lemma find?_run_other (other : ∀ request ∈ requests, request.uri ≠ uri) :
    (s.run requests).find? uri = s.find? uri :=
  find?_run_of_forall fun request mem _ => find?_handle_other (other request mem)

/-- Requests that neither give a text nor close leave a document as it is. -/
lemma find?_run_keeps (noText : ∀ request ∈ requests, ∀ t, ¬ request.Gives uri t)
    (remains : .close uri ∉ requests) : (s.run requests).find? uri = s.find? uri := by
  refine find?_run_of_forall fun request mem _ => find?_handle_keeps (noText request mem) ?_
  rintro rfl
  exact remains mem

/-- Without a new text a document stays as it is until it is closed. -/
lemma find?_run_noText (noText : ∀ request ∈ requests, ∀ t, ¬ request.Gives uri t)
    (found : (s.run requests).find? uri = some d) : s.find? uri = some d := by
  induction requests generalizing s with
  | nil => exact found
  | cons request requests ih =>
    obtain ⟨now, later⟩ := List.forall_mem_cons.mp noText
    have before := ih later found
    -- had this request closed the document, nothing after it could have opened it again
    by_cases closes : request = .close uri
    · rw [closes, find?_handle_close] at before
      cases before
    · rwa [find?_handle_keeps now closes] at before

/-- A document that stays open is that of the text it was given last. -/
lemma find?_run_of_lastGiving {before after : List Request}
    (h : Request.LastGiving requests uri t before request after) (remains : .close uri ∉ after) :
    (s.run requests).find? uri = some (.ofText uri t) := by
  rw [h.split, run_append]
  exact (find?_run_keeps h.last remains).trans (find?_handle_gives h.gives)

/-- Every open document got its text from the last request that gives it one. -/
lemma exists_lastGiving (found : (empty.run requests).find? uri = some d) :
    ∃ before request after t, Request.LastGiving requests uri t before request after ∧
      .close uri ∉ after ∧ d = .ofText uri t := by
  induction requests using List.reverseRecOn with
  | nil =>
    rw [run, List.foldl_nil, find?_empty] at found
    cases found
  | append_singleton requests next ih =>
    rw [run_concat] at found
    -- the last request gives the text, closes the document, or leaves what the others made of it
    by_cases gives : ∃ t, next.Gives uri t
    · obtain ⟨t, gives⟩ := gives
      have eq := Option.some.inj (found.symm.trans (find?_handle_gives gives))
      exact ⟨requests, next, [], t, ⟨rfl, gives, by simp⟩, List.not_mem_nil, eq⟩
    · rw [not_exists] at gives
      by_cases closes : next = .close uri
      · rw [closes, find?_handle_close] at found
        cases found
      · rw [find?_handle_keeps gives closes] at found
        obtain ⟨before, request, after, t, h, remains, eq⟩ := ih found
        refine ⟨before, request, after ++ [next], t, h.concat gives, ?_, eq⟩
        rw [List.mem_append, List.mem_singleton, not_or]
        exact ⟨remains, fun same => closes same.symm⟩

/-- A document is open if it was not closed after it was given a text. -/
lemma isSome_find?_run_iff :
    ((empty.run requests).find? uri).isSome = true ↔
      ∃ before request after t, Request.LastGiving requests uri t before request after ∧
        .close uri ∉ after := by
  constructor
  · intro opened
    obtain ⟨d, found⟩ := Option.isSome_iff_exists.mp opened
    obtain ⟨before, request, after, t, h, remains, _⟩ := exists_lastGiving found
    exact ⟨before, request, after, t, h, remains⟩
  · rintro ⟨before, request, after, t, h, remains⟩
    rw [find?_run_of_lastGiving h remains]
    rfl

/-- The names of the open documents, each once. -/
lemma exists_names (s : Session) :
    ∃ names : List String, names.Nodup ∧ s.count = names.length ∧
      ∀ uri, uri ∈ names ↔ (s.find? uri).isSome = true := by
  refine ⟨s.documents.keys, Std.HashMap.nodup_keys, Std.HashMap.length_keys.symm, fun uri => ?_⟩
  rw [Std.HashMap.mem_keys, find?]
  exact Std.HashMap.mem_iff_isSome_getElem?

/-- The answer to a new text is what its document publishes. -/
lemma reply_handle_gives (gives : request.Gives uri t) :
    (s.handle request).reply = .published (Document.ofText uri t).publications := by
  cases gives with
  | openText => rfl
  | changeText => rfl

/-- What needs an open document fails without one and changes nothing. -/
lemma handle_unknown (closed : s.find? request.uri = none)
    (noText : ∀ t, ¬ request.Gives request.uri t) :
    (s.handle request).reply = .unknown request.uri ∧ (s.handle request).session = s := by
  cases request with
  | openText uri t => exact absurd .openText (noText t)
  | changeText uri t => exact absurd .changeText (noText t)
  | close uri | state uri | complete uri p | segments uri =>
    simp only [handle, answer, show s.find? uri = none from closed, Request.uri, and_self]

end Session

open Session Request

/-- After any run of requests that begins without documents, the open documents are those whose last
text was not closed since, counted once each; every one of them holds that text with all that was
found in it then, and publishes what was answered then.  Requests on a document that is not open
fail and change nothing, and no request touches a document that it is not about. -/
theorem documents_run (requests : List Request) :
    let s := Session.empty.run requests
    (∀ uri, (s.find? uri).isSome = true ↔
      ∃ before request after t,
        LastGiving requests uri t before request after ∧ .close uri ∉ after) ∧
    (∃ names : List String, names.Nodup ∧ s.count = names.length ∧
      ∀ uri, uri ∈ names ↔ ∃ before request after t,
        LastGiving requests uri t before request after ∧ .close uri ∉ after) ∧
    (∀ uri d, s.find? uri = some d →
      d.uri = uri ∧ d.issue = (parse d.content).issue ∧ d.analysis = analyze d.content ∧
      (s.handle (.state uri)).reply = .document d ∧
      ∃ before request after, LastGiving requests uri d.content before request after ∧
        .close uri ∉ after ∧
        ((Session.empty.run before).handle request).reply = .published d.publications) ∧
    (∀ request : Request, s.find? request.uri = none →
      (∀ t, ¬ request.Gives request.uri t) →
      (s.handle request).reply = .unknown request.uri ∧ (s.handle request).session = s) ∧
    (∀ (request : Request) (uri : String), request.uri ≠ uri →
      (s.handle request).session.find? uri = s.find? uri) := by
  intro s
  refine ⟨fun uri => isSome_find?_run_iff, ?_, fun uri d found => ?_,
    fun request closed noText => handle_unknown closed noText,
    fun request uri other => find?_handle_other other⟩
  · obtain ⟨names, nodup, count, mem⟩ := s.exists_names
    exact ⟨names, nodup, count, fun uri => (mem uri).trans isSome_find?_run_iff⟩
  · obtain ⟨before, request, after, t, h, remains, rfl⟩ := exists_lastGiving found
    refine ⟨rfl, rfl, rfl, ?_, before, request, after, h, remains, reply_handle_gives h.gives⟩
    simp only [handle, answer, found]

/-- Of two documents one was closed again and the other changed: asking for completions in the closed
one fails, and the other publishes what was answered to its change. -/
theorem documents_run_memo :
    let s := Session.empty.run [.openText "memo" ['1', '/'], .openText "draft" [], .close "draft",
      .changeText "memo" ['2']]
    (∃ before request after, LastGiving [.openText "memo" ['1', '/'], .openText "draft" [],
        .close "draft", .changeText "memo" ['2']] "memo" ['2'] before request after ∧
      ((Session.empty.run before).handle request).reply =
        .published (Document.ofText "memo" ['2']).publications) ∧
    (s.handle (.complete "draft" ⟨0, 0⟩)).reply = .unknown "draft" ∧
    (s.handle (.close "draft")).session = s ∧
    (s.handle (.close "memo")).session.find? "draft" = s.find? "draft" := by
  intro s
  obtain ⟨_, _, stored, unknown, other⟩ := documents_run [.openText "memo" ['1', '/'],
    .openText "draft" [], .close "draft", .changeText "memo" ['2']]
  have memo : s.find? "memo" = some (.ofText "memo" ['2']) := by
    simp [s, Session.run, find?_handle, uri, leave]
  have draft : s.find? "draft" = none := by
    simp [s, Session.run, find?_handle, uri, leave]
  obtain ⟨_, _, _, _, before, request, after, last, _, reply⟩ := stored _ _ memo
  exact ⟨⟨before, request, after, last, reply⟩,
    (unknown (.complete "draft" ⟨0, 0⟩) draft nofun).1, (unknown (.close "draft") draft nofun).2,
    other (.close "memo") "draft" (by decide)⟩

end Reckoner
