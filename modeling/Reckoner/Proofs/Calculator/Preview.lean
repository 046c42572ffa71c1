import Reckoner.Calculator
import Reckoner.Proofs.Session.History

/-!
# The preview follows the session

Whatever is done to the calculator, its preview is that of the last text it sent to the session, and
so is the document while it is open.  Starting over does not read its preview back from the session;
`Preview.ofText_nil` says that it shows what would have been read.
-/

namespace Reckoner

open Request

/-- What is to be shown about a text. -/
def Preview.ofText (t : Text) : Preview where
  value := (analyze t).value.map Numeral.ofFloat
  diagnostics := (Document.ofText Calculator.uri t).publications.map (·.diagnostic.render)
  derivation := ((analyze t).ast.map (·.polish t)).getD []
  segments := (parse t).issue.segments

/-- Nothing is to be shown about no text. -/
lemma Preview.ofText_nil : ofText [] = empty := by decide +kernel

namespace Calculator

variable {c : Calculator} {sent : List Request} {action : Action}

/-- What the session is asked to analyze a text. -/
def refreshing (t : Text) : List Request := [.changeText uri t, .state uri, .segments uri]

/-- What the session is asked by an action. -/
def asked (c : Calculator) : Action → List Request
  | .enter _ => []
  | .refresh => refreshing c.entry
  | .reset => [.close uri, .openText uri []]
  | .clear => refreshing []
  | .erase => refreshing (withoutLastSymbol c.entry)
  | .insert t => refreshing (c.entry ++ t)
  | .accept f => refreshing (withCall c.entry f)
  | .closeDocument => [.close uri]

/-- What the session is asked by a sequence of actions. -/
def askedBy (c : Calculator) : List Action → List Request
  | [] => []
  | action :: actions => c.asked action ++ (c.act action).value.askedBy actions

/-- What the session has been asked after a sequence of actions, from the very first request on. -/
def history (actions : List Action) : List Request :=
  .openText uri [] :: initial.value.askedBy actions

/-- The last action acts on what those before it left. -/
lemma run_concat (c : Calculator) (actions : List Action) (action : Action) :
    c.run (actions ++ [action]) = ((c.run actions).act action).value :=
  List.foldl_append

/-- The document that was stored last is found. -/
lemma find?_store_uri (s : Session) (t : Text) :
    (s.store (.ofText uri t)).find? uri = some (.ofText uri t) := by
  rw [Session.find?_store]
  exact if_pos rfl

/-- Analyzing the entry settles the document and the preview, whatever they were, and never fails:
the document that is read back was stored just before. -/
lemma refresh_eq (c : Calculator) :
    c.refresh = ⟨{ c with
      session := c.session.store (.ofText uri c.entry), preview := .ofText c.entry },
      .changed uri :: (Document.ofText uri c.entry).events⟩ := by
  simp only [refresh, Session.handle, Session.publish, Session.answer, find?_store_uri,
    List.append_nil]
  rfl

/-- Analyzing the entry leaves it as it is. -/
lemma entry_edit (c : Calculator) (t : Text) : (c.edit t).value.entry = t := by
  rw [edit, refresh_eq]

/-- Analyzing a text stores its document and changes nothing else. -/
lemma run_refreshing (s : Session) (t : Text) :
    s.run (refreshing t) = s.store (.ofText uri t) := by
  simp only [Session.run, refreshing, List.foldl, Session.handle, Session.publish, Session.answer,
    find?_store_uri]

/-- A calculator that asked the session for `sent`, and nothing else of any session. -/
structure Follows (sent : List Request) (c : Calculator) : Prop where
  session : c.session = Session.empty.run sent
  about : ∀ request ∈ sent, request.uri = uri
  preview : ∃ t before request after,
    LastGiving sent uri t before request after ∧ c.preview = .ofText t

/-- At first the session was only asked to open the document. -/
lemma follows_initial : Follows [.openText uri []] initial.value where
  session := rfl
  about := List.forall_mem_singleton.mpr rfl
  preview := ⟨[], [], _, [], ⟨rfl, .openText, List.forall_mem_nil _⟩, Preview.ofText_nil.symm⟩

namespace Follows

/-- An analysis of the entry asks for its text, its state and its segments. -/
lemma refresh (session : c.session = Session.empty.run sent)
    (about : ∀ request ∈ sent, request.uri = uri) :
    Follows (sent ++ refreshing c.entry) c.refresh.value := by
  rw [refresh_eq]
  refine ⟨?_, ?_, c.entry, sent, _, _, ⟨rfl, .changeText, ?_⟩, rfl⟩
  · rw [Session.run_append, run_refreshing, session]
  · refine List.forall_mem_append.mpr ⟨about, ?_⟩
    simp [refreshing, Request.uri]
  · refine List.forall_mem_cons.mpr ⟨?_, List.forall_mem_singleton.mpr ?_⟩
    · rintro _ ⟨⟩
    · rintro _ ⟨⟩

/-- A changed entry is analyzed at once. -/
lemma edit (h : Follows sent c) (t : Text) : Follows (sent ++ refreshing t) (c.edit t).value :=
  refresh (c := { c with entry := t, focus := true }) h.session h.about

/-- Closing the document asks for nothing else. -/
lemma close (h : Follows sent c) :
    Follows (sent ++ [.close uri]) { c with session := (c.session.handle (.close uri)).session } := by
  obtain ⟨t, before, request, after, given, preview⟩ := h.preview
  have noText (u : Text) : ¬ Gives uri u (.close uri) := nofun
  refine ⟨?_, ?_, t, before, request, after ++ [.close uri], given.concat noText, preview⟩
  · rw [Session.run_append, h.session]
    rfl
  · exact List.forall_mem_append.mpr ⟨h.about, List.forall_mem_singleton.mpr rfl⟩

/-- Starting over closes the document and opens it again. -/
lemma reset (h : Follows sent c) :
    Follows (sent ++ [.close uri, .openText uri []]) c.reset.value := by
  refine ⟨?_, ?_, [], sent ++ [.close uri], .openText uri [], [], ⟨?_, .openText, ?_⟩, ?_⟩
  · rw [Session.run_append, ← h.session]
    rfl
  · refine List.forall_mem_append.mpr ⟨h.about, ?_⟩
    exact List.forall_mem_cons.mpr ⟨rfl, List.forall_mem_singleton.mpr rfl⟩
  · rw [List.append_assoc, List.singleton_append]
  · exact List.forall_mem_nil _
  · -- the preview is reset here, not read back from the session
    exact Preview.ofText_nil.symm

/-- Every action leaves the preview of the last text that was sent. -/
lemma act (h : Follows sent c) (action : Action) :
    Follows (sent ++ c.asked action) (c.act action).value := by
  cases action with
  | enter t =>
    rw [asked, List.append_nil]
    exact ⟨h.session, h.about, h.preview⟩
  | refresh => exact refresh h.session h.about
  | reset => exact h.reset
  | clear => exact h.edit []
  | erase => exact h.edit _
  | insert t => exact h.edit _
  | accept f => exact h.edit _
  | closeDocument => exact h.close

/-- What the session was asked in a sequence of actions is asked by one after the other. -/
lemma run (h : Follows sent c) (actions : List Action) :
    Follows (sent ++ c.askedBy actions) (c.run actions) := by
  induction actions generalizing sent c with
  | nil =>
    rw [askedBy, List.append_nil]
    exact h
  | cons action actions ih =>
    rw [askedBy, ← List.append_assoc]
    exact ih (h.act action)

/-- The document of the calculator is the only one. -/
lemma count_eq_one (h : Follows sent c) (opened : (c.session.find? uri).isSome = true) :
    c.session.count = 1 := by
  obtain ⟨names, nodup, count, mem⟩ := c.session.exists_names
  have only (name : String) : name ∈ names ↔ name ∈ [uri] := by
    rw [mem, List.mem_singleton]
    constructor
    · intro found
      by_contra other
      rw [h.session, Session.find?_run_other, Session.find?_empty] at found
      · cases found
      · exact fun request mem same => other (same.symm.trans (h.about request mem))
    · rintro rfl
      exact opened
  have same := (List.perm_ext_iff_of_nodup nodup (List.pairwise_singleton _ uri)).mpr only
  rw [count, same.length_eq]
  rfl

end Follows

/-- A calculator whose document and preview are those of its entry. -/
structure Current (c : Calculator) : Prop where
  document : c.session.find? uri = some (.ofText uri c.entry)
  preview : c.preview = .ofText c.entry

/-- After an analysis the document and the preview are those of the entry. -/
lemma current_refresh (c : Calculator) : Current c.refresh.value := by
  rw [refresh_eq]
  exact ⟨find?_store_uri c.session c.entry, rfl⟩

/-- At the start the document and the preview are those of an empty entry. -/
lemma current_start (s : Session) : Current (start s).value :=
  ⟨find?_store_uri s [], Preview.ofText_nil.symm⟩

/-- An action that neither sets the entry nor closes the document settles the calculator, whatever
was done before. -/
lemma current_act (c : Calculator) (sends : ∀ t, action ≠ .enter t)
    (remains : action ≠ .closeDocument) : Current (c.act action).value := by
  cases action with
  | enter t => exact absurd rfl (sends t)
  | refresh | clear | erase | insert | accept => exact current_refresh _
  | reset => exact current_start _
  | closeDocument => exact absurd rfl remains

end Calculator

open Calculator

/-- After any sequence of actions the preview is that of the last text sent to the session, and the
document, while it is open, is of that very text; and right after an action that neither sets the
entry nor closes the document this text is the entry, and its document is open and the only one. -/
theorem preview_run (actions : List Action) :
    let c := initial.value.run actions
    c.session = Session.empty.run (history actions) ∧
    ∃ t before request after,
      LastGiving (history actions) uri t before request after ∧
      c.preview = .ofText t ∧
      (∀ d, c.session.find? uri = some d → d.content = t) ∧
      ∀ action, actions.getLast? = some action → (∀ t, action ≠ .enter t) →
        action ≠ .closeDocument →
        c.entry = t ∧ (c.session.find? uri).isSome = true ∧ c.session.count = 1 := by
  intro c
  have follows : Follows (history actions) c := follows_initial.run actions
  obtain ⟨t, before, request, after, given, preview⟩ := follows.preview
  have content (d : Document) (found : c.session.find? uri = some d) : d.content = t := by
    rw [follows.session, given.split, Session.run_append] at found
    -- no request after the last text changed the document
    have stored := Session.find?_run_noText given.last found
    rw [Session.find?_handle_gives given.gives] at stored
    rw [← Option.some.inj stored]
    rfl
  refine ⟨follows.session, t, before, request, after, given, preview, content, ?_⟩
  intro action last sends remains
  have found : c.session.find? uri = some (.ofText uri c.entry) := by
    obtain ⟨earlier, split⟩ := List.getLast?_eq_some_iff.mp last
    simp only [c, split, run_concat]
    exact (current_act _ sends remains).document
  have opened : (c.session.find? uri).isSome = true := by rw [found]; rfl
  exact ⟨content _ found, opened, follows.count_eq_one opened⟩

/-- With the document closed and the entry set meanwhile, a key sends the whole entry again. -/
theorem preview_run_closed :
    let c := initial.value.run [.insert ['1'], .closeDocument, .enter ['9'], .insert ['+']]
    c.preview = .ofText ['9', '+'] ∧ c.session.count = 1 := by
  intro c
  obtain ⟨_, t, _, _, _, _, preview, _, current⟩ :=
    preview_run [.insert ['1'], .closeDocument, .enter ['9'], .insert ['+']]
  obtain ⟨entry, _, count⟩ := current (.insert ['+']) rfl nofun nofun
  have typed : c.entry = ['9', '+'] := rfl
  rw [← typed]
  exact ⟨entry ▸ preview, count⟩

end Reckoner
