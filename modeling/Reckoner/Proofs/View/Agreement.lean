import Mathlib.Tactic.Cases
import Reckoner.Proofs.Calculator.Preview
import Reckoner.Proofs.Session.Segments
import Reckoner.Proofs.View.Frame

/-!
# What the view shows

What the reader does leaves a certain text as the entry (`entry_handle`), and after the frames of it
the text in the editor is that of the document, and its colours, the value, the diagnostics and the
derivation on the screen are those of its analysis (`shown_handle`).
-/

namespace Reckoner

open Calculator

namespace Drawing

/-- A button leaves the calculator current. -/
lemma current_press (v : View) (h : Current v.calculator) (press : Press) :
    Current (v.press press).calculator := by
  cases press with
  | clear | reset | erase | insert | accept => exact current_act _ nofun nofun
  | fold => exact h

/-- What is drawn and clicked leaves the calculator current. -/
lemma current_draw (d : Drawing) (h : Current d.view.calculator) (e : Element) :
    Current (d.draw e).view.calculator := by
  unfold draw
  split
  next label tip press clicked n _ =>
    split
    · cases n with
      | zero => exact current_press d.view h press
      | succ n => exact h
    · exact h
  next => exact h

/-- The elements of a part of the screen leave the calculator current. -/
lemma current_elements (d : Drawing) (h : Current d.view.calculator) (elements : List Element) :
    Current (elements.foldl draw d).view.calculator := by
  induction elements generalizing d with
  | nil => exact h
  | cons e elements ih => exact ih (d.draw e) (current_draw d h e)

/-- The parts of the screen leave the calculator current. -/
lemma current_parts (d : Drawing) (h : Current d.view.calculator)
    (parts : List (View → List Element)) :
    Current (parts.foldl drawPart d).view.calculator := by
  induction parts generalizing d with
  | nil => exact h
  | cons part parts ih => exact ih (d.drawPart part) (current_elements d h _)

end Drawing

namespace View

variable {v : View}

/-- The escape key leaves the calculator current. -/
lemma current_escape (h : Current v.calculator) (pressed : Bool) :
    Current (v.escape pressed).calculator := by
  unfold escape
  split
  · exact current_act _ nofun nofun
  · exact h

/-- The editor leaves the calculator current. -/
lemma current_edit (h : Current v.calculator) (change : Option Text) :
    Current (v.edit change).calculator := by
  cases change with
  | none => exact h
  | some t => exact current_act _ nofun nofun

/-- Whatever comes in a frame, the calculator is current after it. -/
lemma current_frame (v : View) (h : Current v.calculator) (input : Input) :
    Current (v.frame input).view.calculator := by
  have edited := current_edit (current_escape h input.escape) input.edit
  simp only [frame]
  apply Drawing.current_parts
  exact ⟨edited.document, edited.preview⟩

/-- Whatever the reader does, the calculator is current after it. -/
lemma current_handle (v : View) (h : Current v.calculator) (gesture : Gesture) :
    Current (v.handle gesture).view.calculator := by
  have first := current_frame v h (v.input gesture)
  have second := current_frame _ first .idle
  simp only [handle, Reaction.view]
  exact current_frame _ second .idle

/-- The gestures of a sequence are handled one after the other. -/
lemma run_cons (v : View) (gesture : Gesture) (gestures : List Gesture) :
    v.run (gesture :: gestures) = (v.handle gesture).view.run gestures := by
  simp only [run, List.foldl_cons]

/-- At first the calculator is current. -/
lemma current_initial : Current initial.calculator := current_start .empty

/-- Whatever the reader does one after the other, the calculator is current after it. -/
lemma current_run (v : View) (h : Current v.calculator) (gestures : List Gesture) :
    Current (v.run gestures).calculator := by
  induction gestures generalizing v with
  | nil => exact h
  | cons gesture gestures ih =>
    rw [run_cons]
    exact ih _ (current_handle v h gesture)

/-- The text of the editor, cut where it ceases to be recognized. -/
def sections (recognized rejected : Text) : List Section :=
  [⟨recognized, .recognized⟩, ⟨rejected, .rejected⟩].filter fun piece => !piece.text.isEmpty

/-- Segments that cut a text in two colour it as its two sections. -/
lemma colour_segments_append (recognized rejected : Text) {i : Issue}
    (consumed : i.consumed = recognized.size)
    (total : i.total = Text.size (recognized ++ rejected)) :
    colour (recognized ++ rejected) i.segments = sections recognized rejected := by
  have front := Text.slice_left recognized rejected
  have back := Text.slice_right recognized rejected
  have rest : Text.dropBytes? (recognized.size + rejected.size) (recognized ++ rejected) =
      some [] := by
    have cut := Text.dropBytes?_size_append (recognized ++ rejected) []
    rwa [List.append_nil, Text.size_append] at cut
  rw [segments_eq consumed total, colour, sections]
  by_cases a : recognized = [] <;> by_cases b : rejected = []
  · simp [a, b]
  · subst a
    simp only [List.nil_append, Text.size_nil, Nat.zero_add] at back rest ⊢
    simp [b, back, rest]
  · subst b
    simp only [List.append_nil, Text.size_nil, Nat.add_zero] at front rest ⊢
    simp [a, front, rest]
  · simp [a, b, front, back, rest]

/-- The segments of its own parse colour a text where it ceases to be recognized. -/
lemma colour_segments (t : Text) :
    ∃ recognized rejected, t = recognized ++ rejected ∧
      (parse t).issue.consumed = Text.size recognized ∧
      colour t (parse t).issue.segments = sections recognized rejected := by
  obtain ⟨recognized, rejected, rfl, consumed, total⟩ := exists_consumed t
  have coloured := colour_segments_append recognized rejected consumed total
  exact ⟨recognized, rejected, rfl, consumed, coloured⟩

/-- What is to be shown of the analysis of a text. -/
def account (t : Text) (unfolded : Bool) : List Element :=
  [.label "Valeur :",
   .label (((analyze t).value.map Numeral.ofFloat).getD "indisponible"),
   .label "Diagnostics :"] ++
  (match (Document.ofText uri t).publications with
    | [] => [.label "aucun"]
    | publications => publications.map fun p => .error p.diagnostic.render) ++
  .button "Démarche" none .fold ::
    (if unfolded then
      [.label "Arbre (notation préfixe) :",
       .label (String.ofList (((analyze t).ast.map (·.polish t)).getD []))]
    else [])

/-- What a current calculator shows is the account of its entry. -/
lemma account_eq (v : View) (h : Current v.calculator) :
    results v.calculator.preview ++ (header ++ v.derivation) =
      account v.calculator.entry v.unfolded := by
  unfold results derivation account
  rw [h.preview]
  cases published : (Document.ofText uri v.calculator.entry).publications with
  | nil => simp only [Preview.ofText, published]; rfl
  | cons p ps => simp only [Preview.ofText, published, List.map_map]; rfl

/-- What is drawn above the results, none of it in the colour of errors. -/
lemma isError_above (c : Calculator) :
    ∀ e ∈ heading c ++ (offers c ++ (commands ++ keys)), e.isError = false := by
  have headings : ∀ e ∈ heading c, e.isError = false := by
    unfold heading
    split <;> decide
  have offered : ∀ e ∈ offers c, e.isError = false := by
    simp only [offers]
    split
    · exact List.forall_mem_nil _
    · exact List.forall_mem_cons.mpr ⟨rfl, List.forall_mem_map.mpr fun _ _ => rfl⟩
  have buttons : ∀ e ∈ commands ++ keys, e.isError = false := by decide
  exact List.forall_mem_append.mpr ⟨headings, List.forall_mem_append.mpr ⟨offered, buttons⟩⟩

/-- The screen of a current calculator ends with the account of its entry. -/
lemma parts_current (v : View) (h : Current v.calculator) :
    ∃ above, parts.flatMap (· v.focused) = above ++ account v.calculator.entry v.unfolded ∧
      ∀ e ∈ above, e.isError = false := by
  refine ⟨_, ?_, isError_above v.calculator⟩
  rw [← account_eq v h]
  simp only [parts, List.flatMap_cons, List.flatMap_nil, List.append_nil, List.append_assoc]
  rfl

end View

/-- What a button leaves of an entry. -/
def Press.leaves (t : Text) : Press → Text
  | .clear | .reset => []
  | .erase => withoutLastSymbol t
  | .insert u => t ++ u
  | .accept f => withCall t f
  | .fold => t

/-- Whether a button leaves the derivation unfolded. -/
def Press.unfolds (unfolded : Bool) : Press → Bool
  | .fold => !unfolded
  | _ => unfolded

namespace View

/-- What a gesture leaves as the entry. -/
def leaves (v : View) : Gesture → Text
  | .rest | .hover _ _ => v.calculator.entry
  | .type t => v.calculator.entry ++ t
  | .replace t => if t.isEmpty then v.calculator.entry else t
  | .edit t => t
  | .escape => []
  | .click label n =>
    (v.button? label n).elim v.calculator.entry fun button => button.2.leaves v.calculator.entry

/-- Whether a gesture leaves the derivation unfolded. -/
def unfolds (v : View) : Gesture → Bool
  | .click label n => (v.button? label n).elim v.unfolded fun button => button.2.unfolds v.unfolded
  | _ => v.unfolded

/-- A button does its own work, and only the header of the derivation folds that. -/
lemma press_leaves (v : View) (press : Press) :
    (v.press press).calculator.entry = press.leaves v.calculator.entry ∧
      (v.press press).unfolded = press.unfolds v.unfolded := by
  cases press with
  | clear | erase | insert | accept => exact ⟨entry_edit .., rfl⟩
  | reset | fold => exact ⟨rfl, rfl⟩

/-- The focus is no part of the entry. -/
@[simp] lemma focused_entry (v : View) : v.focused.calculator.entry = v.calculator.entry := rfl

/-- The focus does not fold the derivation. -/
@[simp] lemma focused_unfolded (v : View) : v.focused.unfolded = v.unfolded := rfl

/-- The escape key empties the entry. -/
lemma escape_leaves (v : View) (pressed : Bool) :
    (v.escape pressed).calculator.entry = (if pressed then [] else v.calculator.entry) ∧
      (v.escape pressed).unfolded = v.unfolded := by
  cases pressed with
  | false => exact ⟨rfl, rfl⟩
  | true => exact ⟨entry_edit .., rfl⟩

/-- The editor leaves the text that it changed to. -/
lemma edit_leaves (v : View) (change : Option Text) :
    (v.edit change).calculator.entry = change.getD v.calculator.entry ∧
      (v.edit change).unfolded = v.unfolded := by
  cases change with
  | none => exact ⟨rfl, rfl⟩
  | some t =>
    refine ⟨?_, rfl⟩
    simp only [edit, View.act, Calculator.act, refresh_eq]
    rfl

/-- The frames after that of a gesture only draw. -/
lemma view_handle (v : View) (gesture : Gesture) :
    (v.handle gesture).view = (v.frame (v.input gesture)).view.focused.focused := by
  simp only [handle, Reaction.view, frame_idle]

/-- Without a click only the escape key and the editor leave something. -/
lemma handle_unclicked (v : View) {gesture : Gesture} (pressed : Bool) (change : Option Text)
    (coming : v.input gesture = ⟨pressed, change, none⟩) :
    (v.handle gesture).view.calculator.entry =
        change.getD (if pressed then [] else v.calculator.entry) ∧
      (v.handle gesture).view.unfolded = v.unfolded := by
  have escaped := v.escape_leaves pressed
  have edited := (v.escape pressed).edit_leaves change
  simp only [view_handle, coming, frame_unclicked, focused_entry, focused_unfolded]
  exact ⟨by rw [edited.1, escaped.1], edited.2.trans escaped.2⟩

/-- With a click only the button that was clicked leaves something. -/
lemma handle_clicked {v : View} {gesture : Gesture} {label : String} {n : Nat}
    {tip : Option String} {press : Press} (hit : v.button? label n = some (tip, press))
    (coming : v.input gesture = ⟨false, none, some (label, n)⟩) :
    (v.handle gesture).view.calculator.entry = press.leaves v.calculator.entry ∧
      (v.handle gesture).view.unfolded = press.unfolds v.unfolded := by
  have pressed := v.focused.press_leaves press
  simp only [view_handle, coming, frame_click hit, focused_entry, focused_unfolded] at pressed ⊢
  exact pressed

end View

open View

/-- Typing and pasting leave their text in the entry, escape leaves nothing, and a click does what
its button does; nothing else changes the entry, or folds the derivation. -/
theorem entry_handle (v : View) (gesture : Gesture) :
    (v.handle gesture).view.calculator.entry = v.leaves gesture ∧
      (v.handle gesture).view.unfolded = v.unfolds gesture := by
  cases gesture with
  | rest | hover => exact v.handle_unclicked false none rfl
  | escape => exact v.handle_unclicked true none rfl
  | edit t => exact v.handle_unclicked false (some t) rfl
  | type t =>
    cases t with
    | nil =>
      -- pasting nothing is no event
      rw [leaves, List.append_nil]
      exact v.handle_unclicked false none rfl
    | cons c t => exact v.handle_unclicked false (some (v.calculator.entry ++ c :: t)) rfl
  | replace t =>
    cases t with
    | nil => exact v.handle_unclicked false none rfl
    | cons c t => exact v.handle_unclicked false (some (c :: t)) rfl
  | click label n =>
    cases hit : v.button? label n with
    | none =>
      have coming : v.input (.click label n) = .idle := by
        rw [input, hit]; rfl
      rw [leaves, unfolds, hit]
      exact v.handle_unclicked false none coming
    | some button =>
      have coming : v.input (.click label n) = ⟨false, none, some (label, n)⟩ := by
        rw [input, hit]; rfl
      rw [leaves, unfolds, hit]
      exact handle_clicked hit coming

/-- After the frames of whatever the reader does, in every state that can be reached, the entry is
the text of the document, and the editor's colours, the value, the diagnostics and the derivation on
the screen are those of its analysis; nothing else on the screen has the colour of errors. -/
theorem shown_handle (gestures : List Gesture) (gesture : Gesture) :
    let last := ((View.initial.run gestures).handle gesture).last
    let t := last.view.calculator.entry
    (∃ d, last.view.calculator.session.find? uri = some d ∧ d.content = t) ∧
    (∃ above, last.elements = above ++ account t last.view.unfolded ∧
      ∀ e ∈ above, e.isError = false) ∧
    ∃ recognized rejected, t = recognized ++ rejected ∧
      (parse t).issue.consumed = Text.size recognized ∧
      last.editor = sections recognized rejected := by
  -- the frame of the gesture may still have the colours of the text before; those after it do not
  have before := current_run initial current_initial gestures
  simp only [handle]
  generalize initial.run gestures = v at before
  have first := current_frame v before (v.input gesture)
  generalize (v.frame (v.input gesture)).view = v at first
  have last := current_frame v first .idle
  generalize (v.frame .idle).view = v at last
  have colours := colour_segments v.calculator.entry
  simp only [frame_idle, last.preview]
  exact ⟨⟨_, last.document, rfl⟩, parts_current v last, colours⟩

end Reckoner
