import Reckoner.Calculator

/-!
# The view

What the calculator shows and how it answers to the reader.  The screen is drawn anew in every
frame, from top to bottom: the escape key first, then the editor, the suggestions, the buttons, the
results and the derivation.  What comes in a frame takes effect where it is met, so what is drawn
after it shows the calculator as it is then.  The editor has the colours of the analysis with which
its frame begins; one frame later they are those of its text.
-/

namespace Reckoner

/-- What a button does. -/
inductive Press where
  | clear
  | reset
  | erase
  | insert (t : Text)
  | accept (f : Function)
  /-- Folds or unfolds the derivation. -/
  | fold

/-- Something on the screen. -/
inductive Element where
  | label (text : String)
  | error (text : String)
  | button (text : String) (tip : Option String) (press : Press)

namespace Element

/-- The text that an element shows. -/
def text : Element → String
  | label text => text
  | error text => text
  | button text _ _ => text

/-- Whether an element is shown in the colour of errors. -/
def isError : Element → Bool
  | error _ => true
  | _ => false

/-- The tip and the effect of a button of a label. -/
def button? (label : String) : Element → Option (Option String × Press)
  | button text tip press => if text = label then some (tip, press) else none
  | _ => none

end Element

/-- A piece of the editor's text and how it is coloured. -/
structure Section where
  text : Text
  recognition : Recognition
  deriving DecidableEq

/-- The calculator on the screen. -/
structure View where
  calculator : Calculator
  unfolded : Bool

/-- What comes in a frame: whether escape was pressed, the text that the editor changed to, and the
button that was clicked, by its label and the number of such buttons before it. -/
structure Input where
  escape : Bool
  edit : Option Text
  click : Option (String × Nat)

/-- Nothing comes. -/
def Input.idle : Input := ⟨false, none, none⟩

/-- A frame while it is drawn: the view by now, the elements so far, and the click while no button
has taken it. -/
structure Drawing where
  view : View
  elements : List Element
  click : Option (String × Nat)

/-- A frame: what it shows in the editor and elsewhere, and the view after it. -/
structure Frame where
  editor : List Section
  elements : List Element
  view : View

/-- What the reader can do. -/
inductive Gesture where
  | rest
  /-- Pastes at the end of the editor's text. -/
  | type (t : Text)
  /-- Pastes over all of the editor's text. -/
  | replace (t : Text)
  /-- Changes the editor's text in any other way. -/
  | edit (t : Text)
  | escape
  | click (button : String) (n : Nat)
  | hover (button : String) (n : Nat)

/-- What a gesture does beside changing the calculator. -/
inductive Effect where
  /-- Nothing is to be told. -/
  | done
  /-- There was such a button, and it was clicked. -/
  | clicked
  /-- These texts were shown while the pointer rested on the button. -/
  | tips (texts : List String)
  /-- There is no such button. -/
  | noButton

/-- The frame of a gesture, the frame that stays on the screen, and what came of the gesture. -/
structure Reaction where
  first : Frame
  last : Frame
  effect : Effect

namespace View

/-- The view at first. -/
def initial : View := ⟨Calculator.initial.value, true⟩

/-- A text in the colours of some segments.  Segments that do not fit the text colour nothing, and
what none of them covers has the colour of recognized text. -/
def colour (t : Text) (segments : List Segment) : List Section :=
  let pieces := segments.map fun segment => (⟨t.slice segment.span, segment.recognition⟩ : Section)
  let covered := segments.foldl
    (fun covered segment => if (t.slice segment.span).isEmpty then covered else segment.span.stop) 0
  let remainder : Section := ⟨(t.dropBytes? covered).getD [], .recognized⟩
  (pieces ++ [remainder]).filter fun piece => !piece.text.isEmpty

/-- A button that inserts a text. -/
def key (label : String) (inserted : String) : Element :=
  .button label none (.insert inserted.toList)

/-- What stands above and in the editor beside its text. -/
def heading (c : Calculator) : List Element :=
  [.label "Calculatrice — diagnostics", .label "Entrée :"] ++
    if c.entry.isEmpty then [.label "Ex: 1 + 2*-sqrt(4), log(10)/(2-2)"] else []

/-- The functions on offer, unless there are none or all of them. -/
def offers (c : Calculator) : List Element :=
  let functions := c.suggestions
  if functions.isEmpty || functions.length = Function.table.length then []
  else
    .label "Suggestions :" ::
      functions.map fun f => .button f.name (some f.description) (.accept f)

/-- The buttons that act on the whole entry. -/
def commands : List Element :=
  [.button "C" (some "Efface l’entrée") .clear,
   .button "AC" (some "Remise à zéro totale") .reset,
   .button "DEL" (some "Efface le dernier symbole") .erase]

/-- The keys for symbols, functions and digits. -/
def keys : List Element :=
  ["(", ")", "+", "-", "*", "/"].map (fun symbol => key symbol symbol) ++
    Function.table.map (fun f => key f.name f.opening) ++
    ["7", "8", "9", "4", "5", "6", "1", "2", "3", "0", "."].map (fun digit => key digit digit) ++
    [key "␣" " "]

/-- What is known about the entry. -/
def results (p : Preview) : List Element :=
  [.label "Valeur :", .label (p.value.getD "indisponible"), .label "Diagnostics :"] ++
    if p.diagnostics.isEmpty then [.label "aucun"] else p.diagnostics.map .error

/-- The header of the derivation, which folds it. -/
def header : List Element := [.button "Démarche" none .fold]

/-- The derivation of the value, unless it is folded. -/
def derivation (v : View) : List Element :=
  if v.unfolded then
    [.label "Arbre (notation préfixe) :", .label (String.ofList v.calculator.preview.derivation)]
  else []

/-- Does an action on the calculator. -/
def act (v : View) (action : Action) : View :=
  { v with calculator := (v.calculator.act action).value }

/-- Presses a button. -/
def press (v : View) : Press → View
  | .clear => v.act .clear
  | .reset => v.act .reset
  | .erase => v.act .erase
  | .insert t => v.act (.insert t)
  | .accept f => v.act (.accept f)
  | .fold => { v with unfolded := !v.unfolded }

end View

namespace Drawing

/-- Draws an element, which does its effect if it is the button that was clicked. -/
def draw (d : Drawing) (e : Element) : Drawing :=
  let drawn := { d with elements := d.elements ++ [e] }
  match e, d.click with
  | .button label _ press, some (clicked, n) =>
    if label = clicked then
      match n with
      | 0 => { drawn with view := d.view.press press, click := none }
      | n + 1 => { drawn with click := some (clicked, n) }
    else drawn
  | _, _ => drawn

/-- Draws a part of the screen, laid out for the view as it is when the part is begun. -/
def drawPart (d : Drawing) (part : View → List Element) : Drawing := (part d.view).foldl draw d

end Drawing

namespace View

/-- The parts of the screen from top to bottom. -/
def parts : List (View → List Element) :=
  [fun v => heading v.calculator, fun v => offers v.calculator, fun _ => commands, fun _ => keys,
   fun v => results v.calculator.preview, fun _ => header, derivation]

/-- The view after the escape key, which empties the entry. -/
def escape (v : View) (pressed : Bool) : View := if pressed then v.act .clear else v

/-- The view after the editor, which analyzes its text when that has changed. -/
def edit (v : View) : Option Text → View
  | none => v
  | some t => (v.act (.enter t)).act .refresh

/-- The view when the editor has the focus that was asked for. -/
def focused (v : View) : View := { v with calculator := { v.calculator with focus := false } }

/-- Draws a frame. -/
def frame (v : View) (input : Input) : Frame :=
  let begun := v.escape input.escape
  let edited := begun.edit input.edit
  let drawn := parts.foldl Drawing.drawPart ⟨edited.focused, [], input.click⟩
  ⟨colour edited.calculator.entry begun.calculator.preview.segments, drawn.elements, drawn.view⟩

/-- The editor when nothing comes. -/
def editor (v : View) : List Section := (v.frame .idle).editor

/-- Everything on the screen but the editor's text when nothing comes. -/
def screen (v : View) : List Element := (v.frame .idle).elements

/-- The tip and the effect of the `n`-th button of a label, counted from zero. -/
def button? (v : View) (label : String) (n : Nat) : Option (Option String × Press) :=
  (v.screen.filterMap (Element.button? label))[n]?

/-- What comes in the frame of a gesture.  Pasting nothing is no event, and neither is clicking where
no button is. -/
def input (v : View) : Gesture → Input
  | .rest | .hover _ _ => .idle
  | .type t => { Input.idle with edit := if t.isEmpty then none else some (v.calculator.entry ++ t) }
  | .replace t => { Input.idle with edit := if t.isEmpty then none else some t }
  | .edit t => { Input.idle with edit := some t }
  | .escape => { Input.idle with escape := true }
  | .click label n =>
    { Input.idle with click := if (v.button? label n).isSome then some (label, n) else none }

/-- What comes of a gesture. -/
def effect (v : View) : Gesture → Effect
  | .rest | .type _ | .replace _ | .edit _ | .escape => .done
  | .click label n => if (v.button? label n).isSome then .clicked else .noButton
  | .hover label n =>
    match v.button? label n with
    | none => .noButton
    | some (tip, _) => .tips tip.toList

/-- The frame of a gesture and two frames in which nothing comes. -/
def handle (v : View) (gesture : Gesture) : Reaction :=
  let first := v.frame (v.input gesture)
  ⟨first, (first.view.frame .idle).view.frame .idle, v.effect gesture⟩

end View

namespace Reaction

/-- The editor in the frame of the gesture. -/
def editor (r : Reaction) : List Section := r.first.editor

/-- The view that stays. -/
def view (r : Reaction) : View := r.last.view

end Reaction

/-- The view after a sequence of gestures. -/
def View.run (v : View) (gestures : List Gesture) : View :=
  gestures.foldl (fun v gesture => (v.handle gesture).view) v

end Reckoner
