import Mathlib.Tactic.Cases
import Reckoner.View

/-!
# How a frame is drawn

A frame in which nothing is clicked draws its parts and leaves the view (`frame_idle`).  A click
goes past the buttons that it is not for, is taken by the one it is for, and then is gone, so that
the parts below are drawn for the view that the button left (`frame_click`).
-/

namespace Reckoner

namespace Drawing

/-- Without a click an element is only drawn. -/
lemma draw_idle (v : View) (above : List Element) (e : Element) :
    draw ⟨v, above, none⟩ e = ⟨v, above ++ [e], none⟩ := by
  cases e <;> rfl

/-- Without a click elements are only drawn. -/
lemma elements_idle (v : View) (above elements : List Element) :
    elements.foldl draw ⟨v, above, none⟩ = ⟨v, above ++ elements, none⟩ := by
  induction elements generalizing above with
  | nil => rw [List.append_nil]; rfl
  | cons e elements ih => rw [List.foldl_cons, draw_idle, ih, List.append_cons above e elements]

/-- Without a click all parts are laid out for the same view. -/
lemma parts_idle (v : View) (above : List Element) (parts : List (View → List Element)) :
    parts.foldl drawPart ⟨v, above, none⟩ = ⟨v, above ++ parts.flatMap (· v), none⟩ := by
  induction parts generalizing above with
  | nil => rw [List.flatMap_nil, List.append_nil]; rfl
  | cons part parts ih =>
    rw [List.foldl_cons, drawPart, elements_idle, ih, List.flatMap_cons, List.append_assoc]

variable {v : View} {above elements : List Element} {parts : List (View → List Element)}
variable {label : String} {n : Nat} {tip : Option String} {press : Press}

/-- An element that is not what was clicked is only drawn. -/
lemma draw_other {e : Element} (other : e.button? label = none) :
    draw ⟨v, above, some (label, n)⟩ e = ⟨v, above ++ [e], some (label, n)⟩ := by
  cases e with
  | label | error => rfl
  | button text tip press =>
    have ne : ¬ text = label := by
      intro same
      simp [Element.button?, same] at other
    simp only [draw, if_neg ne]

/-- A button of the label is pressed if it is the one in the count. -/
lemma draw_button {e : Element} (named : e.button? label = some (tip, press)) :
    draw ⟨v, above, some (label, n)⟩ e =
      match n with
      | 0 => ⟨v.press press, above ++ [e], none⟩
      | n + 1 => ⟨v, above ++ [e], some (label, n)⟩ := by
  cases e with
  | label | error => cases named
  | button text tip press =>
    rw [Element.button?] at named
    split at named
    · next same =>
      cases named
      cases n <;> simp only [draw, if_pos same]
    · cases named

/-- A click that is for none of these elements is left for those below. -/
lemma elements_passed (fewer : (elements.filterMap (Element.button? label)).length ≤ n) :
    elements.foldl draw ⟨v, above, some (label, n)⟩ =
      ⟨v, above ++ elements,
        some (label, n - (elements.filterMap (Element.button? label)).length)⟩ := by
  induction elements generalizing above n with
  | nil => rw [List.append_nil]; rfl
  | cons e elements ih =>
    rw [List.append_cons above e elements, List.foldl_cons]
    cases named : e.button? label with
    | none =>
      rw [List.filterMap_cons_none named] at fewer ⊢
      rw [draw_other named, ih fewer]
    | some found =>
      rw [List.filterMap_cons_some named, List.length_cons] at fewer ⊢
      cases n with
      | zero => cases fewer
      | succ n =>
        rw [draw_button named, Nat.add_sub_add_right]
        exact ih (Nat.le_of_succ_le_succ fewer)

/-- The button that was clicked is pressed, and only that one. -/
lemma elements_pressed (hit : (elements.filterMap (Element.button? label))[n]? = some (tip, press)) :
    elements.foldl draw ⟨v, above, some (label, n)⟩ = ⟨v.press press, above ++ elements, none⟩ := by
  induction elements generalizing above n with
  | nil => cases hit
  | cons e elements ih =>
    rw [List.append_cons above e elements, List.foldl_cons]
    cases named : e.button? label with
    | none =>
      rw [List.filterMap_cons_none named] at hit
      rw [draw_other named, ih hit]
    | some found =>
      rw [List.filterMap_cons_some named] at hit
      cases n with
      | zero =>
        cases hit
        rw [draw_button named, elements_idle]
      | succ n =>
        rw [draw_button named]
        exact ih hit

/-- Up to the button that was clicked the parts are those of the frame before, and below it nothing
is clicked. -/
lemma parts_pressed (hit : ((parts.flatMap (· v)).filterMap (Element.button? label))[n]? =
      some (tip, press)) :
    (parts.foldl drawPart ⟨v, above, some (label, n)⟩).view = v.press press := by
  induction parts generalizing above n with
  | nil => cases hit
  | cons part parts ih =>
    rw [List.flatMap_cons, List.filterMap_append] at hit
    rw [List.foldl_cons, drawPart]
    -- below the part that takes the click the parts are drawn for another view, without a click
    by_cases here : n < ((part v).filterMap (Element.button? label)).length
    · rw [List.getElem?_append_left here] at hit
      rw [elements_pressed hit, parts_idle]
    · have passed := Nat.le_of_not_lt here
      rw [List.getElem?_append_right passed] at hit
      rw [elements_passed passed]
      exact ih hit

end Drawing

namespace View

/-- Without a click a frame leaves what the escape key and the editor do. -/
lemma frame_unclicked (v : View) (pressed : Bool) (change : Option Text) :
    (v.frame ⟨pressed, change, none⟩).view = ((v.escape pressed).edit change).focused := by
  simp only [frame, Drawing.parts_idle]

/-- A frame in which nothing comes. -/
lemma frame_idle (v : View) :
    v.frame .idle =
      ⟨colour v.calculator.entry v.calculator.preview.segments, parts.flatMap (· v.focused),
        v.focused⟩ := by
  simp only [frame, Input.idle, escape, edit, Bool.false_eq_true, if_false, Drawing.parts_idle,
    List.nil_append]

/-- A click does what its button does, and does it once. -/
theorem frame_click {v : View} {label : String} {n : Nat} {tip : Option String} {press : Press}
    (hit : v.button? label n = some (tip, press)) :
    (v.frame ⟨false, none, some (label, n)⟩).view = v.focused.press press := by
  rw [button?, screen, frame_idle] at hit
  simp only [frame, escape, edit, Bool.false_eq_true, if_false]
  exact Drawing.parts_pressed hit

end View

end Reckoner
