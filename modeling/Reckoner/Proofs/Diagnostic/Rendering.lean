import Mathlib.Data.List.Basic
import Mathlib.Tactic.Lemma
import Reckoner.Diagnostic
import Reckoner.Proofs.Grammar.Token
import Std.Data.String.ToNat

/-!
# What rendered diagnostics tell

A rendered diagnostic tells its places and its message (`render_injective`): each number ends where
its digits do, and the message is all that comes after the places.  Diagnostics whose messages stay
on one line are rendered one to a line (`lines_renderAll`), so the list of them is told as well.
-/

namespace Reckoner

/-- The lines of a text: what stands between line feeds.  Nothing follows the last line feed unless
some character does. -/
def Text.lines (t : Text) : List Text :=
  let pieces := t.splitOn '\n'
  if pieces.getLast? = some [] then pieces.dropLast else pieces

/-- A text that stays on one line. -/
def OneLine (s : String) : Prop := '\n' ∉ s.toList

instance (s : String) : Decidable (OneLine s) := inferInstanceAs (Decidable ('\n' ∉ s.toList))

variable {p q : Position} {d e : Diagnostic} {ds es : List Diagnostic} {r s : Text} {c : Char}
variable {a b : String}

/-- Two single lines joined are a single line. -/
lemma OneLine.append (ha : OneLine a) (hb : OneLine b) : OneLine (a ++ b) := by
  rw [OneLine, String.toList_append, List.mem_append]
  exact fun mem => mem.elim ha hb

/-- The digits of a number. -/
def numeral (n : Nat) : Run Char.isDigit where
  text := (toString n).toList
  all := by
    intro c mem
    rw [Nat.toString_eq_repr, Nat.toList_repr] at mem
    exact Nat.isDigit_of_mem_toDigits (by decide) (by decide) mem

/-- A number before another character is told by its digits. -/
lemma numeral_append_inj {m n : Nat} (other : c.isDigit = false)
    (eq : (numeral m).text ++ c :: r = (numeral n).text ++ c :: s) : m = n ∧ r = s := by
  have ends (t : Text) : ∀ ch ∈ (c :: t).head?, ch.isDigit = false := by
    rintro _ ⟨⟩
    exact other
  obtain ⟨same, rest⟩ := Run.append_inj (ends r) (ends s) eq
  have digits : toString m = toString n := String.toList_inj.mp (congrArg Run.text same)
  exact ⟨Nat.repr_inj.mp digits, List.tail_eq_of_cons_eq rest⟩

namespace Diagnostic

/-- A position is written as its line and its column, counted from one. -/
lemma renderPosition_append (p : Position) (r : Text) :
    (renderPosition p).toList ++ r =
      (numeral (p.line + 1)).text ++ ':' :: ((numeral (p.column + 1)).text ++ r) := by
  simp [renderPosition, numeral]

/-- A place before a character that is no digit is told. -/
lemma renderPosition_append_inj (other : c.isDigit = false)
    (eq : (renderPosition p).toList ++ c :: r = (renderPosition q).toList ++ c :: s) :
    p = q ∧ r = s := by
  rw [renderPosition_append, renderPosition_append] at eq
  obtain ⟨line, eq⟩ := numeral_append_inj (by decide) eq
  obtain ⟨column, rest⟩ := numeral_append_inj other eq
  cases p; cases q
  cases line; cases column
  exact ⟨rfl, rest⟩

/-- A diagnostic is written as where it starts, where it stops and what it says. -/
lemma toList_render (d : Diagnostic) :
    d.render.toList = (renderPosition d.range.start).toList ++
      '-' :: ((renderPosition d.range.stop).toList ++ ' ' :: d.message.toList) := by
  simp [render]

/-- The line that shows a diagnostic tells all of it. -/
lemma render_injective (eq : d.render = e.render) : d = e := by
  have chars := congrArg String.toList eq
  rw [toList_render, toList_render] at chars
  obtain ⟨start, chars⟩ := renderPosition_append_inj (by decide) chars
  obtain ⟨stop, message⟩ := renderPosition_append_inj (by decide) chars
  obtain ⟨⟨a, b⟩, m⟩ := d
  obtain ⟨⟨a', b'⟩, m'⟩ := e
  cases start; cases stop
  cases String.toList_inj.mp message
  rfl

/-- Places are shown on one line. -/
lemma oneLine_renderPosition (p : Position) : OneLine (renderPosition p) := by
  have digits (n : Nat) : OneLine (toString n) := fun mem => by
    cases (numeral n).all _ mem
  have colon : OneLine ":" := by decide
  exact ((digits _).append colon).append (digits _)

/-- A message of a single line is rendered in one. -/
lemma oneLine_render (message : OneLine d.message) : OneLine d.render := by
  have dash : OneLine "-" := by decide
  have space : OneLine " " := by decide
  exact ((((oneLine_renderPosition _).append dash).append
    (oneLine_renderPosition _)).append space).append message

/-- Every diagnostic is written with some character. -/
lemma toList_render_ne_nil (d : Diagnostic) : d.render.toList ≠ [] := by
  rw [toList_render]
  exact List.append_ne_nil_of_right_ne_nil _ (List.cons_ne_nil _ _)

/-- Messages that stay on one line are rendered one to a line. -/
lemma lines_renderAll (messages : ∀ d ∈ ds, OneLine d.message) :
    Text.lines (renderAll ds).toList = ds.map (·.render.toList) := by
  cases ds with
  | nil => decide
  | cons d ds =>
    have pieces : (renderAll (d :: ds)).toList.splitOn '\n' = (d :: ds).map (·.render.toList) := by
      rw [renderAll, String.toList_intercalate, List.map_map]
      refine List.splitOn_intercalate '\n' ?_ (List.cons_ne_nil _ _)
      rintro _ shown
      obtain ⟨e, mem, rfl⟩ := List.mem_map.mp shown
      exact oneLine_render (messages e mem)
    have full : ((d :: ds).map (·.render.toList)).getLast? ≠ some [] := by
      intro last
      obtain ⟨e, _, none⟩ := List.mem_map.mp (List.mem_of_getLast? last)
      exact e.toList_render_ne_nil none
    rw [Text.lines, pieces]
    exact if_neg full

/-- Diagnostics whose messages stay on one line are told by their rendering. -/
lemma renderAll_injective (hd : ∀ d ∈ ds, OneLine d.message) (he : ∀ e ∈ es, OneLine e.message)
    (eq : renderAll ds = renderAll es) : ds = es := by
  have lines := congrArg (fun s : String => Text.lines s.toList) eq
  simp only [lines_renderAll hd, lines_renderAll he] at lines
  refine List.map_injective_iff.mpr ?_ lines
  exact fun d e same => render_injective (String.toList_inj.mp same)

end Diagnostic

end Reckoner
