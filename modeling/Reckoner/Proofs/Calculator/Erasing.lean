import Reckoner.Proofs.Calculator.Preview
import Reckoner.Proofs.Completion.Narrowing
import Reckoner.Proofs.Grammar.Token

/-!
# Taking back

What is left of an entry when its last symbol is taken back, as a relation (`TakesBack`): one
constructor for each thing that a symbol can be.  The openings that are taken back as one are those
of the functions, and no two of them end the same text, so the relation determines what is left.
Hence what was inserted or accepted last is what is taken back (`erase_takes_back`).
-/

namespace Reckoner

open Grammar

/-- `TakesBack s t`: without its last symbol and the spaces after it `s` is `t`. -/
inductive TakesBack : Text → Text → Prop where
  | spaces (w : Run (· = ' ')) :
    TakesBack w.text []
  | call {t f} (known : f ∈ Function.table) (w : Run (· = ' ')) :
    TakesBack (t ++ f.opening.toList ++ w.text) t
  | character {t c} (visible : c ≠ ' ')
    (single : ∀ f ∈ Function.table, ¬ f.opening.toList <:+ t ++ [c]) (w : Run (· = ' ')) :
    TakesBack (t ++ [c] ++ w.text) t

variable {s t a b front word : Text} {f : Function} {c : Calculator} {ch : Char}

namespace Calculator

/-! The openings that are taken back as one. -/

/-- The openings that are taken back as one are those of the functions. -/
lemma openings_perm : openings.Perm (Function.table.map (·.opening.toList)) := by decide +kernel

/-- The openings that are taken back as one are those of the functions. -/
lemma mem_openings : a ∈ openings ↔ ∃ f ∈ Function.table, f.opening.toList = a := by
  rw [openings_perm.mem_iff, List.mem_map]

/-- Every opening ends with a parenthesis. -/
lemma getLast?_opening (known : f ∈ Function.table) : f.opening.toList.getLast? = some '(' := by
  have all : ∀ a ∈ openings, a.getLast? = some '(' := by decide +kernel
  exact all _ (mem_openings.mpr ⟨f, known, rfl⟩)

/-- No text ends with two different openings. -/
lemma opening_unique (ha : a ∈ openings) (hb : b ∈ openings) (left : a <:+ s) (right : b <:+ s) :
    a = b := by
  have apart : ∀ a ∈ openings, ∀ b ∈ openings, a <:+ b → a = b := by decide +kernel
  rcases List.suffix_or_suffix_of_suffix left right with short | short
  · exact apart a ha b hb short
  · exact (apart b hb a ha short).symm

/-- The opening that a text ends with is the one that is found. -/
lemma find?_opening (known : f ∈ Function.table) :
    openings.find? (·.isSuffixOf (t ++ f.opening.toList)) = some f.opening.toList := by
  have own : f.opening.toList ∈ openings := mem_openings.mpr ⟨f, known, rfl⟩
  have ends : f.opening.toList <:+ t ++ f.opening.toList := List.suffix_append ..
  cases found : openings.find? (·.isSuffixOf (t ++ f.opening.toList)) with
  | none =>
    have missed := List.find?_eq_none.mp found _ own
    exact absurd (List.isSuffixOf_iff_suffix.mpr ends) missed
  | some a =>
    have hit : a.isSuffixOf (t ++ f.opening.toList) = true := by simpa using List.find?_some found
    have mem := List.mem_of_find?_eq_some found
    rw [opening_unique mem own (List.isSuffixOf_iff_suffix.mp hit) ends]

/-! What is left without the last symbol. -/

/-- Only the spaces at the end are skipped. -/
lemma bare_append (w : Run (· = ' ')) (visible : ∀ ch ∈ t.getLast?, ch ≠ ' ') :
    ((t ++ w.text).reverse.dropWhile (· = ' ')).reverse = t := by
  have spaces : ∀ ch ∈ w.text.reverse, decide (ch = ' ') = true :=
    fun ch mem => w.all ch (List.mem_reverse.mp mem)
  rw [List.reverse_append, List.dropWhile_append_of_pos spaces]
  rcases List.eq_nil_or_concat' t with rfl | ⟨s, ch, rfl⟩
  · rfl
  · have other : ch ≠ ' ' := visible ch (by simp)
    simp [other]

/-- A text cut down to what stands before its second part is its first. -/
lemma truncate_append (s t : Text) : (s ++ t).truncate (Text.size (s ++ t) - t.size) = s := by
  rw [Text.size_append, Nat.add_sub_cancel, Text.truncate, Text.takeBytes?_size_append]
  rfl

/-- What is left is what the relation says. -/
lemma withoutLastSymbol_eq (h : TakesBack s t) : withoutLastSymbol s = t := by
  cases h with
  | spaces w =>
    have bare := bare_append (t := []) w nofun
    rw [List.nil_append] at bare
    rw [withoutLastSymbol, bare]
    decide +kernel
  | @call _ f known w =>
    have visible : ∀ ch ∈ (t ++ f.opening.toList).getLast?, ch ≠ ' ' := by
      rw [List.getLast?_append, getLast?_opening known]
      rintro _ ⟨⟩
      decide
    rw [withoutLastSymbol, bare_append w visible]
    simp only [find?_opening known]
    exact truncate_append t f.opening.toList
  | @character _ ch visible single w =>
    have last : ∀ a ∈ (t ++ [ch]).getLast?, a ≠ ' ' := by simpa using visible
    have none : openings.find? (·.isSuffixOf (t ++ [ch])) = none := by
      rw [List.find?_eq_none]
      intro a mem ends
      obtain ⟨f, known, rfl⟩ := mem_openings.mp mem
      exact single f known (List.isSuffixOf_iff_suffix.mp ends)
    rw [withoutLastSymbol, bare_append w last]
    simp only [none]
    exact List.dropLast_concat

/-- Something can be taken back from every text. -/
lemma exists_takesBack (s : Text) : ∃ t, TakesBack s t := by
  let w : Run (· = ' ') := ⟨s.rtakeWhile (· = ' '), fun _ => List.mem_rtakeWhile_imp⟩
  have split : s = s.rdropWhile (· = ' ') ++ w.text := List.rdropWhile_append_rtakeWhile.symm
  have visible := List.rdropWhile_last_not (· = ' ') s
  rw [split]
  generalize s.rdropWhile (· = ' ') = bare at visible
  by_cases called : ∃ f ∈ Function.table, f.opening.toList <:+ bare
  · obtain ⟨f, known, t, rfl⟩ := called
    exact ⟨t, .call known w⟩
  · rcases List.eq_nil_or_concat' bare with rfl | ⟨t, ch, rfl⟩
    · exact ⟨[], .spaces w⟩
    · have other : ch ≠ ' ' := by simpa using visible (by simp)
      exact ⟨t, .character other (fun f known ends => called ⟨f, known, ends⟩) w⟩

/-- Accepting a function replaces the last word of the entry. -/
lemma withCall_eq (h : t.EndsInWord front word) : withCall t f = front ++ f.opening.toList := by
  have whole := Text.takeBytes?_size_append t []
  rw [List.append_nil] at whole
  rw [withCall, Completion.wordAt, whole, Option.getD_some, h.lastWord_eq, h.split,
    truncate_append]

/-- Taking back the last symbol of the entry leaves `t`, and the document and the preview are those
of `t`. -/
structure ErasesTo (c : Calculator) (t : Text) : Prop where
  entry : (c.act .erase).value.entry = t
  document : (c.act .erase).value.session.find? uri = some (.ofText uri t)
  preview : (c.act .erase).value.preview = .ofText t

/-- What is taken back from the entry leaves the document and the preview of the rest. -/
lemma erasesTo_of_takesBack (h : TakesBack c.entry t) : c.ErasesTo t := by
  have current : Current (c.act .erase).value := current_act c nofun nofun
  have entry : (c.act .erase).value.entry = t :=
    (entry_edit c _).trans (withoutLastSymbol_eq h)
  have document := current.document
  have preview := current.preview
  rw [entry] at document preview
  exact ⟨entry, document, preview⟩

end Calculator

open Calculator

namespace TakesBack

/-- Something is taken back from what is not empty, and it stood at the end. -/
lemma exists_removed (h : TakesBack s t) (some : s ≠ []) : ∃ u ≠ [], s = t ++ u := by
  cases h with
  | spaces w => exact ⟨w.text, some, rfl⟩
  | @call _ f known w =>
    have opening : f.opening.toList ≠ [] := by
      intro none
      have last := getLast?_opening known
      rw [none] at last
      cases last
    exact ⟨_, List.append_ne_nil_of_left_ne_nil opening w.text, List.append_assoc ..⟩
  | @character _ ch visible single w =>
    exact ⟨ch :: w.text, List.cons_ne_nil _ _, List.append_assoc ..⟩

/-- What remains is the front of the text. -/
lemma isPrefix (h : TakesBack s t) : t <+: s := by
  cases h with
  | spaces w => exact List.nil_prefix
  | call known w => exact (List.prefix_append ..).trans (List.prefix_append ..)
  | character visible single w => exact (List.prefix_append ..).trans (List.prefix_append ..)

/-- Something is taken back from a text that is not empty. -/
lemma size_lt (h : TakesBack s t) (some : s ≠ []) : t.size < s.size := by
  obtain ⟨u, more, rfl⟩ := h.exists_removed some
  obtain ⟨ch, u, rfl⟩ := List.exists_cons_of_ne_nil more
  have visible := ch.utf8Size_pos
  rw [Text.size_append, Text.size_cons]
  omega

/-- The opening of a call at the end is taken back as one. -/
lemma opening (known : f ∈ Function.table) : TakesBack (t ++ f.opening.toList) t := by
  have h := TakesBack.call (t := t) known .nil
  rwa [Run.nil, List.append_nil] at h

/-- A character at the end that opens nothing is taken back alone. -/
lemma single (noOpening : ch ≠ '(') (visible : ch ≠ ' ') : TakesBack (t ++ [ch]) t := by
  have alone : ∀ f ∈ Function.table, ¬ f.opening.toList <:+ t ++ [ch] := by
    rintro f known ⟨u, eq⟩
    have last := congrArg List.getLast? eq
    rw [List.getLast?_append, getLast?_opening known, List.getLast?_concat] at last
    exact noOpening (Option.some.inj last).symm
  have h := TakesBack.character visible alone .nil
  rwa [Run.nil, List.append_nil] at h

end TakesBack

/-- Whatever the state of the calculator, taking back undoes what was done last: inserting the
opening of a call or a single character that is neither a space nor a parenthesis, and accepting a
function but for the last word of the entry, which that replaces.  From any entry the spaces at the
end are taken back and with them the opening of a call, or else one character.  What is left is
a part at the front of the entry, up to a boundary before its end.  In each case the document and
the preview are those of what is left. -/
theorem erase_takes_back (c : Calculator) :
    (∀ f ∈ Function.table,
      (c.act (.insert f.opening.toList)).value.ErasesTo c.entry ∧
      ∃ front word, c.entry.EndsInWord front word ∧ (c.act (.accept f)).value.ErasesTo front) ∧
    (∀ ch, ch ≠ '(' → ch ≠ ' ' → (c.act (.insert [ch])).value.ErasesTo c.entry) ∧
    ∃ t, c.ErasesTo t ∧ TakesBack c.entry t ∧ t <+: c.entry ∧ c.entry.IsBoundary t.size ∧
      (c.entry ≠ [] → t.size < c.entry.size) := by
  have inserted (u : Text) : (c.act (.insert u)).value.entry = c.entry ++ u := entry_edit c _
  refine ⟨fun f known => ⟨?_, ?_⟩, fun ch noOpening visible => ?_, ?_⟩
  · apply erasesTo_of_takesBack
    rw [inserted]
    exact .opening known
  · obtain ⟨front, word, ends⟩ := c.entry.exists_endsInWord
    have accepted : (c.act (.accept f)).value.entry = front ++ f.opening.toList :=
      (entry_edit c _).trans (withCall_eq ends)
    refine ⟨front, word, ends, erasesTo_of_takesBack ?_⟩
    rw [accepted]
    exact .opening known
  · apply erasesTo_of_takesBack
    rw [inserted]
    exact .single noOpening visible
  · obtain ⟨t, h⟩ := exists_takesBack c.entry
    exact ⟨t, erasesTo_of_takesBack h, h, h.isPrefix, ⟨t, h.isPrefix, rfl⟩, h.size_lt⟩

end Reckoner
