import Mathlib.Data.List.DropRight
import Reckoner.Completion
import Reckoner.Proofs.Text.Boundary

/-!
# Completion narrows

The functions on offer at a boundary are those whose names begin with the word that ends there, case
aside, in the order of the table.  The word is the longest run of letters before the boundary, so
a letter more leaves some of the functions and any other character brings all of them back
(`completions_narrow`).
-/

namespace Reckoner

open Grammar

namespace Text

variable {t front word : Text} {c : Char}

/-- `word` is the longest run of letters at the end of a text, and `front` is what is before it. -/
structure EndsInWord (t front word : Text) : Prop where
  split : t = front ++ word
  letters : ∀ c ∈ word, isLetter c = true
  longest : ∀ c ∈ front.getLast?, isLetter c = false

/-- The characters of a second part are indexed from the end of the first. -/
lemma indexed_append (o : Nat) (s t : Text) :
    indexed o (s ++ t) = indexed o s ++ indexed (o + s.size) t := by
  induction s generalizing o with
  | nil => rfl
  | cons c s ih => rw [List.cons_append, indexed, ih, indexed, size_cons, Nat.add_assoc]; rfl

/-- Letters are letters wherever they stand. -/
lemma letter_of_mem_indexed {o : Nat} (letters : ∀ c ∈ word, isLetter c = true) :
    ∀ p ∈ indexed o word, isLetter p.2 = true := by
  induction word generalizing o with
  | nil => exact List.forall_mem_nil _
  | cons c word ih =>
    obtain ⟨first, others⟩ := List.forall_mem_cons.mp letters
    exact List.forall_mem_cons.mpr ⟨first, ih others⟩

namespace EndsInWord

/-- On the way back from the end the letters of the word are met, and no others. -/
lemma takeWhile_indexed (h : t.EndsInWord front word) :
    ((t.indexed 0).reverse.takeWhile fun (_, c) => isLetter c) =
      (indexed front.size word).reverse := by
  have stops : ((indexed 0 front).reverse.takeWhile fun (_, c) => isLetter c) = [] := by
    rcases List.eq_nil_or_concat front with rfl | ⟨s, c, rfl⟩
    · rfl
    · have other := h.longest c (by simp)
      simp [indexed_append, indexed, other]
  rw [h.split, indexed_append, Nat.zero_add, List.reverse_append,
    List.takeWhile_append_of_pos, stops, List.append_nil]
  intro p mem
  exact letter_of_mem_indexed h.letters p (List.mem_reverse.mp mem)

/-- The word starts where what is before it ends. -/
lemma lastWordStart_eq (h : t.EndsInWord front word) : t.lastWordStart = front.size := by
  rw [lastWordStart, h.takeWhile_indexed, List.getLast?_reverse, h.split]
  cases word with
  | nil => rw [List.append_nil]; rfl
  | cons c word => rfl

/-- The last word of a text is cut off at a boundary, whatever stands before it. -/
lemma lastWord_eq (h : t.EndsInWord front word) : t.lastWord = word := by
  rw [lastWord, h.lastWordStart_eq, h.split, dropBytes?_size_append]
  rfl

/-- A letter more makes the word longer at the end of a text. -/
lemma concat (h : t.EndsInWord front word) (letter : isLetter c = true) :
    (t ++ [c]).EndsInWord front (word ++ [c]) where
  split := by rw [h.split, List.append_assoc]
  letters := List.forall_mem_append.mpr ⟨h.letters, List.forall_mem_singleton.mpr letter⟩
  longest := h.longest

end EndsInWord

/-- Behind another character no word has begun. -/
lemma endsInWord_nil (t : Text) (other : isLetter c = false) :
    (t ++ [c]).EndsInWord (t ++ [c]) [] where
  split := (List.append_nil _).symm
  letters := List.forall_mem_nil _
  longest := by simpa using other

/-- Every text ends in a word, which may be empty. -/
lemma exists_endsInWord (t : Text) : ∃ front word, t.EndsInWord front word := by
  refine ⟨t.rdropWhile isLetter, t.rtakeWhile isLetter, ?_, ?_, ?_⟩
  · exact List.rdropWhile_append_rtakeWhile.symm
  · exact fun c => List.mem_rtakeWhile_imp
  · intro c last
    obtain ⟨some, rfl⟩ := List.mem_getLast?_eq_getLast last
    exact Bool.eq_false_iff.mpr (List.rdropWhile_last_not isLetter t some)

end Text

namespace Completion

variable {t before after front word : Text} {c : Char}

/-- The functions whose names begin with a word, case aside, in the order of the table. -/
def beginningWith (word : Text) : List Function :=
  Function.table.filter fun f => word.map Char.toLower <+: f.name.toList

/-- At the end of a first part its last word is completed. -/
lemma atOffset_append (h : before.EndsInWord front word) (after : Text) :
    atOffset (before ++ after) before.size = beginningWith word := by
  rw [atOffset, wordAt, Text.takeBytes?_size_append, Option.getD_some, h.lastWord_eq]
  refine List.filter_congr fun f _ => ?_
  rw [Bool.eq_iff_iff, List.isPrefixOf_iff_prefix, decide_eq_true_iff]

/-- At the end of a text its last word is completed. -/
lemma atEnd_eq (h : t.EndsInWord front word) : atEnd t = beginningWith word := by
  have whole := atOffset_append h []
  rwa [List.append_nil] at whole

/-- What begins with a longer word begins with a shorter one. -/
lemma beginningWith_sublist (word : Text) (c : Char) :
    (beginningWith (word ++ [c])).Sublist (beginningWith word) := by
  refine List.monotone_filter_right _ fun f longer => ?_
  rw [decide_eq_true_iff, List.map_append] at longer
  rw [decide_eq_true_iff]
  exact (List.prefix_append ..).trans longer

/-- Every function begins with no letters. -/
lemma beginningWith_nil : beginningWith [] = Function.table :=
  List.filter_eq_self.mpr fun _ _ => decide_eq_true List.nil_prefix

/-- At the place of a boundary the functions on offer are those at the boundary: in the order of the
table, the ones whose names begin with the longest run of letters that ends there, case aside.  At a
place that no boundary has there are none.  A letter more at the end of a text leaves some of those
on offer at the end, and any other character brings all functions back. -/
theorem completions_narrow (t : Text) :
    (∀ o, t.IsBoundary o → ∃ before after front word,
      t = before ++ after ∧ before.size = o ∧ before.EndsInWord front word ∧
      atOffset t o = Function.table.filter (fun f => word.map Char.toLower <+: f.name.toList) ∧
      atPosition t (t.positionAt o) = atOffset t o) ∧
    (∀ p, (¬ ∃ o, t.IsBoundary o ∧ t.positionAt o = p) → atPosition t p = []) ∧
    ∀ c, (isLetter c = true → (atEnd (t ++ [c])).Sublist (atEnd t)) ∧
      (isLetter c = false → atEnd (t ++ [c]) = Function.table) := by
  refine ⟨fun o boundary => ?_, fun p nowhere => ?_, fun c => ⟨fun letter => ?_, fun other => ?_⟩⟩
  · have place : atPosition t (t.positionAt o) = atOffset t o := by
      rw [atPosition, Text.offsetOf?_positionAt boundary]
    obtain ⟨before, ⟨after, rfl⟩, rfl⟩ := boundary
    obtain ⟨front, word, ends⟩ := before.exists_endsInWord
    exact ⟨before, after, front, word, rfl, rfl, ends, atOffset_append ends after, place⟩
  · have none : t.offsetOf? p = none :=
      Text.offsetOf?_eq_none_iff.mpr fun o boundary place => nowhere ⟨o, boundary, place⟩
    rw [atPosition, none]
  · obtain ⟨front, word, ends⟩ := t.exists_endsInWord
    rw [atEnd_eq ends, atEnd_eq (ends.concat letter)]
    exact beginningWith_sublist word c
  · rw [atEnd_eq (t.endsInWord_nil other), beginningWith_nil]

end Completion

end Reckoner
