import Reckoner.Proofs.Grammar.Damage
import Reckoner.Proofs.Grammar.Refused

/-!
# What is expected where reading is refused

The alternatives of an operand are tried in order, and it is the refusal of the last one that is
reported, not of the one that got furthest.  The last one is a group.  So where a call is not read,
an opening parenthesis is missing in place of its name, whatever is wrong with the call
(`alternatives_letter`).  A group and a call are both refused if they are not closed, but only the
group for want of the parenthesis that closes it (`expected_unclosed`).
-/

namespace Reckoner

namespace Grammar

open Reader

variable {levels : Nat} {c : Cursor}

/-- Where a name comes next and no call is read, an opening parenthesis is missing. -/
lemma alternatives_letter {ch : Char} (next : c.next? = some ch) (letter : isLetter ch = true)
    (noCall : (call (expression (operand levels))).Refuses c) :
    (alternatives levels).read c = .error ⟨false, [(c.offset, .openParen)]⟩ := by
  have other {a : Char} (h : isLetter a = false) : c.next? ≠ some a := by
    rw [next]
    rintro ⟨⟩
    cases letter.symm.trans h
  have noSign : (signed (operand levels)).Refuses c :=
    signed_refuses (other (by decide)) (other (by decide))
  have noNumber : number.Refuses c := by
    apply number_refuses
    intro a here
    rw [Bool.eq_false_iff]
    exact fun numeric => other (not_isLetter_of_isNumeric numeric) here
  have noOpening : openParen.read c = .error ⟨false, [(c.offset, .openParen)]⟩ :=
    labelled_error.mpr ⟨_, symbol_refuses (other (by decide)), rfl⟩
  rw [alternatives, orElse_right noCall, orElse_right noSign, orElse_right noNumber]
  exact node_three_error.mpr (.inl noOpening)

end Grammar

open Grammar

variable {t : Text} {x : Derivation (.chain .sum)} {w : Blanks}

/-- A call that opens before everything else and is not closed is refused where it begins. -/
lemma parse_unclosed_call (name : Lexeme isLetter) (nx : x.nesting + 1 < maxDepth)
    (eq : t = name.text ++ '(' :: (x.text ++ w.text)) :
    parse t = ⟨⟨false, 0, t.size, ["'('", "operand", "expression"], none⟩, none⟩ := by
  let c : Cursor := ⟨t, 0, 1⟩
  let d : Cursor := ⟨'(' :: (x.text ++ w.text), name.text.size, 1⟩
  let e : Cursor := ⟨x.text ++ w.text, name.text.size + 1, 1⟩
  have named : c.Passes ((Run.nil : Blanks).text ++ name.text) d := ⟨eq, (Nat.zero_add _).symm, rfl⟩
  have opening : d.Passes ((Run.nil : Blanks).text ++ ['(']) e := ⟨rfl, rfl, rfl⟩
  obtain ⟨_, unclosed⟩ := parenthesized_unclosed (Nat.lt_sub_of_add_lt nx) opening rfl
  have noCall : (call (expression (operand (maxDepth - 1)))).Refuses c :=
    Reader.node_refuses_second (functionName_read named opening)
      (Reader.refuses_of_error unclosed rfl)
  have front := named.trans opening
  rw [List.append_assoc] at front
  obtain ⟨ch, letter, next⟩ := next_of_lexeme (fun _ => not_isSpace_of_isLetter) front
  have last : (alternatives (maxDepth - 1)).read c = .error ⟨false, [(0, .openParen)]⟩ :=
    alternatives_letter next letter noCall
  have refused : (expressionAt 0).read (.start t 0) = .error _ :=
    expression_error (operand_error last)
  rw [parse, refused]
  rfl

/-- Before an expression that nests at most `maxDepth - 2` deep, a parenthesis that is not closed is
refused for want of the one that would close it, but a call that is not closed is refused for want
of a parenthesis in place of its name. -/
theorem expected_unclosed (name : Lexeme isLetter) (nx : x.nesting ≤ maxDepth - 2)
    (eq : t = x.text ++ w.text) :
    (parse t).issue.isComplete = true ∧
    parse ('(' :: t) =
      ⟨⟨false, 0, 1 + t.size, ["')'", "operand", "expression"], none⟩, none⟩ ∧
    parse (name.text ++ '(' :: t) =
      ⟨⟨false, 0, name.text.size + (1 + t.size), ["'('", "operand", "expression"], none⟩,
        none⟩ := by
  have deeper : x.nesting + 1 < maxDepth := Nat.add_lt_of_lt_sub (Nat.lt_succ_of_le nx)
  have complete := (isComplete_parse_iff t).mpr ⟨x, w, Nat.le_succ_of_le nx, eq⟩
  have opened := parse_unclosed deeper (congrArg ('(' :: ·) eq)
  have called := parse_unclosed_call name deeper (congrArg (name.text ++ '(' :: ·) eq)
  rw [Text.size_append] at called
  exact ⟨complete, opened, called⟩

/-- The name `sin`. -/
def sineName : Lexeme isLetter := ⟨⟨['s', 'i', 'n'], List.all_eq_true.mp rfl⟩, List.cons_ne_nil _ _⟩

/-- `sin(1` is refused for want of an opening parenthesis, `(1` for want of a closing one. -/
theorem expected_unclosed_sin :
    (parse ['s', 'i', 'n', '(', '1']).issue.expected = ["'('", "operand", "expression"] ∧
    (parse ['(', '1']).issue.expected = ["')'", "operand", "expression"] := by
  have one : ['1'] = (default : Derivation (.chain .sum)).text ++ (Run.nil : Blanks).text := rfl
  obtain ⟨_, opened, called⟩ := expected_unclosed sineName (Nat.zero_le _) one
  have text : sineName.text ++ '(' :: ['1'] = ['s', 'i', 'n', '(', '1'] := rfl
  rw [text] at called
  rw [opened, called]
  exact ⟨rfl, rfl⟩

/-- Not every call that is not closed is refused for want of a closing parenthesis. -/
theorem not_expected_closing :
    ¬ ∀ (name : Lexeme isLetter) (x : Derivation (.chain .sum)) (w : Blanks) (t : Text),
      x.nesting ≤ maxDepth - 2 → t = x.text ++ w.text →
      "')'" ∈ (parse (name.text ++ '(' :: t)).issue.expected := by
  intro always
  have expected := always sineName default .nil ['1'] (Nat.zero_le _) rfl
  have actual : (parse (sineName.text ++ '(' :: ['1'])).issue.expected =
      ["'('", "operand", "expression"] := by decide +kernel
  rw [actual] at expected
  exact absurd expected (by decide)

end Reckoner
