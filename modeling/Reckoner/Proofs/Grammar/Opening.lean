import Mathlib.Order.MinMax
import Reckoner.Proofs.Grammar.Derivation

/-!
# Openers

A sign, and a parenthesis that opens, stand before an operand and leave one more operand open.
`Derivation.Opens` says how far into a derived text an opener ends and how many operands are open
there, whether a parenthesis, a call or a sign opened them; a derivation that nests `n` deep opens
any number of operands up to `n` (`exists_opens`).
-/

namespace Reckoner.Grammar.Derivation

/-- `x.Opens s n`: the text of `x` begins with `s`, which stops after an opener, and `n` operands
are open there. -/
inductive Opens : {k : Category} → Derivation k → Text → Nat → Prop where
  | sign {w op x} : Opens (.signed w op x) (w.text ++ [op.symbol]) 1
  | signed {w op x s n} :
    Opens x s n →
    Opens (.signed w op x) (w.text ++ op.symbol :: s) (n + 1)
  | call {w name x s n} :
    Opens x s n →
    Opens (.call w name x) (w.text ++ (name.text ++ s)) n
  | grouped {x s n} :
    Opens x s n →
    Opens (.grouped x) s n
  | paren {w x v} : Opens (.group w x v) (w.text ++ ['(']) 1
  | group {w x v s n} :
    Opens x s n →
    Opens (.group w x v) (w.text ++ '(' :: s) (n + 1)
  | first {l : Chain} {x : Derivation l.operand} {y s n} :
    Opens x s n →
    Opens (.chain x y) s n
  | others {l : Chain} {x : Derivation l.operand} {y s n} :
    Opens y s n →
    Opens (.chain x y) (x.text ++ s) n
  | operand {l : Chain} {w op joins} {x : Derivation l.operand} {y s n} :
    Opens x s n →
    Opens (.cons w op joins x y) (w.text ++ op.symbol :: s) n
  | later {l : Chain} {w op joins} {x : Derivation l.operand} {y s n} :
    Opens y s n →
    Opens (.cons w op joins x y) (w.text ++ op.symbol :: (x.text ++ s)) n

variable {k : Category} {l : Chain} {n : Nat} {s : Text}

/-- What stands before an opener, and the opener itself, begin the text. -/
lemma Opens.isPrefix {x : Derivation k} (h : x.Opens s n) : s <+: x.text := by
  induction h with
  | sign => simp [text]
  | signed _ ih => simpa [text] using ih
  | call _ ih => simpa [text] using ih
  | grouped _ ih => exact ih
  | paren => simp [text]
  | group _ ih => simpa [text] using ih.trans (List.prefix_append ..)
  | first _ ih => exact ih.trans (List.prefix_append ..)
  | others _ ih => exact (List.prefix_append_right_inj _).mpr ih
  | operand _ ih => simpa [text] using ih.trans (List.prefix_append ..)
  | later _ ih => simpa [text] using ih

/-- Parentheses begin with the one that opens. -/
lemma Opens.exists_paren {x : Derivation .group} (h : x.Opens s n) :
    ∃ (w : Blanks) (u : Text), s = w.text ++ '(' :: u := by
  cases h with
  | paren => exact ⟨_, [], rfl⟩
  | group => exact ⟨_, _, rfl⟩

/-- Links begin with an operator of their chain. -/
lemma Opens.exists_operator {x : Derivation (.links l)} (h : x.Opens s n) :
    ∃ (w : Blanks) (op : BinaryOp) (u : Text), op.chain = l ∧ s = w.text ++ op.symbol :: u := by
  cases h with
  | @operand _ _ _ joins => exact ⟨_, _, _, joins, rfl⟩
  | @later _ _ _ joins => exact ⟨_, _, _, joins, rfl⟩

/-- A derivation opens as many operands as it nests, and every smaller number. -/
lemma exists_opens {x : Derivation k} (pos : 0 < n) (le : n ≤ x.nesting) : ∃ s, x.Opens s n := by
  induction x generalizing n with
  | number => exact absurd pos (Nat.not_lt.mpr le)
  | nil => exact absurd pos (Nat.not_lt.mpr le)
  | signed w op x ih =>
    obtain ⟨m, rfl⟩ := Nat.exists_eq_succ_of_ne_zero (Nat.ne_zero_of_lt pos)
    cases m with
    | zero => exact ⟨_, .sign⟩
    | succ m =>
      obtain ⟨s, h⟩ := ih (Nat.succ_pos m) (Nat.le_of_succ_le_succ le)
      exact ⟨_, h.signed⟩
  | call w name x ih =>
    obtain ⟨s, h⟩ := ih pos le
    exact ⟨_, h.call⟩
  | grouped x ih =>
    obtain ⟨s, h⟩ := ih pos le
    exact ⟨_, h.grouped⟩
  | group w x v ih =>
    obtain ⟨m, rfl⟩ := Nat.exists_eq_succ_of_ne_zero (Nat.ne_zero_of_lt pos)
    cases m with
    | zero => exact ⟨_, .paren⟩
    | succ m =>
      obtain ⟨s, h⟩ := ih (Nat.succ_pos m) (Nat.le_of_succ_le_succ le)
      exact ⟨_, h.group⟩
  | chain x y ihx ihy =>
    -- one of the two parts nests as much as the whole
    rcases le_max_iff.mp le with le | le
    · obtain ⟨s, h⟩ := ihx pos le
      exact ⟨_, h.first⟩
    · obtain ⟨s, h⟩ := ihy pos le
      exact ⟨_, h.others⟩
  | cons w op joins x y ihx ihy =>
    rcases le_max_iff.mp le with le | le
    · obtain ⟨s, h⟩ := ihx pos le
      exact ⟨_, h.operand⟩
    · obtain ⟨s, h⟩ := ihy pos le
      exact ⟨_, h.later⟩

end Reckoner.Grammar.Derivation
