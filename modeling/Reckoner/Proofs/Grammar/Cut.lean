import Mathlib.Data.List.Forall2
import Reckoner.Proofs.Grammar.Recognition

/-!
# What the bound on nesting cuts off

Inside more open operands fewer may be opened.  A reading there is *cut* off, for good, or it comes
to the same as before: the bound refuses, and it changes nothing that it does not refuse
(`expressionAt_cut`).  The bound can as well be tested on the number of open operands that the
cursor carries: a reader that does so reads the same (`read_operand`, `read_expressionAt`), and
there is one (`testsDepth_countingOperand`).

Both compare two readings of one text that go on in parallel, with numbers of open operands that
stay related.  Most ways to put readers together go on from what was read, so they are closed under
this because going on is (`Parallel.bind`).
-/

namespace Reckoner

/-- The reading ends in a refusal for good. -/
def EndsForGood {α : Type} (result : Except Refusal α) : Prop :=
  ∃ refusal, result = .error refusal ∧ refusal.isFinal = true

/-- The second result is the first one, the number of open operands aside, or a refusal for good. -/
inductive Cut {α : Type} : Except Refusal (α × Cursor) → Except Refusal (α × Cursor) → Prop where
  | off {x refusal} (final : refusal.isFinal = true) : Cut x (.error refusal)
  | error {refusal} : Cut (.error refusal) (.error refusal)
  | ok {a c k} : Cut (.ok (a, c)) (.ok (a, { c with depth := k }))

/-- The second result is the first one with a number of open operands that `near` relates to that of
the first, or, if readings may be cut off, a refusal for good. -/
inductive Parallel {α : Type} (cuts : Prop) (near : Nat → Nat → Prop) :
    Except Refusal (α × Cursor) → Except Refusal (α × Cursor) → Prop where
  | off {x refusal} (cut : cuts) (final : refusal.isFinal = true) :
    Parallel cuts near x (.error refusal)
  | error {refusal} : Parallel cuts near (.error refusal) (.error refusal)
  | ok {a c k} (depths : near c.depth k) :
    Parallel cuts near (.ok (a, c)) (.ok (a, { c with depth := k }))

/-- Any two numbers of open operands. -/
def AnyDepths (_ _ : Nat) : Prop := True

/-- As many open operands on one side as on the other. -/
def AtDepth (d i j : Nat) : Prop := i = d ∧ j = d

/-- One more operand is opened on both sides. -/
lemma AtDepth.succ {d i j : Nat} (h : AtDepth d i j) : AtDepth (d + 1) (i + 1) (j + 1) :=
  ⟨congrArg (· + 1) h.1, congrArg (· + 1) h.2⟩

variable {α β : Type} {x y : Except Refusal (α × Cursor)}
variable {f g : α × Cursor → Except Refusal (β × Cursor)}
variable {cuts : Prop} {near inner : Nat → Nat → Prop}

/-- What was refused for good is refused for good. -/
lemma Cut.endsForGood (h : Cut x y) (ends : EndsForGood x) : EndsForGood y := by
  cases h with
  | off final => exact ⟨_, rfl, final⟩
  | error => exact ends
  | ok =>
    obtain ⟨_, read, _⟩ := ends
    cases read

namespace Parallel

/-- A reading that goes on from what was read stays parallel, or it is cut off in either part. -/
lemma bind (h : Parallel cuts near x y)
    (next : ∀ a c k, near c.depth k →
      Parallel cuts inner (f (a, c)) (g (a, { c with depth := k }))) :
    Parallel cuts inner (x.bind f) (y.bind g) := by
  cases h with
  | off cut final => exact .off cut final
  | error => exact .error
  | ok depths => exact next _ _ _ depths

/-- Wherever the operands are counted from, what is parallel is cut off or the same. -/
lemma cut (h : Parallel cuts near x y) : Cut x y := by
  cases h with
  | off _ final => exact .off final
  | error => exact .error
  | ok => exact .ok

/-- At one depth, and if nothing is cut off, what is parallel is the same. -/
lemma eq {d : Nat} (h : Parallel False (AtDepth d) x y) : x = y := by
  cases h with
  | off cut => exact cut.elim
  | error => rfl
  | ok depths =>
    obtain ⟨rfl, rfl⟩ := depths
    rfl

end Parallel

namespace Reader

variable {r s first first' second second' operand operand' operator operator' : Reader}
variable {rs ss : List Reader} {rule : Rule} {label : Label} {lexeme : Text → Nat} {c : Cursor}

/-- Where `near` relates the numbers of open operands, `s` reads in parallel to `r`. -/
def Parallels (cuts : Prop) (near : Nat → Nat → Prop) (r s : Reader) : Prop :=
  ∀ (c : Cursor) (k : Nat), near c.depth k →
    Parallel cuts near (r.read c) (s.read { c with depth := k })

/-- A token does not open an operand. -/
lemma token_parallels : Parallels cuts near (token rule lexeme) (token rule lexeme) := by
  intro c k depths
  have skip : ({ c with depth := k } : Cursor).skipSpaces = { c.skipSpaces with depth := k } := rfl
  simp only [token, skip]
  split
  · exact .error
  · exact .ok depths

/-- A refusal is told where it was before. -/
lemma Parallels.labelled (h : Parallels cuts near r s) :
    Parallels cuts near (labelled label r) (labelled label s) := by
  intro c k depths
  have parallel := h c k depths
  change Parallel cuts near ((r.read c).mapError _) ((s.read { c with depth := k }).mapError _)
  generalize r.read c = x at parallel
  generalize s.read { c with depth := k } = y at parallel
  cases parallel with
  | off cut final => exact .off cut final
  | error => exact .error
  | ok depths => exact .ok depths

/-- The same alternative is taken, unless the first one is cut off. -/
lemma Parallels.orElse (h1 : Parallels cuts near first first')
    (h2 : Parallels cuts near second second') :
    Parallels cuts near (first <|> second) (first' <|> second') := by
  intro c k depths
  have parallel := h1 c k depths
  change Parallel cuts near ((first.orElse second).read c)
    ((first'.orElse second').read { c with depth := k })
  simp only [Reader.orElse]
  generalize first.read c = x at parallel
  generalize first'.read { c with depth := k } = y at parallel
  cases parallel with
  | off cut final =>
    simp only [final, if_true]
    exact .off cut final
  | @error refusal =>
    simp only
    split
    · exact .error
    · exact h2 c k depths
  | ok depths => exact .ok depths

/-- Sequences of parallel readers are read in parallel. -/
lemma readAll_parallel (h : List.Forall₂ (Parallels cuts near) rs ss) (c : Cursor) (k : Nat)
    (depths : near c.depth k) :
    Parallel cuts near (readAll rs c) (readAll ss { c with depth := k }) := by
  induction h generalizing c k with
  | nil => exact .ok depths
  | cons one _ ih =>
    rw [readAll_cons_bind, readAll_cons_bind]
    apply (one c k depths).bind
    intro n d k depths
    exact (ih d k depths).bind fun ns e k => .ok

/-- A node is read in parallel if its parts are. -/
lemma Parallels.node (h1 : Parallels cuts near first first')
    (h2 : List.Forall₂ (Parallels cuts near) rs ss) :
    Parallels cuts near (node rule first rs) (node rule first' ss) := by
  intro c k depths
  rw [node_bind, node_bind]
  exact (readAll_parallel (.cons h1 h2) c k depths).bind fun ns e k => .ok

/-- A repetition is cut off in one of its rounds, or it ends where it did. -/
lemma readMany_parallel (h : Parallels cuts near r s) (c : Cursor) (k : Nat)
    (depths : near c.depth k) :
    Parallel cuts near (readMany r c) (readMany s { c with depth := k }) := by
  induction length : c.rest.length using Nat.strong_induction_on generalizing c k with
  | _ _ ih =>
    have parallel := h c k depths
    generalize read : r.read c = x at parallel
    generalize read' : s.read { c with depth := k } = y at parallel
    cases parallel with
    | off cut final =>
      rw [readMany_of_error read', if_pos final]
      exact .off cut final
    | error =>
      rw [readMany_of_error read, readMany_of_error read']
      split
      · exact .error
      · exact .ok depths
    | @ok n d k depths =>
      have more := ih _ (length ▸ r.shortens read) d k depths rfl
      rw [readMany_of_ok read, readMany_of_ok read']
      exact more.bind fun ns e k => .ok

/-- A chain is read in parallel if its operands and operators are. -/
lemma Parallels.chain (h1 : Parallels cuts near operand operand')
    (h2 : Parallels cuts near operator operator') :
    Parallels cuts near (chain rule operand operator) (chain rule operand' operator') := by
  intro c k depths
  have link : Parallels cuts near (Reader.node .link operator [operand]) _ :=
    h2.node (.cons h1 .nil)
  rw [chain_bind, chain_bind]
  apply (h1 c k depths).bind
  intro n d k depths
  exact (readMany_parallel link d k depths).bind fun ns e k => .ok

/-- Inside one more open operand the numbers are one larger, and after it they are as before. -/
lemma Parallels.nested (opens : ∀ i j, near i j → inner (i + 1) (j + 1))
    (h : Parallels cuts inner r s) : Parallels cuts near (nested r) (nested s) := by
  intro c k depths
  rw [nested_bind, nested_bind]
  exact (h _ _ (opens _ _ depths)).bind fun n d k _ => .ok depths

end Reader

namespace Grammar

open Reader

variable {r s : Reader} {levels fewer depth : Nat} {c : Cursor}

/-- One operand, inside which `inner` reads the operands. -/
def operandOver (inner : Reader) : Reader :=
  let whole := expression inner
  nested <| node .factor
    (labelled .operand (call whole <|> signed inner <|> number <|> parenthesized whole)) []

/-- With one level more an operand is read over those of one level less. -/
lemma operand_succ : operand (levels + 1) = operandOver (operand levels) := rfl

/-- An expression is read in parallel if its operands are. -/
lemma expression_parallels (h : Parallels cuts near r s) :
    Parallels cuts near (expression r) (expression s) := by
  have operators : Parallels cuts near timesOrOver timesOrOver :=
    token_parallels.orElse token_parallels
  have joints : Parallels cuts near plusOrMinus plusOrMinus :=
    token_parallels.orElse token_parallels
  exact ((h.chain operators).chain joints).labelled

/-- An operand is read in parallel if the operands inside it are. -/
lemma operandOver_parallels (opens : ∀ i j, near i j → inner (i + 1) (j + 1))
    (h : Parallels cuts inner r s) :
    Parallels cuts near (operandOver r) (operandOver s) := by
  have whole := expression_parallels h
  have group : Parallels cuts inner (parenthesized (expression r)) (parenthesized (expression s)) :=
    token_parallels.labelled.node (.cons whole (.cons token_parallels.labelled .nil))
  have called : Parallels cuts inner (call (expression r)) (call (expression s)) :=
    token_parallels.labelled.node (.cons group .nil)
  have joints : Parallels cuts inner plusOrMinus plusOrMinus :=
    token_parallels.orElse token_parallels
  have sign : Parallels cuts inner (signed r) (signed s) := joints.node (.cons h .nil)
  have numeral : Parallels cuts inner number number := token_parallels.labelled
  have alternatives := called.orElse (sign.orElse (numeral.orElse group))
  exact (alternatives.labelled.node .nil).nested opens

/-! With fewer levels. -/

/-- An operand is cut off where its own operands are, or where none of them may be opened. -/
lemma operand_parallels (le : fewer ≤ levels) :
    Parallels True AnyDepths (operand levels) (operand fewer) := by
  induction fewer generalizing levels with
  | zero => exact fun _ _ _ => .off trivial rfl
  | succ fewer ih =>
    obtain ⟨levels, rfl⟩ := Nat.exists_eq_succ_of_ne_zero (Nat.ne_zero_of_lt le)
    rw [operand_succ, operand_succ]
    exact operandOver_parallels (fun _ _ _ => trivial) (ih (Nat.le_of_succ_le_succ le))

/-! With the bound tested on the cursor. -/

/-- The reader of operands refuses for good where the cursor carries `maxDepth` open operands, and
elsewhere it reads an operand inside which it reads the operands itself. -/
def TestsDepth (r : Reader) : Prop :=
  ∀ c, r.read c = if maxDepth ≤ c.depth then tooDeep.read c else (operandOver r).read c

/-- An operand leaves as many operands open as it found. -/
lemma operand_keeps (levels depth : Nat) :
    Parallels False (AtDepth depth) (operand levels) (operand levels) := by
  induction levels generalizing depth with
  | zero => exact fun _ _ _ => .error
  | succ levels ih =>
    rw [operand_succ]
    exact operandOver_parallels (fun _ _ => AtDepth.succ) (ih (depth + 1))

/-- The levels that are left tell as much as the cursor does. -/
lemma operand_tests (tests : TestsDepth r) (left : maxDepth - depth = levels) :
    Parallels False (AtDepth depth) (operand levels) r := by
  induction levels generalizing depth with
  | zero =>
    intro c k ⟨_, here⟩
    rw [tests, if_pos]
    · exact .error
    · exact here ▸ Nat.sub_eq_zero_iff_le.mp left
  | succ levels ih =>
    intro c k depths
    have inside := ih (show maxDepth - (depth + 1) = levels by omega)
    rw [operand_succ, tests, if_neg]
    · exact operandOver_parallels (fun _ _ => AtDepth.succ) inside c k depths
    · have here : k = depth := depths.2
      dsimp only
      omega

/-- A reader that tests the cursor reads what the reader with the levels that are left reads. -/
theorem read_operand (tests : TestsDepth r) (within : c.depth + levels = maxDepth) :
    (operand levels).read c = r.read c := by
  have left : maxDepth - c.depth = levels := by omega
  exact (operand_tests tests left c c.depth ⟨rfl, rfl⟩).eq

/-- Expressions are read alike as well, however many operands are open around them. -/
theorem read_expressionAt (tests : TestsDepth r) (t : Text) (depth : Nat) :
    (expressionAt depth).read (.start t depth) = (expression r).read (.start t depth) :=
  (expression_parallels (operand_tests tests rfl) (.start t depth) depth ⟨rfl, rfl⟩).eq

/-- The reader that finds the levels which are left on the cursor. -/
def countingOperand : Reader where
  read c := (operand (maxDepth - c.depth)).read c
  shortens h := (operand _).shortens h

/-- There is a reader that tests the cursor. -/
theorem testsDepth_countingOperand : TestsDepth countingOperand := by
  intro c
  split
  case isTrue full =>
    simp only [countingOperand, Nat.sub_eq_zero_of_le full]
    rfl
  case isFalse room =>
    obtain ⟨levels, left⟩ : ∃ levels, maxDepth - c.depth = levels + 1 :=
      Nat.exists_eq_succ_of_ne_zero (by omega)
    have inside : Parallels False (AtDepth (c.depth + 1)) (operand levels) countingOperand := by
      intro e k depths
      have same : maxDepth - k = levels := by
        have here : k = c.depth + 1 := depths.2
        omega
      simp only [countingOperand, same]
      exact operand_keeps levels (c.depth + 1) e k depths
    simp only [countingOperand, left, operand_succ]
    exact (operandOver_parallels (fun _ _ => AtDepth.succ) inside c c.depth ⟨rfl, rfl⟩).eq

end Grammar

open Grammar

/-- Inside more open operands an expression is refused for good, or it is read or refused just as
it is inside fewer, with the same tree up to the same place or the same constructs at the same
offsets.  What is refused for good inside fewer is so inside more, and no operand stays open after
an expression that is read. -/
theorem expressionAt_cut (t : Text) {depth deeper : Nat} (le : depth ≤ deeper) :
    Cut ((expressionAt depth).read (.start t depth)) ((expressionAt deeper).read (.start t deeper)) ∧
    (EndsForGood ((expressionAt depth).read (.start t depth)) →
      EndsForGood ((expressionAt deeper).read (.start t deeper))) ∧
    ∀ k n c, (expressionAt k).read (.start t k) = .ok (n, c) → c.depth = k := by
  have bound : maxDepth - deeper ≤ maxDepth - depth := Nat.sub_le_sub_left le maxDepth
  have cut := (expression_parallels (operand_parallels bound) (.start t depth) deeper trivial).cut
  refine ⟨cut, cut.endsForGood, fun k n c read => ?_⟩
  obtain ⟨_, _, pass, _⟩ := expressionAt_sound k read
  exact pass.depth

/-- Inside 31 open operands `-1` is refused for good, since the sign would leave 32 open, and so it
is inside 32.  Alone it is read. -/
theorem expressionAt_cut_sign :
    ((expressionAt 0).read (.start ['-', '1'] 0)).isOk = true ∧
    Cut ((expressionAt 0).read (.start ['-', '1'] 0))
      ((expressionAt 31).read (.start ['-', '1'] 31)) ∧
    EndsForGood ((expressionAt 31).read (.start ['-', '1'] 31)) ∧
    EndsForGood ((expressionAt 32).read (.start ['-', '1'] 32)) := by
  have ends : EndsForGood ((expressionAt 31).read (.start ['-', '1'] 31)) := ⟨_, rfl, rfl⟩
  have alone := (expressionAt_cut ['-', '1'] (Nat.zero_le 31)).1
  have deeper := (expressionAt_cut ['-', '1'] (Nat.le_succ 31)).2.1 ends
  exact ⟨by decide +kernel, alone, ends, deeper⟩

end Reckoner
