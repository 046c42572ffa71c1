import Mathlib.Order.MinMax
import Reckoner.Proofs.Expr.Written

/-!
# The depth of expressions

What the bound on nesting means for the expression of a text.  On a way down an expression every
step to an operand of a sign, to an argument or to a right operand is a *turn*, and the bound allows
less than `3 * maxDepth` of them.  The steps to left operands are not bounded, since a chain leans
to the left however long it is: the depth is bounded where the runs of these steps are
(`depth_ast`), and in general it is not (`depth_ast_unbounded`).
-/

namespace Reckoner

namespace Expr

/-- The most turns on a way down. -/
def turns : Expr → Nat
  | number _ => 0
  | unary _ _ operand => operand.turns + 1
  | binary _ _ left right => max left.turns (right.turns + 1)
  | call _ _ argument => argument.turns + 1

/-- How often one can step to the left from the root. -/
def leftRun : Expr → Nat
  | binary _ _ left _ => left.leftRun + 1
  | _ => 0

/-- The longest run of steps to the left, wherever it starts. -/
def longestLeftRun : Expr → Nat
  | number _ => 0
  | unary _ _ operand => operand.longestLeftRun
  | binary _ _ left right => max (left.leftRun + 1) (max left.longestLeftRun right.longestLeftRun)
  | call _ _ argument => argument.longestLeftRun

/-- The run at the root is no longer than the longest. -/
lemma leftRun_le_longest (e : Expr) : e.leftRun ≤ e.longestLeftRun := by
  cases e with
  | binary op span left right => exact le_max_left ..
  | _ => exact Nat.zero_le _

/-- A run of steps to the left goes down. -/
lemma leftRun_lt_depth (e : Expr) : e.leftRun < e.depth := by
  induction e with
  | number span => exact Nat.one_pos
  | unary op span operand ih => exact Nat.lt_add_right _ Nat.one_pos
  | call name span argument ih => exact Nat.lt_add_right _ Nat.one_pos
  | binary op span left right ih1 ih2 =>
    simp only [leftRun, depth]
    omega

/-- An expression is deeper than its longest run. -/
lemma longestLeftRun_lt_depth (e : Expr) : e.longestLeftRun < e.depth := by
  induction e with
  | number span => exact Nat.one_pos
  | unary op span operand ih =>
    simp only [longestLeftRun, depth]
    omega
  | call name span argument ih =>
    simp only [longestLeftRun, depth]
    omega
  | binary op span left right ih1 ih2 =>
    have := left.leftRun_lt_depth
    simp only [longestLeftRun, depth]
    omega

/-- Between two turns a way down only steps to the left. -/
lemma depth_le {e : Expr} {m : Nat} (h : e.longestLeftRun ≤ m) :
    e.depth ≤ e.turns * (m + 1) + e.leftRun + 1 := by
  induction e with
  | number span => exact Nat.le_add_left ..
  | unary op span operand ih =>
    have inner := ih h
    have short := Nat.le_trans operand.leftRun_le_longest h
    simp only [depth, turns, leftRun, Nat.succ_mul]
    omega
  | call name span argument ih =>
    have inner := ih h
    have short := Nat.le_trans argument.leftRun_le_longest h
    simp only [depth, turns, leftRun, Nat.succ_mul]
    omega
  | binary op span left right ih1 ih2 =>
    obtain ⟨_, h⟩ := Nat.max_le.mp h
    obtain ⟨hl, hr⟩ := Nat.max_le.mp h
    have straight := ih1 hl
    have turned := ih2 hr
    have short := Nat.le_trans right.leftRun_le_longest hr
    have le1 := Nat.mul_le_mul_right (m + 1) (le_max_left left.turns (right.turns + 1))
    have le2 := Nat.mul_le_mul_right (m + 1) (le_max_right left.turns (right.turns + 1))
    rw [Nat.succ_mul] at le2
    simp only [depth, turns, leftRun]
    omega

end Expr

open Grammar

variable {t : Text} {e : Expr} {n : Nat}

/-- The turns that a chain's own operators add to those of its operands. -/
def Chain.turns : Chain → Nat
  | product => 1
  | sum => 2

/-- The most turns of what a category derives with `n` levels of nesting; links go on from the
expression `left` before them. -/
def Grammar.Category.turns (left : Expr) (n : Nat) : Category → Nat
  | operand => 3 * n
  | group => 3 * n - 1
  | chain l => 3 * n + l.turns
  | links l => max left.turns (3 * n + l.turns)

/-- A chain turns once more than its operands. -/
lemma Chain.turns_operand (l : Chain) (left : Expr) (n : Nat) :
    l.operand.turns left n + 1 = 3 * n + l.turns := by
  cases l <;> rfl

/-- The bound on nesting is a bound on turns. -/
theorem Grammar.Derivation.turns_meaning {k : Category} (x : Derivation k) (left : Expr) (o : Nat)
    (nx : x.nesting ≤ n) : (x.meaning left o).turns ≤ k.turns left n := by
  induction x generalizing left o n with
  | number w s => exact Nat.zero_le _
  | signed w op x ih =>
    simp only [nesting] at nx
    have inner := ih left (Span.ofChar (o + w.text.size) op.symbol).stop (Nat.le_sub_one_of_lt nx)
    simp only [meaning, Expr.turns, Category.turns] at inner ⊢
    omega
  | call w name x ih =>
    have inner := ih left (o + w.text.size + name.text.size) nx
    cases x
    simp only [nesting] at nx
    simp only [meaning, Expr.turns, Category.turns] at inner ⊢
    omega
  | grouped x ih =>
    have inner := ih left o nx
    simp only [meaning, Category.turns] at inner ⊢
    omega
  | group w x v ih =>
    simp only [nesting] at nx
    have inner := ih left (Span.ofChar (o + w.text.size) '(').stop (Nat.le_sub_one_of_lt nx)
    simp only [meaning, Category.turns, Chain.turns] at inner ⊢
    omega
  | @chain l x y ih1 ih2 =>
    obtain ⟨nx, ny⟩ := Nat.max_le.mp nx
    have first := Nat.add_le_add_right (ih1 left o nx) 1
    have others := ih2 (x.meaning left o) (o + x.text.size) ny
    rw [l.turns_operand] at first
    exact others.trans (Nat.max_le.mpr ⟨Nat.le_of_succ_le first, le_rfl⟩)
  | nil => exact le_max_left ..
  | @cons l w op joins x y ih1 ih2 =>
    obtain ⟨nx, ny⟩ := Nat.max_le.mp nx
    let joint := Span.ofChar (o + w.text.size) op.symbol
    let right := x.meaning left joint.stop
    have turned := Nat.add_le_add_right (ih1 left joint.stop nx) 1
    have others := ih2 (.binary op joint left right) (joint.stop + x.text.size) ny
    rw [l.turns_operand] at turned
    -- The operator turns to its right operand; to its left one it does not.
    have step : (Expr.binary op joint left right).turns ≤ max left.turns (3 * n + l.turns) :=
      max_le_max le_rfl turned
    exact others.trans (Nat.max_le.mpr ⟨step, le_max_right ..⟩)

/-- The expression of a text is what a derivation means that nests as the bound allows. -/
lemma derivation_of_ast (h : (analyze t).ast = some e) :
    ∃ x : Derivation (.chain .sum), x.nesting < maxDepth ∧ ∀ left, x.meaning left 0 = e := by
  rcases parse_cases t with ⟨x, w, r, nx, _, parsed⟩ | ⟨_, _, parsed⟩
  · refine ⟨x, nx, fun left => ?_⟩
    have mapped : (x.tree 0).toExpr = .ok (x.meaning left 0) := x.toExpr_tree left 0
    rw [analyze, parsed, Analysis.ofOutcome] at h
    dsimp only at h
    split at h
    · rw [Analysis.ofTree, mapped] at h
      cases h
      rfl
    · cases h
  · rw [analyze, parsed] at h
    cases h

/-- A sum of `n + 1` ones. -/
def ones : Nat → Text
  | 0 => ['1']
  | n + 1 => ones n ++ ['+', '1']

/-- A sum of ones leans to the left as far as it goes. -/
lemma written_ones (n : Nat) :
    ∃ e, Written (.chain .sum) 0 0 (ones n) e ∧ e.depth = n + 1 := by
  let one : Lexeme isNumeric :=
    ⟨⟨['1'], List.forall_mem_singleton.mpr rfl⟩, List.cons_ne_nil _ _⟩
  induction n with
  | zero => exact ⟨_, .tighter .sum (.tighter .product (.number .nil one)), rfl⟩
  | succ n ih =>
    obtain ⟨e, written, depth⟩ := ih
    refine ⟨_, .binary .add .nil written (.tighter .product (.number .nil one)), ?_⟩
    rw [Expr.depth, depth, Expr.depth]
    omega

/-- The expression of a sum of ones is as deep as the sum is long. -/
lemma ast_ones (n : Nat) : ∃ e, (analyze (ones n)).ast = some e ∧ e.depth = n + 1 := by
  obtain ⟨e, written, depth⟩ := written_ones n
  obtain ⟨x, text, nx, meaning⟩ := written.derived
  have whole : ones n = x.text ++ (Run.nil : Blanks).text :=
    text.symm.trans (List.append_nil _).symm
  have analyzed := (analyze_derived (Nat.lt_of_le_of_lt nx maxDepth_pos) whole default).2.2
  exact ⟨e, by rw [analyzed, meaning], depth⟩

/-- The depth of a text's expression is that of its longest run of steps to the left, up to a factor
that the bound on nesting determines. -/
theorem depth_ast (h : (analyze t).ast = some e) :
    e.turns < 3 * maxDepth ∧ e.longestLeftRun < e.depth ∧
      e.depth ≤ 3 * maxDepth * (e.longestLeftRun + 1) := by
  obtain ⟨x, nx, meaning⟩ := derivation_of_ast h
  have turns : e.turns < 3 * maxDepth := by
    have bounded := x.turns_meaning default 0 (Nat.le_sub_one_of_lt nx)
    rw [meaning] at bounded
    exact Nat.lt_of_le_of_lt bounded (by decide)
  refine ⟨turns, e.longestLeftRun_lt_depth, ?_⟩
  have depth := e.depth_le le_rfl
  have run := e.leftRun_le_longest
  have runs := Nat.mul_le_mul_right (e.longestLeftRun + 1) turns
  rw [Nat.succ_mul] at runs
  omega

/-- The expression of a hundred ones keeps the bound on turns, and is deeper than that bound. -/
theorem depth_ast_ones :
    ∃ e, (analyze (ones 99)).ast = some e ∧ e.turns < 3 * maxDepth ∧ 3 * maxDepth < e.depth := by
  obtain ⟨e, ast, depth⟩ := ast_ones 99
  refine ⟨e, ast, (depth_ast ast).1, ?_⟩
  rw [depth]
  decide

/-- The bound on nesting does not bound the depth of expressions. -/
theorem depth_ast_unbounded :
    ¬ ∃ bound, ∀ (t : Text) (e : Expr), (analyze t).ast = some e → e.depth ≤ bound := by
  rintro ⟨bound, bounded⟩
  obtain ⟨e, ast, depth⟩ := ast_ones bound
  have le := bounded (ones bound) e ast
  omega

end Reckoner
