import Reckoner.Proofs.Structure.Agreement

/-!
# Written expressions

The ways to write an expression in infix notation: operators of a product bind tighter than those
of a sum, both lean to the left, a sign or a call takes a single operand, parentheses may be put
around anything, and spaces may stand before every token.  `Written` also says where in the text
every token stands.  However it is written, the analysis finds the expression again.
-/

namespace Reckoner

open Grammar

/-- A text in parentheses. -/
def Text.enclosed (opening : Blanks) (s : Text) (closing : Blanks) : Text :=
  opening.text ++ '(' :: (s ++ (closing.text ++ [')']))

/-- The middle of a text is the slice of where it stands. -/
lemma Text.slice_middle {t u m r : Text} {o : Nat} (start : o = u.size) (eq : t = u ++ (m ++ r)) :
    t.slice ⟨o, o + m.size⟩ = m := by
  rw [start, eq]
  exact Text.slice_append u m r

/-- `Written k n o s e`: standing at offset `o`, the text `s` writes the expression `e` as a sum, a
product or an operand, with at most `n` signs, calls and parentheses around any number. -/
inductive Written : Category → (n o : Nat) → Text → Expr → Prop where
  | number {n o} (before : Blanks) (lexeme : Lexeme isNumeric) :
    Written .operand n o (before.text ++ lexeme.text)
      (.number ⟨o + before.text.size, o + before.text.size + lexeme.text.size⟩)
  | signed {n o s e} (before : Blanks) (op : UnaryOp) :
    Written .operand n (o + before.text.size + op.symbol.utf8Size) s e →
    Written .operand (n + 1) o (before.text ++ op.symbol :: s)
      (.unary op (.ofChar (o + before.text.size) op.symbol) e)
  | call {n o s e} (before : Blanks) (name : Lexeme isLetter) (opening closing : Blanks) :
    Written (.chain .sum) n
      (o + before.text.size + name.text.size + opening.text.size + Char.utf8Size '(') s e →
    Written .operand (n + 1) o (before.text ++ (name.text ++ Text.enclosed opening s closing))
      (.call (String.ofList name.text)
        ⟨o + before.text.size, o + before.text.size + name.text.size⟩ e)
  | parens {n o s e} (opening closing : Blanks) :
    Written (.chain .sum) n (o + opening.text.size + Char.utf8Size '(') s e →
    Written .operand (n + 1) o (Text.enclosed opening s closing) e
  | binary {n o s t left right} (op : BinaryOp) (before : Blanks) :
    Written (.chain op.chain) n o s left →
    Written op.chain.operand n (o + s.size + before.text.size + op.symbol.utf8Size) t right →
    Written (.chain op.chain) n o (s ++ (before.text ++ op.symbol :: t))
      (.binary op (.ofChar (o + s.size + before.text.size) op.symbol) left right)
  | tighter {n o s e} (l : Chain) :
    Written l.operand n o s e →
    Written (.chain l) n o s e

/-- Every token of the expression stands at its span of the text. -/
def Expr.Spelled (t : Text) : Expr → Prop
  | number span => ∃ lexeme : Lexeme isNumeric, t.slice span = lexeme.text
  | unary op span operand => t.slice span = [op.symbol] ∧ operand.Spelled t
  | binary op span left right => left.Spelled t ∧ t.slice span = [op.symbol] ∧ right.Spelled t
  | call name span argument => t.slice span = name.toList ∧ argument.Spelled t

namespace Grammar.Derivation

variable {l : Chain}

/-- Links can be continued by one more. -/
lemma exists_snoc (y : Derivation (.links l)) (before : Blanks) (op : BinaryOp)
    (joins : op.chain = l) (x : Derivation l.operand) :
    ∃ z : Derivation (.links l),
      z.text = y.text ++ (before.text ++ op.symbol :: x.text) ∧
      z.nesting = max y.nesting x.nesting ∧
      ∀ left o, z.meaning left o =
        let joint := Span.ofChar (o + y.text.size + before.text.size) op.symbol
        .binary op joint (y.meaning left o) (x.meaning (y.meaning left o) joint.stop) := by
  generalize e : Category.links l = k at y
  induction y with
  | nil =>
    cases e
    refine ⟨.cons before op joins x .nil, ?_, ?_, ?_⟩
    · simp [text]
    · simp [nesting]
    · simp [meaning, text]
  | cons w op1 joins1 x1 y _ ih =>
    cases e
    obtain ⟨z, text_eq, nesting_eq, meaning_eq⟩ := ih rfl
    refine ⟨.cons w op1 joins1 x1 z, ?_, ?_, ?_⟩
    · simp [text, text_eq]
    · simp [nesting, nesting_eq, max_assoc]
    · intro left o
      simp [meaning, meaning_eq, text, Nat.add_assoc, Span.ofChar]
  | _ => cases e

end Grammar.Derivation

namespace Written

variable {k : Category} {n o : Nat} {s t : Text} {e : Expr}

/-- What is written is derived, and the derivation means what was written. -/
theorem derived (h : Written k n o s e) :
    ∃ x : Derivation k, x.text = s ∧ x.nesting ≤ n ∧ ∀ left, x.meaning left o = e := by
  induction h with
  | number before lexeme =>
    exact ⟨.number before lexeme, rfl, Nat.zero_le _, fun _ => rfl⟩
  | signed before op _ ih =>
    obtain ⟨x, rfl, nx, value⟩ := ih
    refine ⟨.signed before op x, rfl, Nat.succ_le_succ nx, fun left => ?_⟩
    exact congrArg (Expr.unary op _) (value left)
  | call before name opening closing _ ih =>
    obtain ⟨x, rfl, nx, value⟩ := ih
    refine ⟨.call before name (.group opening x closing), rfl, Nat.succ_le_succ nx, fun left => ?_⟩
    exact congrArg (Expr.call _ _) (value left)
  | parens opening closing _ ih =>
    obtain ⟨x, rfl, nx, value⟩ := ih
    exact ⟨.grouped (.group opening x closing), rfl, Nat.succ_le_succ nx, value⟩
  | binary op before _ _ ih1 ih2 =>
    obtain ⟨x, rfl, nx, value1⟩ := ih1
    obtain ⟨y, rfl, ny, value2⟩ := ih2
    -- The left side is a chain already, so the operator and its right side are one more link.
    cases x with
    | chain first others =>
      obtain ⟨z, text, nz, value⟩ := others.exists_snoc before op rfl y
      refine ⟨.chain first z, ?_, ?_, fun left => ?_⟩
      · rw [Derivation.text, text, Derivation.text, List.append_assoc]
      · simp only [Derivation.nesting] at nx ⊢
        omega
      · have first_value := value1 left
        rw [Derivation.text, Text.size_append, ← Nat.add_assoc] at value2 ⊢
        rw [← first_value, ← value2 (others.meaning (first.meaning left _) _)]
        exact value _ _
  | tighter l _ ih =>
    obtain ⟨x, rfl, nx, value⟩ := ih
    refine ⟨.chain x .nil, List.append_nil _, ?_, value⟩
    exact max_le nx (Nat.zero_le _)

/-- The tokens of what is written stand at its spans. -/
theorem spelled (h : Written k n o s e) {u r : Text} (start : o = u.size)
    (eq : t = u ++ (s ++ r)) : e.Spelled t := by
  -- `u` stands before what is written and `r` after it; a token is cut out between them
  induction h generalizing u r with
  | number before lexeme =>
    refine ⟨lexeme, ?_⟩
    apply Text.slice_middle (u := u ++ before.text) (r := r)
    · rw [start, Text.size_append]
    · rw [eq]
      simp
  | @signed _ _ s _ before op _ ih =>
    constructor
    · apply Text.slice_middle (u := u ++ before.text) (m := [op.symbol]) (r := s ++ r)
      · rw [start, Text.size_append]
      · simp [eq]
    · apply ih (u := u ++ (before.text ++ [op.symbol])) (r := r)
      · simp [start, Nat.add_assoc]
      · simp [eq]
  | @call _ _ s _ before name opening closing _ ih =>
    constructor
    · rw [String.toList_ofList]
      apply Text.slice_middle (u := u ++ before.text) (r := Text.enclosed opening s closing ++ r)
      · rw [start, Text.size_append]
      · simp [eq]
    · apply ih (u := u ++ (before.text ++ (name.text ++ (opening.text ++ ['(']))))
        (r := closing.text ++ ')' :: r)
      · simp [start, Nat.add_assoc]
      · simp [eq, Text.enclosed]
  | parens opening closing _ ih =>
    apply ih (u := u ++ (opening.text ++ ['('])) (r := closing.text ++ ')' :: r)
    · simp [start, Nat.add_assoc]
    · simp [eq, Text.enclosed]
  | @binary _ _ s t _ _ op before _ _ ih1 ih2 =>
    refine ⟨?_, ?_, ?_⟩
    · apply ih1 (u := u) (r := before.text ++ op.symbol :: (t ++ r)) start
      simp [eq]
    · apply Text.slice_middle (u := u ++ (s ++ before.text)) (m := [op.symbol]) (r := t ++ r)
      · simp [start, Nat.add_assoc]
      · simp [eq]
    · apply ih2 (u := u ++ (s ++ (before.text ++ [op.symbol]))) (r := r)
      · simp [start, Nat.add_assoc]
      · simp [eq]
  | tighter _ _ ih => exact ih start eq

end Written

/-- However an expression is written, with at most `maxDepth - 1` signs, calls and parentheses
around a number, the analysis of the text finds it, and each of its tokens where it stands. -/
theorem ast_analyze_written {s : Text} {e : Expr} (h : Written (.chain .sum) (maxDepth - 1) 0 s e)
    (after : Blanks) :
    (analyze (s ++ after.text)).ast = some e ∧ e.Spelled (s ++ after.text) := by
  obtain ⟨x, rfl, nx, value⟩ := h.derived
  have less : x.nesting < maxDepth := Nat.lt_of_le_sub_one maxDepth_pos nx
  obtain ⟨_, _, analyzed⟩ := analyze_derived less rfl default
  constructor
  · rw [analyzed, value]
  · exact h.spelled (u := []) rfl rfl

/-- In `-2 *(3)` the sign takes the `2` alone, and the parentheses vanish. -/
theorem ast_analyze_written_product :
    (analyze ['-', '2', ' ', '*', '(', '3', ')', '\n']).ast =
      some (.binary .mul ⟨3, 4⟩ (.unary .negate ⟨0, 1⟩ (.number ⟨1, 2⟩)) (.number ⟨5, 6⟩)) := by
  let none : Blanks := ⟨[], nofun⟩
  let blank : Blanks := ⟨[' '], List.forall_mem_singleton.mpr rfl⟩
  let line : Blanks := ⟨['\n'], List.forall_mem_singleton.mpr rfl⟩
  have two : Written .operand 30 1 ['2'] (.number ⟨1, 2⟩) :=
    .number none ⟨⟨['2'], List.forall_mem_singleton.mpr rfl⟩, List.cons_ne_nil _ _⟩
  have three : Written .operand 30 5 ['3'] (.number ⟨5, 6⟩) :=
    .number none ⟨⟨['3'], List.forall_mem_singleton.mpr rfl⟩, List.cons_ne_nil _ _⟩
  have left : Written (.chain .product) 31 0 ['-', '2'] (.unary .negate ⟨0, 1⟩ (.number ⟨1, 2⟩)) :=
    .tighter .product (.signed none .negate two)
  have right : Written .operand 31 4 ['(', '3', ')'] (.number ⟨5, 6⟩) :=
    .parens none none (.tighter .sum (.tighter .product three))
  exact (ast_analyze_written (.tighter .sum (.binary .mul blank left right)) line).1

end Reckoner
