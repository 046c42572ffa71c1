import Reckoner.Proofs.Expr.Evaluation
import Reckoner.Proofs.Expr.Findings
import Reckoner.Proofs.Number.Readable
import Reckoner.Proofs.Structure.Agreement
import Reckoner.Proofs.Text.Literals

/-!
# Literals that are no numbers

The numbers of a derived text are its literals, all of them and from the left (`literals_tree`).
Evaluation comes to every number whatever else fails, so it reports each literal that cannot be
read, in this order and between whatever else it reports (`unreadable_literals`).
-/

namespace Reckoner

open Grammar

variable {t : Text} {o : Nat} {span : Span} {e : Expr} {es : List Expr} {fs : List Finding}
variable {fault : Fault} {n : Node} {ns ms : List Node}

/-- The spans of the numbers among some nodes. -/
def numberSpans (ns : List Node) : List Span := (ns.filter (·.rule = .number)).map (·.span)

/-- The numbers of two lists of nodes are those of the first and then of the second. -/
lemma numberSpans_append : numberSpans (ns ++ ms) = numberSpans ns ++ numberSpans ms := by
  simp [numberSpans]

/-- A node that is no number adds none. -/
lemma numberSpans_cons_other (other : n.rule ≠ .number) :
    numberSpans (n :: ns) = numberSpans ns := by
  simp [numberSpans, other]

/-- No sign is a number. -/
lemma UnaryOp.rule_ne_number (op : UnaryOp) : op.rule ≠ .number := by cases op <;> decide

/-- No operator is a number. -/
lemma BinaryOp.rule_ne_number (op : BinaryOp) : op.rule ≠ .number := by cases op <;> decide

/-! The numbers of a tree are the literals of its text. -/

section

variable {k : Category} {l : Chain}

/-- No blank belongs to a number. -/
lemma other_blanks (w : Blanks) : ∀ c ∈ w.text, isNumeric c = false :=
  fun c mem => not_isNumeric_of_isSpace (w.all c mem)

/-- No sign belongs to a number. -/
lemma UnaryOp.other_symbol (op : UnaryOp) : ∀ c ∈ [op.symbol], isNumeric c = false := by
  rw [List.forall_mem_singleton]
  cases op <;> rfl

/-- No operator belongs to a number. -/
lemma BinaryOp.other_symbol (op : BinaryOp) : ∀ c ∈ [op.symbol], isNumeric c = false := by
  rw [List.forall_mem_singleton]
  cases op <;> rfl

namespace Grammar.Derivation

/-- Links do not start inside a literal. -/
lemma other_head_links (y : Derivation (.links l)) : ∀ c ∈ y.text.head?, isNumeric c = false := by
  intro c head
  cases y with
  | nil => cases head
  | cons w op joins x y =>
    rw [text, List.head?_append] at head
    cases first : w.text.head? with
    | some b =>
      rw [first] at head
      cases head
      exact other_blanks w c (List.mem_of_head? first)
    | none =>
      rw [first] at head
      cases head
      exact op.other_symbol _ List.mem_cons_self

/-- The numbers of a tree take up the literals of its text. -/
lemma literals_tree (x : Derivation k) : Literals o x.text (numberSpans (x.tree o).marks) := by
  induction x generalizing o with
  | number w s =>
    rw [marks_number]
    apply Literals.skip (other_blanks w)
    exact .lexeme s
  | signed w op x ih =>
    rw [marks_signed, numberSpans_cons_other op.rule_ne_number]
    apply Literals.skip (other_blanks w)
    apply Literals.skip op.other_symbol
    exact ih
  | call w name x ih =>
    have letters : ∀ c ∈ name.text, isNumeric c = false :=
      fun c mem => not_isNumeric_of_isLetter (name.all c mem)
    rw [marks_call, numberSpans_cons_other (by simp [Node.leaf])]
    apply Literals.skip (other_blanks w)
    apply Literals.skip letters
    exact ih
  | grouped x ih =>
    rw [marks_grouped]
    exact ih
  | group w x v ih =>
    have opening : ∀ c ∈ ['('], isNumeric c = false := List.forall_mem_singleton.mpr rfl
    have closing : ∀ c ∈ v.text ++ [')'], isNumeric c = false :=
      List.forall_mem_append.mpr ⟨other_blanks v, List.forall_mem_singleton.mpr rfl⟩
    rw [marks_group]
    apply Literals.skip (other_blanks w)
    apply Literals.skip opening
    exact ih.before_other closing
  | chain x y ih1 ih2 =>
    -- the operator that the links begin with keeps the numbers on both sides apart
    rw [marks_chain, numberSpans_append]
    exact ih1.append (apart_of_head y.other_head_links) ih2
  | nil =>
    rw [marks_nil]
    exact .none (List.forall_mem_nil _)
  | cons w op joins x y ih1 ih2 =>
    rw [marks_cons, numberSpans_cons_other op.rule_ne_number, numberSpans_append]
    apply Literals.skip (other_blanks w)
    apply Literals.skip op.other_symbol
    exact ih1.append (apart_of_head y.other_head_links) ih2

end Grammar.Derivation

end

/-! The numbers that are reported are those that cannot be read. -/

/-- The span of a number. -/
def Expr.literal? : Expr → Option Span
  | number span => some span
  | _ => none

/-- The nodes of an expression and its tokens have the same numbers. -/
lemma Expr.filterMap_literal? (e : Expr) (t : Text) :
    e.postorder.filterMap literal? = numberSpans (e.tokens t) := by
  induction e with
  | number span => rfl
  | unary op span operand ih =>
    rw [tokens, numberSpans_cons_other op.rule_ne_number, ← ih]
    simp [postorder, literal?]
  | binary op span left right ih1 ih2 =>
    rw [tokens, numberSpans_append, numberSpans_cons_other op.rule_ne_number, ← ih1, ← ih2]
    simp [postorder, literal?]
  | call name span argument ih =>
    rw [tokens, numberSpans_cons_other (by simp), ← ih]
    simp [postorder, literal?]

/-- A number is a literal where it stands. -/
lemma Expr.filterMap_literal?_cons {span : Span} :
    (number span :: es).filterMap literal? = span :: es.filterMap literal? := rfl

/-- A span of a text that is not read as a number. -/
def unreadable (t : Text) (span : Span) : Bool := (Numeral.read? (t.slice span)).isNone

/-- A literal is unreadable if no number is read from its slice. -/
lemma unreadable_iff : unreadable t span = true ↔ Numeral.read? (t.slice span) = none :=
  Option.isNone_iff_eq_none

/-- The numbers that are found are those that cannot be read, in their order. -/
lemma Collected.filter_unreadable (h : Collected t es fs) :
    fs.filter (·.fault = .unreadableNumber) =
      ((es.filterMap Expr.literal?).filter (unreadable t)).map (⟨.unreadableNumber, ·⟩) := by
  induction h with
  | nil => rfl
  | @passed e es fs sound _ ih =>
    rw [ih]
    cases e with
    | number span =>
      have readable : ¬ unreadable t span = true :=
        fun none => sound _ (.number (unreadable_iff.mp none))
      rw [Expr.filterMap_literal?_cons, List.filter_cons_of_neg readable]
    | _ => rfl
  | failing fails _ ih =>
    cases fails with
    | number none =>
      rw [Expr.filterMap_literal?_cons, List.filter_cons_of_pos (unreadable_iff.mpr none),
        List.map_cons, ← ih]
      rfl
    | div => exact ih
    | unknown => exact ih
    | refused => exact ih

/-- The report on a number is told from the other reports of an evaluation. -/
lemma Fails.message_eq_iff (h : Fails t e fault) :
    fault.message = "cannot parse number" ↔ fault = .unreadableNumber := by
  cases h with
  | number => exact iff_of_true rfl rfl
  | div => exact iff_of_false (by decide) nofun
  | @unknown name =>
    refine iff_of_false (fun same => ?_) nofun
    have initial : ("unknown function: " ++ name).toList.head? = some 'c' :=
      congrArg (·.toList.head?) same
    rw [String.toList_append, List.head?_append] at initial
    cases initial
  | @refused _ g => cases g <;> exact iff_of_false (by decide) nofun

/-- The reports on numbers among the diagnostics of an expression. -/
lemma Expr.filter_diagnostics (e : Expr) (t : Text) :
    ((e.eval t []).2.map (·.diagnostic t)).filter (·.message = "cannot parse number") =
      ((numberSpans (e.tokens t)).filter (unreadable t)).map
        fun span => ⟨t.rangeOf span, "cannot parse number"⟩ := by
  have collected := e.collected t
  have told : ∀ f ∈ (e.eval t []).2,
      decide ((f.diagnostic t).message = "cannot parse number") =
        decide (f.fault = .unreadableNumber) := by
    intro f found
    obtain ⟨_, _, fails, _⟩ := collected.mem f found
    exact decide_eq_decide.mpr fails.message_eq_iff
  calc
    _ = ((e.eval t []).2.filter fun f => (f.diagnostic t).message = "cannot parse number").map
        (·.diagnostic t) := List.filter_map
    _ = ((e.eval t []).2.filter (·.fault = .unreadableNumber)).map (·.diagnostic t) :=
      congrArg _ (List.filter_congr told)
    _ = _ := by
      rw [collected.filter_unreadable, e.filterMap_literal?, List.map_map]
      rfl

/-- A literal is not read if it has two points at least, or no digit. -/
lemma unreadable_literal {before written after : Text} (h : t.Literal before written after) :
    unreadable t ⟨before.size, before.size + written.size⟩ = true ↔
      2 ≤ written.count '.' ∨ written.any Numeral.isDigit = false := by
  rw [unreadable_iff, h.slice]
  exact Numeral.read?_numeric h.numeric

/-- In a text that is an expression as a whole, the reports on numbers are those on the literals
with two points at least or with no digit: one on each, from the left, and on all of the literal.
Whatever else is reported stands between them. -/
theorem unreadable_literals (complete : (parse t).issue.isComplete = true) :
    ∃ literals : List Span,
      (∀ span, span ∈ literals ↔ ∃ before written after, t.Literal before written after ∧
        span = ⟨before.size, before.size + written.size⟩) ∧
      literals.Pairwise (fun a b => a.stop ≤ b.start) ∧
      (analyze t).errors.filter (·.message = "cannot parse number") =
        (literals.filter fun span =>
          2 ≤ (t.slice span).count '.' || !(t.slice span).any Numeral.isDigit).map
            fun span => ⟨t.rangeOf span, "cannot parse number"⟩ := by
  obtain ⟨x, w, nx, eq⟩ := derived_of_isComplete complete
  obtain ⟨_, _, analyzed⟩ := analyze_derived nx eq default
  have literals : Literals 0 t (numberSpans (x.tree 0).marks) := by
    rw [eq]
    exact x.literals_tree.before_other (other_blanks w)
  simp only [Literals, Nat.zero_add] at literals
  have order : (numberSpans (x.tree 0).marks).Pairwise fun a b => a.stop ≤ b.start := by
    rw [numberSpans, List.pairwise_map]
    exact (x.successive_marks le_rfl).pairwise.filter _
  refine ⟨_, literals, order, ?_⟩
  have unread : ∀ span ∈ numberSpans (x.tree 0).marks, unreadable t span =
      (2 ≤ (t.slice span).count '.' || !(t.slice span).any Numeral.isDigit) := by
    intro span mem
    obtain ⟨before, written, after, h, rfl⟩ := (literals span).mp mem
    rw [h.slice, Bool.eq_iff_iff, unreadable_literal h, Bool.or_eq_true, decide_eq_true_eq,
      Bool.not_eq_true']
  rw [analyzed, Expr.filter_diagnostics, Derivation.tokens_text eq, List.filter_congr unread]

/-- In `.+1/0-1.2.3` the point and the last literal are reported, although a division by zero stands
between them. -/
theorem unreadable_literals_div :
    let t : Text := ['.', '+', '1', '/', '0', '-', '1', '.', '2', '.', '3']
    ⟨⟨⟨0, 0⟩, ⟨0, 1⟩⟩, "cannot parse number"⟩ ∈ (analyze t).errors ∧
      ⟨⟨⟨0, 6⟩, ⟨0, 11⟩⟩, "cannot parse number"⟩ ∈ (analyze t).errors := by
  intro t
  have complete : (parse t).issue.isComplete = true := by decide +kernel
  obtain ⟨literals, mem, _, same⟩ := unreadable_literals complete
  have reported {before written after : Text} (h : t.Literal before written after)
      (bad : (2 ≤ written.count '.' || !written.any Numeral.isDigit) = true) :
      ⟨t.rangeOf ⟨before.size, before.size + written.size⟩, "cannot parse number"⟩ ∈
        (analyze t).errors := by
    apply List.mem_of_mem_filter
    rw [same]
    apply List.mem_map_of_mem
    rw [List.mem_filter, h.slice]
    exact ⟨(mem _).mpr ⟨_, _, _, h, rfl⟩, bad⟩
  have plus : ∀ c ∈ some '+', isNumeric c = false := by rintro _ ⟨⟩; rfl
  have minus : ∀ c ∈ some '-', isNumeric c = false := by rintro _ ⟨⟩; rfl
  constructor
  · have point : t.Literal [] ['.'] ['+', '1', '/', '0', '-', '1', '.', '2', '.', '3'] :=
      ⟨rfl, List.cons_ne_nil _ _, List.all_eq_true.mp rfl, nofun, plus⟩
    exact reported point rfl
  · have last : t.Literal ['.', '+', '1', '/', '0', '-'] ['1', '.', '2', '.', '3'] [] :=
      ⟨rfl, List.cons_ne_nil _ _, List.all_eq_true.mp rfl, minus, nofun⟩
    exact reported last rfl

end Reckoner
