import Mathlib.Tactic.Lemma
import Reckoner.Expr.Eval

/-!
# Evaluation as a relation

Values and failures said without a list of findings.  `Evaluates` is the plain arithmetic of
doubles; an expression `Fails` where its operands have values and it has none.  Evaluation finds
the failing nodes of an expression, all of them, each once, in the order in which they are come to,
and it comes to a value exactly where there are none (`eval_collects`).
-/

namespace Reckoner

namespace Expr

/-- The expressions whose values an expression is computed from. -/
def operands : Expr → List Expr
  | number _ => []
  | unary _ _ operand => [operand]
  | binary _ _ left right => [left, right]
  | call _ _ argument => [argument]

/-- The nodes of an expression: each after its operands, and those from the left. -/
def postorder : Expr → List Expr
  | number span => [number span]
  | unary op span operand => operand.postorder ++ [unary op span operand]
  | binary op span left right =>
    left.postorder ++ (right.postorder ++ [binary op span left right])
  | call name span argument => argument.postorder ++ [call name span argument]

/-- What holds of both sides holds of all operands. -/
lemma forall_operands_binary {op : BinaryOp} {span : Span} {left right : Expr} {p : Expr → Prop}
    (h1 : p left) (h2 : p right) : ∀ c ∈ (binary op span left right).operands, p c :=
  List.forall_mem_cons.mpr ⟨h1, List.forall_mem_singleton.mpr h2⟩

/-- The nodes of an expression are those of its operands and then itself. -/
lemma postorder_eq (e : Expr) : e.postorder = e.operands.flatMap postorder ++ [e] := by
  cases e <;> simp [postorder, operands]

end Expr

/-- `Evaluates t e x`: over the text `t` the expression `e` has the value `x`. -/
inductive Evaluates (t : Text) : Expr → Float → Prop where
  | number {span x} (written : Numeral.read? (t.slice span) = some x) :
    Evaluates t (.number span) x
  | negate {span e x} :
    Evaluates t e x →
    Evaluates t (.unary .negate span e) (-x)
  | keep {span e x} :
    Evaluates t e x →
    Evaluates t (.unary .keep span e) x
  | add {span e1 e2 a b} :
    Evaluates t e1 a →
    Evaluates t e2 b →
    Evaluates t (.binary .add span e1 e2) (a + b)
  | sub {span e1 e2 a b} :
    Evaluates t e1 a →
    Evaluates t e2 b →
    Evaluates t (.binary .sub span e1 e2) (a - b)
  | mul {span e1 e2 a b} :
    Evaluates t e1 a →
    Evaluates t e2 b →
    Evaluates t (.binary .mul span e1 e2) (a * b)
  | div {span e1 e2 a b} (nonzero : (b == 0) = false) :
    Evaluates t e1 a →
    Evaluates t e2 b →
    Evaluates t (.binary .div span e1 e2) (a / b)
  | call {f span e x} (known : f ∈ Function.table) (admits : ∀ g ∈ f.guard, g.refuses x = false) :
    Evaluates t e x →
    Evaluates t (.call f.name span e) (f.compute x)

/-- `Fails t e fault`: the operands of `e` have values, and `e` has none because of `fault`. -/
inductive Fails (t : Text) : Expr → Fault → Prop where
  | number {span} (unreadable : Numeral.read? (t.slice span) = none) :
    Fails t (.number span) .unreadableNumber
  | div {span e1 e2 a b} (zero : (b == 0) = true) :
    Evaluates t e1 a →
    Evaluates t e2 b →
    Fails t (.binary .div span e1 e2) .divisionByZero
  | unknown {name span e x} (unknown : ∀ f ∈ Function.table, f.name ≠ name) :
    Evaluates t e x →
    Fails t (.call name span e) (.unknownFunction name)
  | refused {f g span e x} (known : f ∈ Function.table) (guarded : f.guard = some g)
    (refuses : g.refuses x = true) :
    Evaluates t e x →
    Fails t (.call f.name span e) (.refused g)

/-- `Collected t es fs`: of the expressions `es`, those that fail are reported by `fs`, one finding
for each, at its own token and in the same order. -/
inductive Collected (t : Text) : List Expr → List Finding → Prop where
  | nil : Collected t [] []
  | passed {e es fs} (sound : ∀ fault, ¬ Fails t e fault) :
    Collected t es fs →
    Collected t (e :: es) fs
  | failing {e fault es fs} (fails : Fails t e fault) :
    Collected t es fs →
    Collected t (e :: es) (⟨fault, e.span⟩ :: fs)

variable {t : Text} {e c : Expr} {x y : Float} {fault : Fault} {found fs gs : List Finding}
variable {es ds : List Expr} {f : Function} {g : Guard} {name : String}

namespace Function

/-- The functions of the table have different names. -/
lemma find?_of_mem (known : f ∈ table) : find? f.name = some f := by
  simp only [table, List.mem_cons, List.not_mem_nil, or_false] at known
  obtain rfl | rfl | rfl | rfl | rfl := known <;> rfl

/-- A name is unknown if no function of the table has it. -/
lemma find?_eq_none : find? name = none ↔ ∀ f ∈ table, f.name ≠ name := by
  simp [find?]

/-- The function of a name is in the table and has the name. -/
lemma mem_of_find? (h : find? name = some f) : f ∈ table ∧ f.name = name :=
  ⟨List.mem_of_find?_eq_some h, by simpa using List.find?_some h⟩

/-- An argument that no guard refuses is computed with. -/
lemma apply_of_admits (admits : ∀ g ∈ f.guard, g.refuses x = false) :
    f.apply x = .ok (f.compute x) := by
  rw [apply]
  cases guard : f.guard with
  | none => rfl
  | some g => simp [admits g guard]

/-- An argument that the guard refuses is reported as the guard. -/
lemma apply_of_refuses (guarded : f.guard = some g) (refuses : g.refuses x = true) :
    f.apply x = .error g := by
  simp [apply, guarded, refuses]

end Function

namespace Expr

variable {sign : UnaryOp} {op : BinaryOp} {span : Span} {left right : Expr} {a b : Float}

/-! One step of evaluation, by what the operands come to. -/

attribute [local simp] eval

/-- A sign is applied to the value of its operand. -/
lemma eval_unary (h : e.eval t found = (some x, fs)) :
    (unary sign span e).eval t found = (some (sign.apply x), fs) := by
  simp [h]

/-- A sign adds nothing to what is found in its operand. -/
lemma eval_unary_none (h : e.eval t found = (none, fs)) :
    (unary sign span e).eval t found = (none, fs) := by
  simp [h]

/-- A call is settled by its function at the value of its argument. -/
lemma eval_call (h : e.eval t found = (some x, fs)) :
    (call name span e).eval t found = settle span fs (Function.call name x) := by
  simp [h]

/-- A call adds nothing to what is found in its argument. -/
lemma eval_call_none (h : e.eval t found = (none, fs)) :
    (call name span e).eval t found = (none, fs) := by
  simp [h]

/-- An operation is settled at the values of its two sides. -/
lemma eval_binary (h1 : left.eval t found = (some a, fs)) (h2 : right.eval t fs = (some b, gs)) :
    (binary op span left right).eval t found = settle span gs (op.apply a b) := by
  simp [h1, h2]

/-- The right side is evaluated although the left one has no value. -/
lemma eval_binary_left (h1 : left.eval t found = (none, fs)) :
    (binary op span left right).eval t found = (none, (right.eval t fs).2) := by
  simp [h1]

/-- An operation adds nothing to what is found in its right side. -/
lemma eval_binary_right (h1 : left.eval t found = (some a, fs))
    (h2 : right.eval t fs = (none, gs)) :
    (binary op span left right).eval t found = (none, gs) := by
  simp [h1, h2]

end Expr

/-- What has a value is evaluated to it, and nothing is found. -/
lemma Evaluates.eval (h : Evaluates t e x) : e.eval t found = (some x, found) := by
  induction h with
  | number written => rw [Expr.eval, readNumber, written]; rfl
  | negate _ ih => exact Expr.eval_unary ih
  | keep _ ih => exact Expr.eval_unary ih
  | add _ _ ih1 ih2 => exact Expr.eval_binary ih1 ih2
  | sub _ _ ih1 ih2 => exact Expr.eval_binary ih1 ih2
  | mul _ _ ih1 ih2 => exact Expr.eval_binary ih1 ih2
  | div nonzero _ _ ih1 ih2 =>
    rw [Expr.eval_binary ih1 ih2, BinaryOp.apply, nonzero]
    rfl
  | call known admits _ ih =>
    rw [Expr.eval_call ih, Function.call, Function.find?_of_mem known]
    simp only [Function.apply_of_admits admits]
    rfl

/-- What fails is evaluated to nothing, and its fault is found last. -/
lemma Fails.eval (h : Fails t e fault) :
    e.eval t found = (none, found ++ [⟨fault, e.span⟩]) := by
  cases h with
  | number unreadable => rw [Expr.eval, readNumber, unreadable]; rfl
  | div zero h1 h2 =>
    rw [Expr.eval_binary h1.eval h2.eval, BinaryOp.apply, zero]
    rfl
  | unknown unknown h =>
    rw [Expr.eval_call h.eval, Function.call, Function.find?_eq_none.mpr unknown]
    rfl
  | refused known guarded refuses h =>
    rw [Expr.eval_call h.eval, Function.call, Function.find?_of_mem known]
    simp only [Function.apply_of_refuses guarded refuses]
    rfl

/-- What fails has no value. -/
lemma Fails.not_evaluates (h : Fails t e fault) : ¬ Evaluates t e x := by
  intro value
  have valueless : e.eval t [] = _ := h.eval
  rw [value.eval] at valueless
  cases valueless

/-- The operands of what fails have values. -/
lemma Fails.operands (h : Fails t e fault) : ∀ c ∈ e.operands, ∃ x, Evaluates t c x := by
  cases h with
  | number => exact List.forall_mem_nil _
  | div _ h1 h2 => exact Expr.forall_operands_binary ⟨_, h1⟩ ⟨_, h2⟩
  | unknown _ h => exact List.forall_mem_singleton.mpr ⟨_, h⟩
  | refused _ _ _ h => exact List.forall_mem_singleton.mpr ⟨_, h⟩

/-- An expression whose operands have values has a value or fails. -/
lemma evaluates_or_fails (all : ∀ c ∈ e.operands, ∃ x, Evaluates t c x) :
    (∃ x, Evaluates t e x) ∨ ∃ fault, Fails t e fault := by
  cases e with
  | number span =>
    cases written : Numeral.read? (t.slice span) with
    | some x => exact .inl ⟨x, .number written⟩
    | none => exact .inr ⟨_, .number written⟩
  | unary op span operand =>
    obtain ⟨x, h⟩ := all operand List.mem_cons_self
    cases op with
    | negate => exact .inl ⟨_, .negate h⟩
    | keep => exact .inl ⟨_, .keep h⟩
  | binary op span left right =>
    obtain ⟨a, h1⟩ := all left List.mem_cons_self
    obtain ⟨b, h2⟩ := all right (List.mem_cons_of_mem _ List.mem_cons_self)
    cases op with
    | add => exact .inl ⟨_, .add h1 h2⟩
    | sub => exact .inl ⟨_, .sub h1 h2⟩
    | mul => exact .inl ⟨_, .mul h1 h2⟩
    | div =>
      cases zero : b == 0 with
      | false => exact .inl ⟨_, .div zero h1 h2⟩
      | true => exact .inr ⟨_, .div zero h1 h2⟩
  | call name span argument =>
    obtain ⟨x, h⟩ := all argument List.mem_cons_self
    cases found : Function.find? name with
    | none => exact .inr ⟨_, .unknown (Function.find?_eq_none.mp found) h⟩
    | some f =>
      obtain ⟨known, rfl⟩ := Function.mem_of_find? found
      cases guarded : f.guard with
      | none => exact .inl ⟨_, .call known (by simp [guarded]) h⟩
      | some g =>
        cases refuses : g.refuses x with
        | false => exact .inl ⟨_, .call known (by simp [guarded, refuses]) h⟩
        | true => exact .inr ⟨_, .refused known guarded refuses h⟩

/-- An expression fails exactly where all its operands have values and it has none. -/
lemma exists_fails_iff :
    (∃ fault, Fails t e fault) ↔
      (∀ c ∈ e.operands, ∃ x, Evaluates t c x) ∧ ¬ ∃ x, Evaluates t e x := by
  constructor
  · intro ⟨fault, fails⟩
    exact ⟨fails.operands, fun ⟨x, value⟩ => fails.not_evaluates value⟩
  · intro ⟨all, valueless⟩
    exact (evaluates_or_fails all).resolve_left valueless

namespace Collected

/-- Every finding is on an expression that fails for its fault. -/
lemma mem (h : Collected t es fs) : ∀ f ∈ fs, ∃ e ∈ es, Fails t e f.fault ∧ f.span = e.span := by
  induction h with
  | nil => exact List.forall_mem_nil _
  | passed _ _ ih =>
    intro f found
    obtain ⟨e, mem, fails⟩ := ih f found
    exact ⟨e, List.mem_cons_of_mem _ mem, fails⟩
  | @failing e _ _ _ fails _ ih =>
    intro f found
    cases found with
    | head => exact ⟨e, List.mem_cons_self, fails, rfl⟩
    | tail _ found =>
      obtain ⟨e, mem, fails⟩ := ih f found
      exact ⟨e, List.mem_cons_of_mem _ mem, fails⟩

/-- Findings on two lists of expressions one after the other are those on both together. -/
lemma append (h1 : Collected t es fs) (h2 : Collected t ds gs) :
    Collected t (es ++ ds) (fs ++ gs) := by
  induction h1 with
  | nil => exact h2
  | passed sound _ ih => exact .passed sound ih
  | failing fails _ ih => exact .failing fails ih

/-- An expression that does not fail adds no finding. -/
lemma concat_passed (h : Collected t es fs) (sound : ∀ fault, ¬ Fails t e fault) :
    Collected t (es ++ [e]) fs := by
  have more := h.append (.passed sound .nil)
  rwa [List.append_nil] at more

/-- An expression that fails adds its finding last. -/
lemma concat_failing (h : Collected t es fs) (fails : Fails t e fault) :
    Collected t (es ++ [e]) (fs ++ [⟨fault, e.span⟩]) :=
  h.append (.failing fails .nil)

end Collected

/-- What the evaluation of `e` after `found` comes to: the value of `e`, or findings on the nodes
that fail. -/
inductive Evaluated (t : Text) (e : Expr) (found : List Finding) :
    Option Float × List Finding → Prop where
  | value {x : Float} (value : Evaluates t e x) (sound : Collected t e.postorder []) :
    Evaluated t e found (some x, found)
  | faults {more : List Finding} (some : more ≠ []) (all : Collected t e.postorder more)
    (valueless : ∀ x, ¬ Evaluates t e x) :
    Evaluated t e found (none, found ++ more)

/-- Where its operands have values, an expression is settled by its own step. -/
lemma evaluated_of_values (all : ∀ c ∈ e.operands, ∃ x, Evaluates t c x)
    (sound : Collected t (e.operands.flatMap Expr.postorder) []) :
    Evaluated t e found (e.eval t found) := by
  cases evaluates_or_fails all with
  | inl value =>
    obtain ⟨x, value⟩ := value
    rw [value.eval]
    refine .value value ?_
    rw [e.postorder_eq]
    exact sound.concat_passed fun fault fails => fails.not_evaluates value
  | inr fails =>
    obtain ⟨fault, fails⟩ := fails
    rw [fails.eval]
    refine .faults (List.cons_ne_nil _ _) ?_ fun x => fails.not_evaluates
    rw [e.postorder_eq]
    exact sound.concat_failing fails

/-- The operands of what has a value have values. -/
lemma Evaluates.operands (h : Evaluates t e x) : ∀ c ∈ e.operands, ∃ y, Evaluates t c y := by
  cases h with
  | number => exact List.forall_mem_nil _
  | negate h => exact List.forall_mem_singleton.mpr ⟨_, h⟩
  | keep h => exact List.forall_mem_singleton.mpr ⟨_, h⟩
  | add h1 h2 => exact Expr.forall_operands_binary ⟨_, h1⟩ ⟨_, h2⟩
  | sub h1 h2 => exact Expr.forall_operands_binary ⟨_, h1⟩ ⟨_, h2⟩
  | mul h1 h2 => exact Expr.forall_operands_binary ⟨_, h1⟩ ⟨_, h2⟩
  | div _ h1 h2 => exact Expr.forall_operands_binary ⟨_, h1⟩ ⟨_, h2⟩
  | call _ _ h => exact List.forall_mem_singleton.mpr ⟨_, h⟩

/-- Around an operand without a value an expression has none either, and it does not fail. -/
lemma evaluated_of_faults (mem : c ∈ e.operands) (valueless : ∀ x, ¬ Evaluates t c x)
    (some : fs ≠ []) (all : Collected t (e.operands.flatMap Expr.postorder) fs) :
    Evaluated t e found (none, found ++ fs) := by
  refine .faults some ?_ fun x value => ?_
  · rw [e.postorder_eq]
    apply all.concat_passed
    intro fault fails
    obtain ⟨x, value⟩ := fails.operands c mem
    exact valueless x value
  · obtain ⟨y, value⟩ := value.operands c mem
    exact valueless y value

/-- An expression with one operand is settled by its own step or by what is found in the operand. -/
lemma evaluated_of_operand (only : e.operands = [c]) (h : Evaluated t c found (c.eval t found))
    (valueless : ∀ fs, c.eval t found = (none, fs) → e.eval t found = (none, fs)) :
    Evaluated t e found (e.eval t found) := by
  have nodes : e.operands.flatMap Expr.postorder = c.postorder := by
    rw [only, List.flatMap_singleton]
  generalize eq : c.eval t found = r at h
  cases h with
  | value value sound =>
    apply evaluated_of_values
    · rw [only]
      exact List.forall_mem_singleton.mpr ⟨_, value⟩
    · rwa [nodes]
  | faults some all none =>
    rw [valueless _ eq]
    apply evaluated_of_faults _ none some
    · rwa [nodes]
    · rw [only]
      exact List.mem_cons_self

/-- Evaluation comes to the value of an expression or to all its failing nodes. -/
theorem Expr.evaluated (e : Expr) (t : Text) (found : List Finding) :
    Evaluated t e found (e.eval t found) := by
  induction e generalizing found with
  | number span => exact evaluated_of_values (List.forall_mem_nil _) .nil
  | unary op span operand ih =>
    exact evaluated_of_operand rfl (ih found) fun _ => Expr.eval_unary_none
  | call name span argument ih =>
    exact evaluated_of_operand rfl (ih found) fun _ => Expr.eval_call_none
  | binary op span left right ih1 ih2 =>
    have parts : (Expr.binary op span left right).operands.flatMap Expr.postorder =
        left.postorder ++ right.postorder := by
      simp [Expr.operands]
    have h1 := ih1 found
    generalize eq1 : left.eval t found = r1 at h1
    cases h1 with
    | value value1 sound1 =>
      have h2 := ih2 found
      generalize eq2 : right.eval t found = r2 at h2
      cases h2 with
      | value value2 sound2 =>
        apply evaluated_of_values
        · exact Expr.forall_operands_binary ⟨_, value1⟩ ⟨_, value2⟩
        · rw [parts]
          exact sound1.append sound2
      | faults some all2 valueless =>
        rw [Expr.eval_binary_right eq1 eq2]
        apply evaluated_of_faults (List.mem_cons_of_mem _ List.mem_cons_self) valueless some
        rw [parts]
        exact sound1.append all2
    | @faults before some all1 valueless =>
      have h2 := ih2 (found ++ before)
      rw [Expr.eval_binary_left eq1]
      generalize right.eval t (found ++ before) = r2 at h2
      cases h2 with
      | value value2 sound2 =>
        apply evaluated_of_faults List.mem_cons_self valueless some
        have all := all1.append sound2
        rwa [List.append_nil, ← parts] at all
      | faults _ all2 _ =>
        rw [List.append_assoc]
        apply evaluated_of_faults List.mem_cons_self valueless
        · exact List.append_ne_nil_of_left_ne_nil some _
        · rw [parts]
          exact all1.append all2

/-- Evaluation finds the failing nodes of an expression. -/
lemma Expr.collected (e : Expr) (t : Text) : Collected t e.postorder (e.eval t []).2 := by
  have h := e.evaluated t []
  generalize e.eval t [] = r at h
  cases h with
  | value _ sound => exact sound
  | faults _ all _ => exact all

/-- Evaluation leaves what was found before and adds one finding for each failing node, in the order
in which the nodes are come to, and each at the node's own token.  It comes to no value exactly
where it adds something, and to a value exactly where that is the value of the expression.  The
nodes that fail are those without a value whose operands all have one. -/
theorem eval_collects (e : Expr) (t : Text) (found : List Finding) :
    (∃ more, Collected t e.postorder more ∧ (e.eval t found).2 = found ++ more ∧
      (e.eval t found).2.map (·.diagnostic t) =
        found.map (·.diagnostic t) ++ more.map (fun f => ⟨t.rangeOf f.span, f.fault.message⟩) ∧
      ((e.eval t found).1 = none ↔ more ≠ [])) ∧
    (∀ x, (e.eval t found).1 = some x ↔ Evaluates t e x) ∧
    ∀ n, (∃ fault, Fails t n fault) ↔
      (∀ c ∈ n.operands, ∃ x, Evaluates t c x) ∧ ¬ ∃ x, Evaluates t n x := by
  have same (x : Float) (value : Evaluates t e x) : (e.eval t found).1 = some x := by
    rw [value.eval]
  have h := e.evaluated t found
  generalize e.eval t found = r at h same
  refine ⟨?_, fun x => ⟨fun eq => ?_, same x⟩, fun n => exists_fails_iff⟩
  · cases h with
    | value value sound => exact ⟨[], sound, by simp, by simp, by simp⟩
    | @faults more some all _ =>
      exact ⟨more, all, rfl, List.map_append, iff_of_true rfl some⟩
  · cases h with
    | value value sound =>
      cases eq
      exact value
    | faults => cases eq

end Reckoner
