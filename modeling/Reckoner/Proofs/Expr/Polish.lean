import Reckoner.Proofs.Expr.Evaluation
import Reckoner.Proofs.Expr.Findings
import Reckoner.Proofs.Tree.Formed

/-!
# What prefix notation tells

Expressions written alike in prefix notation are alike but for their places (`polish_append_inj`),
if their numbers and names are made of the characters that the grammar gives them: these show where
a lexeme ends, and what follows the first operand shows how many there are.  Alike expressions are
evaluated alike, so the notation determines all that a text comes to (`analyze_polish`).
-/

namespace Reckoner

open Grammar

/-- The numbers of an expression over a text, and its names, are made as the grammar makes them. -/
inductive Legible (t : Text) : Expr → Prop where
  | number {span} (lexeme : Lexeme isNumeric) (written : t.slice span = lexeme.text) :
    Legible t (.number span)
  | unary {op span e} :
    Legible t e →
    Legible t (.unary op span e)
  | binary {op span e1 e2} :
    Legible t e1 →
    Legible t e2 →
    Legible t (.binary op span e1 e2)
  | call {span e} (name : Lexeme isLetter) :
    Legible t e →
    Legible t (.call (String.ofList name.text) span e)

/-- `e` over the text `t` and `f` over the text `u` have the same shape, operators, names and
lexemes; their tokens may stand at different places. -/
inductive Alike (t u : Text) : Expr → Expr → Prop where
  | number {a b} (same : t.slice a = u.slice b) :
    Alike t u (.number a) (.number b)
  | unary {op a b e f} :
    Alike t u e f →
    Alike t u (.unary op a e) (.unary op b f)
  | binary {op a b e1 e2 f1 f2} :
    Alike t u e1 f1 →
    Alike t u e2 f2 →
    Alike t u (.binary op a e1 e2) (.binary op b f1 f2)
  | call {name a b e f} :
    Alike t u e f →
    Alike t u (.call name a e) (.call name b f)

variable {p : Char → Bool} {a b : Lexeme p} {t u r s : Text} {e f : Expr} {c : Char}

namespace Lexeme

/-- A lexeme starts with a character of its class. -/
lemma class_of_append (eq : a.text ++ r = c :: s) : p c = true := by
  obtain ⟨⟨text, all⟩, nonempty⟩ := a
  obtain ⟨first, rest, rfl⟩ := List.exists_cons_of_ne_nil nonempty
  rw [← (List.cons.inj eq).1]
  exact all first List.mem_cons_self

/-- Lexemes end where their class does. -/
lemma append_inj (hr : ∀ c ∈ r.head?, p c = false) (hs : ∀ c ∈ s.head?, p c = false)
    (eq : a.text ++ r = b.text ++ s) : a.text = b.text ∧ r = s := by
  obtain ⟨same, rest⟩ := Run.append_inj hr hs eq
  exact ⟨congrArg Run.text same, rest⟩

end Lexeme

/-- Signs have different symbols. -/
lemma UnaryOp.symbol_inj {a b : UnaryOp} (eq : a.symbol = b.symbol) : a = b := by
  revert eq
  cases a <;> cases b <;> decide

/-- Operators have different symbols. -/
lemma BinaryOp.symbol_inj {a b : BinaryOp} (eq : a.symbol = b.symbol) : a = b := by
  revert eq
  cases a <;> cases b <;> decide

/-- No sign is a letter. -/
lemma UnaryOp.not_isLetter_symbol (op : UnaryOp) : isLetter op.symbol = false := by
  cases op <;> rfl

/-- No operator is a letter. -/
lemma BinaryOp.not_isLetter_symbol (op : BinaryOp) : isLetter op.symbol = false := by
  cases op <;> rfl

/-- A class ends before a character of another one. -/
lemma class_ends (other : p c = false) : ∀ a ∈ (c :: r).head?, p a = false := by
  rintro _ ⟨⟩
  exact other

namespace Expr

variable {sign : UnaryOp} {op : BinaryOp} {span : Span} {e1 e2 : Expr} {name : Text}

/-! What is written before and after the operands of an expression, with `r` after the whole. -/

/-- A signed operand is written with its sign in front. -/
lemma polish_unary :
    (unary sign span e).polish t ++ r = '(' :: sign.symbol :: ' ' :: (e.polish t ++ ')' :: r) := by
  simp [polish]

/-- An operation is written with its operator in front. -/
lemma polish_binary :
    (binary op span e1 e2).polish t ++ r =
      '(' :: op.symbol :: ' ' :: (e1.polish t ++ ' ' :: (e2.polish t ++ ')' :: r)) := by
  simp [polish]

/-- A call is written with its name in front. -/
lemma polish_call :
    (call (String.ofList name) span e).polish t ++ r =
      '(' :: (name ++ ' ' :: (e.polish t ++ ')' :: r)) := by
  simp [polish]

end Expr

/-- The notation of a legible expression ends where the expression does, and tells it up to the
places of its tokens. -/
theorem polish_append_inj (he : Legible t e) (hf : Legible u f)
    (hr : ∀ c ∈ r.head?, isNumeric c = false) (hs : ∀ c ∈ s.head?, isNumeric c = false)
    (eq : e.polish t ++ r = f.polish u ++ s) : Alike t u e f ∧ r = s := by
  induction he generalizing f r s with
  | number a written =>
    rw [Expr.polish, written] at eq
    cases hf with
    | number b written' =>
      rw [Expr.polish, written'] at eq
      obtain ⟨same, rest⟩ := Lexeme.append_inj hr hs eq
      exact ⟨.number (by rw [written, written', same]), rest⟩
    | unary => cases a.class_of_append eq
    | binary => cases a.class_of_append eq
    | call => cases a.class_of_append eq
  | unary h ih =>
    rw [Expr.polish_unary] at eq
    cases hf with
    | number b written =>
      rw [Expr.polish, written] at eq
      cases b.class_of_append eq.symm
    | unary h' =>
      rw [Expr.polish_unary] at eq
      simp only [List.cons.injEq, true_and] at eq
      obtain ⟨symbol, eq⟩ := eq
      obtain ⟨alike, rest⟩ := ih h' (class_ends rfl) (class_ends rfl) eq
      cases UnaryOp.symbol_inj symbol
      exact ⟨.unary alike, List.tail_eq_of_cons_eq rest⟩
    | binary h1 h2 =>
      -- After its operand a sign has no other one.
      rw [Expr.polish_binary] at eq
      simp only [List.cons.injEq, true_and] at eq
      cases (ih h1 (class_ends rfl) (class_ends rfl) eq.2).2
    | call name h' =>
      rw [Expr.polish_call] at eq
      have letter := name.class_of_append (List.tail_eq_of_cons_eq eq).symm
      cases (UnaryOp.not_isLetter_symbol _).symm.trans letter
  | binary h1 h2 ih1 ih2 =>
    rw [Expr.polish_binary] at eq
    cases hf with
    | number b written =>
      rw [Expr.polish, written] at eq
      cases b.class_of_append eq.symm
    | unary h' =>
      rw [Expr.polish_unary] at eq
      simp only [List.cons.injEq, true_and] at eq
      cases (ih1 h' (class_ends rfl) (class_ends rfl) eq.2).2
    | binary h1' h2' =>
      rw [Expr.polish_binary] at eq
      simp only [List.cons.injEq, true_and] at eq
      obtain ⟨symbol, eq⟩ := eq
      obtain ⟨alike1, rest⟩ := ih1 h1' (class_ends rfl) (class_ends rfl) eq
      obtain ⟨alike2, rest⟩ :=
        ih2 h2' (class_ends rfl) (class_ends rfl) (List.tail_eq_of_cons_eq rest)
      cases BinaryOp.symbol_inj symbol
      exact ⟨.binary alike1 alike2, List.tail_eq_of_cons_eq rest⟩
    | call name h' =>
      rw [Expr.polish_call] at eq
      have letter := name.class_of_append (List.tail_eq_of_cons_eq eq).symm
      cases (BinaryOp.not_isLetter_symbol _).symm.trans letter
  | call name h ih =>
    rw [Expr.polish_call] at eq
    cases hf with
    | number b written =>
      rw [Expr.polish, written] at eq
      cases b.class_of_append eq.symm
    | unary h' =>
      rw [Expr.polish_unary] at eq
      have letter := name.class_of_append (List.tail_eq_of_cons_eq eq)
      cases (UnaryOp.not_isLetter_symbol _).symm.trans letter
    | binary h1 h2 =>
      rw [Expr.polish_binary] at eq
      have letter := name.class_of_append (List.tail_eq_of_cons_eq eq)
      cases (BinaryOp.not_isLetter_symbol _).symm.trans letter
    | call name' h' =>
      rw [Expr.polish_call] at eq
      obtain ⟨same, eq⟩ := Lexeme.append_inj (class_ends rfl) (class_ends rfl)
        (List.tail_eq_of_cons_eq eq)
      obtain ⟨alike, rest⟩ :=
        ih h' (class_ends rfl) (class_ends rfl) (List.tail_eq_of_cons_eq eq)
      rw [same]
      exact ⟨.call alike, List.tail_eq_of_cons_eq rest⟩

/-- Two evaluations come to the same value and find the same faults, at whatever places. -/
inductive SameFaults : Option Float × List Finding → Option Float × List Finding → Prop where
  | intro {value fs gs} (faults : fs.map (·.fault) = gs.map (·.fault)) :
    SameFaults (value, fs) (value, gs)

/-- The faults are the same on both sides. -/
lemma SameFaults.faults {r q : Option Float × List Finding} (h : SameFaults r q) :
    r.2.map (·.fault) = q.2.map (·.fault) := by
  cases h with
  | intro faults => exact faults

variable {found more : List Finding} {a b : Span}

/-- The same result settles the same after the same faults. -/
lemma settle_same (result : Except Fault Float)
    (same : found.map (·.fault) = more.map (·.fault)) :
    SameFaults (settle a found result) (settle b more result) := by
  cases result with
  | ok x => exact .intro same
  | error fault => exact .intro (by simp [same])

/-- Either both evaluations come to one value, or neither has one. -/
lemma SameFaults.inv {r q : Option Float × List Finding} (h : SameFaults r q) :
    (∃ x fs gs, r = (some x, fs) ∧ q = (some x, gs) ∧ fs.map (·.fault) = gs.map (·.fault)) ∨
      ∃ fs gs, r = (none, fs) ∧ q = (none, gs) ∧ fs.map (·.fault) = gs.map (·.fault) := by
  cases h with
  | @intro value fs gs faults =>
    cases value with
    | some x => exact .inl ⟨x, fs, gs, rfl, rfl, faults⟩
    | none => exact .inr ⟨fs, gs, rfl, rfl, faults⟩

/-- The places of tokens do not matter to evaluation. -/
lemma Alike.eval_same (h : Alike t u e f) (same : found.map (·.fault) = more.map (·.fault)) :
    SameFaults (e.eval t found) (f.eval u more) := by
  induction h generalizing found more with
  | number written =>
    rw [Expr.eval, written]
    exact settle_same _ same
  | unary _ ih =>
    obtain ⟨x, fs, gs, eq1, eq2, faults⟩ | ⟨fs, gs, eq1, eq2, faults⟩ := (ih same).inv
    · rw [Expr.eval_unary eq1, Expr.eval_unary eq2]
      exact .intro faults
    · rw [Expr.eval_unary_none eq1, Expr.eval_unary_none eq2]
      exact .intro faults
  | call _ ih =>
    obtain ⟨x, fs, gs, eq1, eq2, faults⟩ | ⟨fs, gs, eq1, eq2, faults⟩ := (ih same).inv
    · rw [Expr.eval_call eq1, Expr.eval_call eq2]
      exact settle_same _ faults
    · rw [Expr.eval_call_none eq1, Expr.eval_call_none eq2]
      exact .intro faults
  | binary _ _ ih1 ih2 =>
    -- the right side is evaluated after the left one, also when that has no value
    obtain ⟨x, fs, gs, eq1, eq2, faults⟩ | ⟨fs, gs, eq1, eq2, faults⟩ := (ih1 same).inv
    · obtain ⟨y, fs, gs, eq3, eq4, faults⟩ | ⟨fs, gs, eq3, eq4, faults⟩ := (ih2 faults).inv
      · rw [Expr.eval_binary eq1 eq3, Expr.eval_binary eq2 eq4]
        exact settle_same _ faults
      · rw [Expr.eval_binary_right eq1 eq3, Expr.eval_binary_right eq2 eq4]
        exact .intro faults
    · rw [Expr.eval_binary_left eq1, Expr.eval_binary_left eq2]
      exact .intro (ih2 faults).faults

/-- An expression is legible if its tokens are spelled as their rules ask. -/
lemma legible_of_spells (spells : ∀ n ∈ e.tokens t, n.rule.Spells n.text) : Legible t e := by
  induction e with
  | number span =>
    obtain ⟨nonempty, numeric⟩ := List.forall_mem_singleton.mp spells
    exact .number ⟨⟨t.slice span, numeric⟩, nonempty⟩ rfl
  | unary op span operand ih => exact .unary (ih (List.forall_mem_cons.mp spells).2)
  | binary op span left right ih1 ih2 =>
    obtain ⟨h1, h2⟩ := List.forall_mem_append.mp spells
    exact .binary (ih1 h1) (ih2 (List.forall_mem_cons.mp h2).2)
  | call name span argument ih =>
    obtain ⟨⟨nonempty, letters⟩, h⟩ := List.forall_mem_cons.mp spells
    have named : name = String.ofList name.toList := String.ofList_toList.symm
    rw [named]
    exact .call ⟨⟨name.toList, letters⟩, nonempty⟩ (ih h)

/-- A text with an expression is analyzed by evaluating it, and the expression is legible. -/
lemma analyze_of_ast (h : (analyze t).ast = some e) :
    Legible t e ∧ analyze t = ⟨(e.eval t []).2.map (·.diagnostic t), some e,
      if (e.eval t []).2.isEmpty then (e.eval t []).1 else none⟩ := by
  cases complete : (parse t).issue.isComplete with
  | false =>
    rw [analyze_incomplete complete] at h
    cases h
  | true =>
    obtain ⟨x, w, nx, eq⟩ := derived_of_isComplete complete
    obtain ⟨_, _, analyzed⟩ := analyze_derived nx eq default
    rw [analyzed] at h
    cases h
    refine ⟨legible_of_spells fun n mem => ?_, analyzed⟩
    rw [Derivation.tokens_text eq] at mem
    obtain ⟨node, token⟩ := List.mem_filter.mp (List.mem_of_mem_filter mem)
    exact ((x.faithful_tree (u := []) rfl eq n node).2.token token).2

/-- Texts whose expressions are written alike in prefix notation have expressions that differ in the
places of tokens only; the texts have the same value or none, and what is found in their evaluation
reads the same. -/
theorem analyze_polish (ht : (analyze t).ast = some e) (hu : (analyze u).ast = some f)
    (same : e.polish t = f.polish u) :
    Alike t u e f ∧ (analyze t).value = (analyze u).value ∧
      (analyze t).errors.map (·.message) = (analyze u).errors.map (·.message) := by
  obtain ⟨he, analyzed1⟩ := analyze_of_ast ht
  obtain ⟨hf, analyzed2⟩ := analyze_of_ast hu
  have nothing : e.polish t ++ [] = f.polish u ++ [] := by rw [same]
  obtain ⟨alike, _⟩ := polish_append_inj he hf (by simp) (by simp) nothing
  refine ⟨alike, ?_⟩
  rw [analyzed1, analyzed2]
  have h : SameFaults (e.eval t []) (f.eval u []) := alike.eval_same rfl
  generalize e.eval t [] = r at h
  generalize f.eval u [] = q at h
  cases h with
  | @intro value fs gs faults =>
    have messages := congrArg (List.map Fault.message) faults
    simp only [List.map_map] at messages
    have empty : fs.isEmpty = gs.isEmpty := by
      rw [← List.isEmpty_map, faults, List.isEmpty_map]
    dsimp only
    rw [empty, List.map_map, List.map_map]
    exact ⟨rfl, messages⟩

/-- `-2/0` and ` (-2) / 0` are both written `(/ (- 2) 0)`, with their tokens at different places. -/
theorem analyze_polish_div :
    ∃ e f, (analyze ['-', '2', '/', '0']).ast = some e ∧
      (analyze [' ', '(', '-', '2', ')', ' ', '/', ' ', '0']).ast = some f ∧ e ≠ f ∧
      e.polish ['-', '2', '/', '0'] = ['(', '/', ' ', '(', '-', ' ', '2', ')', ' ', '0', ')'] ∧
      Alike ['-', '2', '/', '0'] [' ', '(', '-', '2', ')', ' ', '/', ' ', '0'] e f ∧
      (analyze ['-', '2', '/', '0']).errors.map (·.message) =
        (analyze [' ', '(', '-', '2', ')', ' ', '/', ' ', '0']).errors.map (·.message) := by
  have h1 : (analyze ['-', '2', '/', '0']).ast =
      some (.binary .div ⟨2, 3⟩ (.unary .negate ⟨0, 1⟩ (.number ⟨1, 2⟩)) (.number ⟨3, 4⟩)) := by
    decide +kernel
  have h2 : (analyze [' ', '(', '-', '2', ')', ' ', '/', ' ', '0']).ast =
      some (.binary .div ⟨6, 7⟩ (.unary .negate ⟨2, 3⟩ (.number ⟨3, 4⟩)) (.number ⟨8, 9⟩)) := by
    decide +kernel
  obtain ⟨alike, _, messages⟩ := analyze_polish h1 h2 rfl
  exact ⟨_, _, h1, h2, by decide, rfl, alike, messages⟩

end Reckoner
