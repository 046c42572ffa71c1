import Reckoner.Proofs.Grammar.Recognition

/-!
# Reading a damaged expression

What is read of an expression with one token too many.  An operator without an operand after it is
no link of any chain, so it and what follows are left unread (`parse_dangling`), as is a closing
parenthesis without partner (`parse_orphan`).  An opening parenthesis without partner leaves
nothing to be recognized (`parse_unclosed`).
-/

namespace Reckoner

namespace Grammar

open Reader

variable {k : Category} {l : Chain} {r : Reader} {levels : Nat} {op : BinaryOp}
variable {c d e : Cursor} {w : Blanks}

/-- No operand is read where only blank characters come. -/
lemma operand_refuses (blank : ∀ ch ∈ c.next?, isBlank ch = true) :
    (operand (levels + 1)).Refuses c := by
  have other {ch : Char} (visible : isBlank ch = false) : c.next? ≠ some ch := by
    intro next
    cases visible.symm.trans (blank ch next)
  have letter : ∀ ch ∈ c.next?, isLetter ch = false := by
    intro ch next
    rw [Bool.eq_false_iff]
    exact fun letter => other (not_isBlank_of_isLetter letter) next
  have numeric : ∀ ch ∈ c.next?, isNumeric ch = false := by
    intro ch next
    rw [Bool.eq_false_iff]
    exact fun numeric => other (not_isBlank_of_isNumeric numeric) next
  refine nested_refuses (node_refuses (labelled_refuses ?_))
  refine orElse_refuses (call_refuses letter) (orElse_refuses ?_ (orElse_refuses ?_ ?_))
  · exact signed_refuses (other (by decide)) (other (by decide))
  · exact number_refuses numeric
  · exact node_refuses (labelled_refuses ⟨[], symbol_refuses (other (by decide))⟩)

/-- There is no operand where only blanks come next. -/
lemma part_refuses (blank : ∀ ch ∈ c.next?, isBlank ch = true) :
    (l.part (levels + 1)).Refuses c := by
  cases l with
  | sum => exact chain_refuses (operand_refuses blank)
  | product => exact operand_refuses blank

/-- An operator of one chain is not read as an operator of the other. -/
lemma operator_refuses_other (next : c.next? = some op.symbol) (other : op.chain ≠ l) :
    l.operator.Refuses c := by
  have refuses (rule : Rule) {ch : Char} (different : ch ≠ op.symbol) :
      (symbol rule ch).Refuses c := by
    refine ⟨[], symbol_refuses ?_⟩
    rw [next]
    exact fun same => different (Option.some.inj same).symm
  cases l with
  | sum =>
    cases op with
    | add => exact absurd rfl other
    | sub => exact absurd rfl other
    | mul => exact orElse_refuses (refuses _ (by decide)) (refuses _ (by decide))
    | div => exact orElse_refuses (refuses _ (by decide)) (refuses _ (by decide))
  | product =>
    cases op with
    | add => exact orElse_refuses (refuses _ (by decide)) (refuses _ (by decide))
    | sub => exact orElse_refuses (refuses _ (by decide)) (refuses _ (by decide))
    | mul => exact absurd rfl other
    | div => exact absurd rfl other

/-- An operator without an operand after it is no link. -/
lemma link_refuses (pass : c.Passes (w.text ++ [op.symbol]) d)
    (blank : ∀ ch ∈ d.next?, isBlank ch = true) : (l.link (levels + 1)).Refuses c := by
  by_cases joins : op.chain = l
  · exact node_refuses_second (operator_read op joins pass) (part_refuses blank)
  · have next : c.next? = some op.symbol := pass.next? (by cases op <;> rfl)
    exact node_refuses (operator_refuses_other next joins)

/-- Nothing is read any further where an operator comes without an operand after it. -/
lemma halts_of_dangling (pass : c.Passes (w.text ++ [op.symbol]) d)
    (blank : ∀ ch ∈ d.next?, isBlank ch = true) : Halts k (levels + 1) c where
  numeric := head_of_passes pass (fun _ => not_isNumeric_of_isSpace) (by cases op <;> rfl)
  links _ _ := link_refuses pass blank

/-! What is missing inside an expression is reported inside the constructs around it. -/

/-- Parentheses are refused where the closing one is missing. -/
lemma parenthesized_error {n : Node} (h1 : c.Passes (w.text ++ ['(']) d)
    (h2 : r.read d = .ok (n, e)) (missing : e.next? ≠ some ')') :
    (parenthesized r).read c = .error ⟨false, [(e.offset, .closeParen)]⟩ := by
  have opening : openParen.read c = _ := labelled_ok.mpr (symbol_read h1 rfl)
  have closing : closeParen.read e = _ :=
    labelled_error.mpr ⟨_, symbol_refuses missing, rfl⟩
  exact node_three_error.mpr (.inr ⟨_, d, opening, .inr ⟨n, e, h2, closing⟩⟩)

/-- A parenthesis before an expression that the text ends with is refused for want of the one that
closes it. -/
lemma parenthesized_unclosed {x : Derivation (.chain .sum)} {v : Blanks} (nx : x.nesting < levels)
    (h : c.Passes (w.text ++ ['(']) d) (rest : d.rest = x.text ++ v.text) :
    ∃ o, (parenthesized (expression (operand levels))).read c =
      .error ⟨false, [(o, .closeParen)]⟩ := by
  let e : Cursor := ⟨v.text, d.offset + x.text.size, d.depth⟩
  have pass : d.Passes x.text e := ⟨rest, rfl, rfl⟩
  have inside : (expression (operand levels)).read d = .ok (x.tree d.offset, e) :=
    labelled_ok.mpr (derivation_complete x nx pass (ends_of_blanks (w := v) rfl))
  have missing : e.next? ≠ some ')' := by
    rw [next?_of_blanks (w := v) rfl]
    exact nofun
  exact ⟨e.offset, parenthesized_error h inside missing⟩

/-- An operand is refused where its alternatives are. -/
lemma operand_error {refusal : Refusal}
    (h : (alternatives levels).read { c with depth := c.depth + 1 } = .error refusal) :
    (operand (levels + 1)).read c = .error (refusal.within c.offset .operand) :=
  nested_error.mpr (node_one_error.mpr (labelled_error.mpr ⟨refusal, h, rfl⟩))

/-- An expression is refused where its first operand is. -/
lemma expression_error {refusal : Refusal} (h : r.read c = .error refusal) :
    (expression r).read c = .error (refusal.within c.offset .expression) :=
  labelled_error.mpr ⟨refusal, chain_error.mpr (.inl (chain_error.mpr (.inl h))), rfl⟩

end Grammar

open Grammar

variable {t : Text} {x : Derivation (.chain .sum)} {w : Blanks}

/-- An operator at the end is left unread, with the blank characters after it. -/
lemma parse_dangling {op : BinaryOp} {v : Run isBlank} (nx : x.nesting < maxDepth)
    (eq : t = x.text ++ w.text ++ op.symbol :: v.text) :
    parse t = ⟨⟨true, (x.text ++ w.text).size, t.size, [], none⟩, some (x.tree 0)⟩ := by
  let c : Cursor := ⟨w.text ++ op.symbol :: v.text, x.text.size, 0⟩
  let d : Cursor := ⟨v.text, x.text.size + Text.size (w.text ++ [op.symbol]), 0⟩
  have pass : c.Passes (w.text ++ [op.symbol]) d := ⟨by simp [c, d], rfl, rfl⟩
  have blank : ∀ ch ∈ d.next?, isBlank ch = true := fun ch next =>
    v.all ch (List.mem_of_mem_drop (List.mem_of_mem_head? next))
  rw [List.append_assoc] at eq
  rw [Text.size_append]
  refine parse_front nx eq (halts_of_dangling pass blank) ?_
  rintro _ ⟨⟩
  cases op <;> rfl

/-- A closing parenthesis at the end is left unread. -/
lemma parse_orphan (nx : x.nesting < maxDepth) (eq : t = x.text ++ w.text ++ [')']) :
    parse t = ⟨⟨true, (x.text ++ w.text).size, t.size, [], none⟩, some (x.tree 0)⟩ := by
  let c : Cursor := ⟨w.text ++ [')'], x.text.size, 0⟩
  have pass : c.Passes (w.text ++ [')']) ⟨[], x.text.size + Text.size (w.text ++ [')']), 0⟩ :=
    ⟨(List.append_nil _).symm, rfl, rfl⟩
  rw [List.append_assoc] at eq
  rw [Text.size_append]
  refine parse_front nx eq (ends_of_closing pass).halts ?_
  rintro _ ⟨⟩
  rfl

/-- A parenthesis that opens before everything else and is not closed is refused at the end, where
it should be closed. -/
lemma parse_unclosed (nx : x.nesting + 1 < maxDepth) (eq : t = '(' :: (x.text ++ w.text)) :
    parse t = ⟨⟨false, 0, t.size, ["')'", "operand", "expression"], none⟩, none⟩ := by
  let c : Cursor := ⟨t, 0, 1⟩
  let d : Cursor := ⟨x.text ++ w.text, 1, 1⟩
  have opening : c.Passes ((Run.nil : Blanks).text ++ ['(']) d := ⟨eq, rfl, rfl⟩
  obtain ⟨o, unclosed⟩ := parenthesized_unclosed (Nat.lt_sub_of_add_lt nx) opening rfl
  have only : (alternatives (maxDepth - 1)).read c = .error ⟨false, [(o, .closeParen)]⟩ := by
    rw [alternatives_paren (opening.next? rfl)]
    exact unclosed
  have refused : (expressionAt 0).read (.start t 0) = .error _ :=
    expression_error (operand_error only)
  rw [parse, refused]
  rfl

end Reckoner
