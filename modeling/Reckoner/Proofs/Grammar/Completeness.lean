import Reckoner.Proofs.Grammar.Soundness
import Reckoner.Proofs.Text.Classes

/-!
# What is derived is read

A derivation nested less deep than the levels that may be opened is read back: its reader passes
its text, builds its tree, and stops where the text stops (`derivation_reads`).  The first
character of a text that is no space tells which alternative reads it.  What follows the text must
not be read with it (`Halts`); mostly one character says that it is not (`Ends`,
`derivation_complete`).
-/

namespace Reckoner

/-- An operator of a chain, or of the chains inside it. -/
def Chain.joins : Chain → Char → Bool
  | product, c => c = '*' || c = '/'
  | sum, c => c = '+' || c = '-' || c = '*' || c = '/'

/-- The reader of what the operators of a chain join. -/
def Chain.part : Chain → (levels : Nat) → Reader
  | product, levels => Grammar.operand levels
  | sum, levels => .chain .term (Grammar.operand levels) Grammar.timesOrOver

/-- The reader of an operator of a chain and the part after it. -/
def Chain.link (l : Chain) (levels : Nat) : Reader := .node .link l.operator [l.part levels]

/-- The chains that a chain may end with: it and those inside it. -/
def Chain.inner : Chain → List Chain
  | product => [product]
  | sum => [sum, product]

namespace Grammar

open Reader

variable {k : Category} {l : Chain} {r : Reader} {levels : Nat}
variable {c d e : Cursor} {n : Node} {w : Blanks}

/-- The characters that would add to a complete text. -/
def Category.goesOn : Category → Char → Bool
  | operand, _ => false
  | group, _ => false
  | chain l, c => l.joins c
  | links l, c => l.joins c

/-- A text of category `k` ends here: neither its last number nor its chains go on. -/
structure Ends (k : Category) (d : Cursor) : Prop where
  numeric : ∀ ch ∈ d.rest.head?, isNumeric ch = false
  chains : ∀ ch ∈ d.next?, k.goesOn ch = false

/-- The chains that may still go on after a text. -/
def Category.chains : Category → List Chain
  | operand => []
  | group => []
  | chain l => l.inner
  | links l => l.inner

/-- A text of category `k` is not read any further here: not as a number, nor by another link. -/
structure Halts (k : Category) (levels : Nat) (d : Cursor) : Prop where
  numeric : ∀ ch ∈ d.rest.head?, isNumeric ch = false
  links : ∀ l ∈ k.chains, (l.link levels).Refuses d

/-- What halts a chain halts its parts. -/
lemma Halts.part (h : Halts (.chain l) levels d) : Halts l.operand levels d where
  numeric := h.numeric
  links m mem := by
    cases l with
    | sum => exact h.links m (List.mem_cons_of_mem _ mem)
    | product => cases mem

/-- A class that holds neither spaces nor the next token's first character does not come next. -/
lemma head_of_passes {p : Char → Bool} {ch : Char} {s : Text}
    (pass : c.Passes (w.text ++ ch :: s) d) (spaces : ∀ a, isSpace a = true → p a = false)
    (first : p ch = false) : ∀ a ∈ c.rest.head?, p a = false := by
  intro a head
  rw [pass.rest] at head
  cases blanks : w.text with
  | nil =>
    rw [blanks] at head
    cases head
    exact first
  | cons b bs =>
    rw [blanks] at head
    cases head
    exact spaces a (w.all a (by simp [blanks]))

/-- A chain's part ends where an operator of the chain comes next. -/
lemma ends_of_operator {op : BinaryOp} {s : Text} (joins : op.chain = l)
    (pass : c.Passes (w.text ++ op.symbol :: s) d) : Ends l.operand c := by
  subst joins
  refine ⟨head_of_passes pass (fun _ => not_isNumeric_of_isSpace) ?_, ?_⟩
  · cases op <;> rfl
  · intro ch next
    rw [pass.next? (by cases op <;> rfl)] at next
    cases next
    cases op <;> rfl

/-- Everything ends where a closing parenthesis comes next. -/
lemma ends_of_closing (pass : c.Passes (w.text ++ [')']) d) : Ends (.chain .sum) c := by
  refine ⟨head_of_passes pass (fun _ => not_isNumeric_of_isSpace) rfl, ?_⟩
  rw [pass.next? rfl]
  rintro _ ⟨⟩
  rfl

/-- Where only spaces come, no token comes next. -/
lemma next?_of_blanks (rest : c.rest = w.text) : c.next? = none := by
  have pass : c.Passes w.text ⟨[], c.offset + w.text.size, c.depth⟩ :=
    ⟨by rw [rest, List.append_nil], rfl, rfl⟩
  have skip : c.skipSpaces = _ := pass.skipSpaces (by rintro _ ⟨⟩)
  rw [Cursor.next?, skip]
  rfl

/-- Everything ends where only spaces come. -/
lemma ends_of_blanks (rest : c.rest = w.text) : Ends k c where
  numeric ch head := by
    rw [rest] at head
    exact not_isNumeric_of_isSpace (w.all ch (List.mem_of_mem_head? head))
  chains := by
    rw [next?_of_blanks rest]
    exact nofun

/-- An operator is read where it comes next. -/
lemma operator_read (op : BinaryOp) (joins : op.chain = l)
    (pass : c.Passes (w.text ++ [op.symbol]) d) :
    l.operator.read c = .ok (.leaf op.rule (c.offset + w.text.size) [op.symbol], d) := by
  have next : c.next? = some op.symbol := pass.next? (by cases op <;> rfl)
  subst joins
  cases op with
  | add => exact orElse_left (symbol_read pass rfl)
  | mul => exact orElse_left (symbol_read pass rfl)
  | sub =>
    have plus : (symbol .plus '+').Refuses c := ⟨[], symbol_refuses (by simp [next]; decide)⟩
    exact (orElse_right plus).trans (symbol_read pass rfl)
  | div =>
    have times : (symbol .star '*').Refuses c := ⟨[], symbol_refuses (by simp [next]; decide)⟩
    exact (orElse_right times).trans (symbol_read pass rfl)

/-- A sign is read where it comes next. -/
lemma sign_read {op : UnaryOp} (pass : c.Passes (w.text ++ [op.symbol]) d) :
    plusOrMinus.read c = .ok (.leaf op.rule (c.offset + w.text.size) [op.symbol], d) := by
  cases op with
  | keep => exact operator_read (l := .sum) .add rfl pass
  | negate => exact operator_read (l := .sum) .sub rfl pass

/-- No operator is read where none of its chain comes next. -/
lemma operator_refuses (other : ∀ ch ∈ c.next?, l.joins ch = false) : l.operator.Refuses c := by
  have refuses (rule : Rule) (ch : Char) (h : l.joins ch = true) : (symbol rule ch).Refuses c := by
    refine ⟨[], symbol_refuses fun next => ?_⟩
    rw [other ch next] at h
    cases h
  cases l with
  | sum => exact orElse_refuses (refuses .plus '+' rfl) (refuses .minus '-' rfl)
  | product => exact orElse_refuses (refuses .star '*' rfl) (refuses .slash '/' rfl)

/-- A text is not read any further where none of its operators comes next. -/
lemma Ends.halts (h : Ends k d) : Halts k levels d where
  numeric := h.numeric
  links := by
    have refuses {l : Chain} (chains : ∀ ch ∈ d.next?, l.joins ch = false) :
        ∀ m ∈ l.inner, (m.link levels).Refuses d := by
      intro m mem
      refine node_refuses (operator_refuses fun ch next => ?_)
      have none := chains ch next
      cases l with
      | product =>
        cases List.mem_singleton.mp mem
        exact none
      | sum =>
        cases m with
        | sum => exact none
        | product =>
          simp only [Chain.joins, Bool.or_eq_false_iff] at none ⊢
          exact ⟨none.1.2, none.2⟩
    cases k with
    | operand => exact nofun
    | group => exact nofun
    | chain l => exact refuses h.chains
    | links l => exact refuses h.chains

/-- A chain's part is not read any further where a link, or what follows the chain, begins. -/
lemma halts_of_links {y : Derivation (.links l)} (pass : c.Passes y.text d)
    (halts : Halts (.chain l) levels d) : Halts l.operand levels c := by
  cases y with
  | nil =>
    cases pass.unique (.refl c)
    exact halts.part
  | cons w op joins x y => exact (ends_of_operator joins pass).halts

/-- There is no call where no letter comes next. -/
lemma call_refuses (other : ∀ ch ∈ c.next?, isLetter ch = false) : (call r).Refuses c :=
  node_refuses (labelled_refuses ⟨[], run_refuses other⟩)

/-- There is no signed operand where no sign comes next. -/
lemma signed_refuses (plus : c.next? ≠ some '+') (minus : c.next? ≠ some '-') :
    (signed r).Refuses c :=
  node_refuses (orElse_refuses ⟨[], symbol_refuses plus⟩ ⟨[], symbol_refuses minus⟩)

/-- There is no number where neither a digit nor a point comes next. -/
lemma number_refuses (other : ∀ ch ∈ c.next?, isNumeric ch = false) : number.Refuses c :=
  labelled_refuses ⟨[], run_refuses other⟩

/-- The first character of a lexeme comes next. -/
lemma next_of_lexeme {p : Char → Bool} {s : Lexeme p} {t : Text}
    (spaces : ∀ ch, p ch = true → isSpace ch = false)
    (pass : c.Passes (w.text ++ (s.text ++ t)) d) :
    ∃ ch, p ch = true ∧ c.next? = some ch := by
  obtain ⟨⟨s, all⟩, nonempty⟩ := s
  obtain ⟨ch, s, rfl⟩ := List.exists_cons_of_ne_nil nonempty
  have first := all ch List.mem_cons_self
  exact ⟨ch, first, pass.next? (spaces ch first)⟩

/-- The ways to read an operand, in the order in which they are tried. -/
def alternatives (levels : Nat) : Reader :=
  call (expression (operand levels)) <|> signed (operand levels) <|> number <|>
    parenthesized (expression (operand levels))

/-- An operand is read where its alternative is, one level deeper. -/
lemma operand_read {x : Derivation .operand} (pass : c.Passes x.text d)
    (read : (alternatives levels).read { c with depth := c.depth + 1 } =
      .ok (x.alternative c.offset, { d with depth := c.depth + 1 })) :
    (operand (levels + 1)).read c = .ok (x.tree c.offset, d) := by
  refine nested_ok.mpr ⟨{ d with depth := c.depth + 1 },
    node_one.mpr ⟨x.alternative c.offset, ?_, ?_⟩, ?_⟩
  · exact labelled_ok.mpr read
  · exact (Derivation.compose_operand (pass.nest (c.depth + 1))).symm
  · rw [← pass.depth]

/-- A number is read up to where no digit and no point follows. -/
lemma number_read {s : Lexeme isNumeric} (pass : c.Passes (w.text ++ s.text) d)
    (stop : ∀ ch ∈ d.rest.head?, isNumeric ch = false) :
    (alternatives levels).read c = .ok (.leaf .number (c.offset + w.text.size) s.text, d) := by
  obtain ⟨ch, numeric, next⟩ := next_of_lexeme (t := []) (fun _ => not_isSpace_of_isNumeric)
    (by rwa [List.append_nil])
  have noCall : (call (expression (operand levels))).Refuses c := by
    apply call_refuses
    rw [next]
    rintro _ ⟨⟩
    exact not_isLetter_of_isNumeric numeric
  have noSign : (signed (operand levels)).Refuses c := by
    apply signed_refuses <;> (rw [next]; rintro ⟨⟩; cases numeric)
  rw [alternatives, orElse_right noCall, orElse_right noSign]
  apply orElse_left
  exact labelled_ok.mpr (run_read (fun _ => not_isSpace_of_isNumeric) pass stop)

/-- Where a sign comes next, no call is read. -/
lemma alternatives_sign {op : UnaryOp} (next : c.next? = some op.symbol) :
    (alternatives levels).read c =
      (signed (operand levels) <|> number <|>
        parenthesized (expression (operand levels))).read c := by
  apply orElse_right
  apply call_refuses
  rw [next]
  rintro _ ⟨⟩
  cases op <;> rfl

/-- Where a parenthesis comes next, only parentheses are read. -/
lemma alternatives_paren (next : c.next? = some '(') :
    (alternatives levels).read c = (parenthesized (expression (operand levels))).read c := by
  have noCall : (call (expression (operand levels))).Refuses c :=
    call_refuses (by rw [next]; rintro _ ⟨⟩; decide)
  have noSign : (signed (operand levels)).Refuses c :=
    signed_refuses (by rw [next]; decide) (by rw [next]; decide)
  have noNumber : number.Refuses c := number_refuses (by rw [next]; rintro _ ⟨⟩; decide)
  rw [alternatives, orElse_right noCall, orElse_right noSign, orElse_right noNumber]

/-- A signed operand is read if the operand after the sign is. -/
lemma signed_read {op : UnaryOp} {x : Derivation .operand}
    (h1 : c.Passes (w.text ++ [op.symbol]) d) (h2 : d.Passes x.text e)
    (read : (operand levels).read d = .ok (x.tree d.offset, e)) :
    (alternatives levels).read c =
      .ok ((Derivation.signed w op x).alternative c.offset, e) := by
  rw [alternatives_sign (h1.next? (by cases op <;> rfl))]
  apply orElse_left
  exact node_two.mpr ⟨_, d, _, sign_read h1, read, (Derivation.compose_signed h1 h2).symm⟩

/-- A name is read where a parenthesis comes after it. -/
lemma functionName_read {name : Lexeme isLetter} {v : Blanks} {s : Text}
    (h1 : c.Passes (w.text ++ name.text) d) (h2 : d.Passes (v.text ++ '(' :: s) e) :
    functionName.read c = .ok (.leaf .functionName (c.offset + w.text.size) name.text, d) := by
  have stops : ∀ ch ∈ d.rest.head?, isLetter ch = false :=
    head_of_passes h2 (fun _ => not_isLetter_of_isSpace) rfl
  exact labelled_ok.mpr (run_read (fun _ => not_isSpace_of_isLetter) h1 stops)

/-- A call is read if the parentheses after the name are. -/
lemma call_read {name : Lexeme isLetter} {x : Derivation .group}
    (h1 : c.Passes (w.text ++ name.text) d) (h2 : d.Passes x.text e)
    (read : (parenthesized (expression (operand levels))).read d = .ok (x.tree d.offset, e)) :
    (alternatives levels).read c =
      .ok ((Derivation.call w name x).alternative c.offset, e) := by
  cases x with
  | group v y u =>
    have first := functionName_read h1 h2
    apply orElse_left
    exact node_two.mpr ⟨_, d, _, first, read, (Derivation.compose_call h1 h2).symm⟩

/-- Parentheses are read as an operand where nothing else could be. -/
lemma grouped_read {x : Derivation .group} (pass : c.Passes x.text d)
    (read : (parenthesized (expression (operand levels))).read c = .ok (n, d)) :
    (alternatives levels).read c = .ok (n, d) := by
  have next : c.next? = some '(' := by
    cases x with
    | group w y v =>
      rw [Derivation.text] at pass
      exact pass.next? rfl
  rw [alternatives_paren next, read]

/-- A derivation is read from `c` to `d`, with its tree. -/
def Reads : {k : Category} → Derivation k → (levels : Nat) → (c d : Cursor) → Prop
  | .operand, x, levels, c, d => (operand levels).read c = .ok (x.tree c.offset, d)
  | .group, x, levels, c, d =>
    (parenthesized (expression (operand (levels - 1)))).read c = .ok (x.tree c.offset, d)
  | .chain l, x, levels, c, d =>
    (chain l.rule (l.part levels) l.operator).read c = .ok (x.tree c.offset, d)
  | .links l, x, levels, c, d =>
    readMany (.node .link l.operator [l.part levels]) c = .ok ((x.tree c.offset).children, d)

/-- An operand of a chain is read as part of the chain. -/
lemma Reads.part {x : Derivation l.operand} (h : Reads x levels c d) :
    (l.part levels).read c = .ok (x.tree c.offset, d) := by
  cases l <;> exact h

/-- Parentheses are read if the expression between them is. -/
lemma parenthesized_read {x : Derivation (.chain .sum)} {v : Blanks} {f : Cursor}
    (h1 : c.Passes (w.text ++ ['(']) d) (h2 : d.Passes x.text e)
    (h3 : e.Passes (v.text ++ [')']) f) (read : r.read d = .ok (x.tree d.offset, e)) :
    (parenthesized r).read c = .ok ((Derivation.group w x v).tree c.offset, f) := by
  have first : openParen.read c = _ := labelled_ok.mpr (symbol_read h1 rfl)
  have third : closeParen.read e = _ := labelled_ok.mpr (symbol_read h3 rfl)
  exact node_three.mpr ⟨_, d, _, e, _, first, read, third,
    (Derivation.compose_group h1 h2 h3).symm⟩

/-- A link is read if the operand after its operator is. -/
lemma link_read {op : BinaryOp} {x : Derivation l.operand} (joins : op.chain = l)
    (h1 : c.Passes (w.text ++ [op.symbol]) d) (h2 : d.Passes x.text e)
    (read : r.read d = .ok (x.tree d.offset, e)) :
    (Reader.node .link l.operator [r]).read c =
      .ok (⟨.link, ⟨c.offset + w.text.size, e.offset⟩, op.symbol :: x.text,
        [.leaf op.rule (c.offset + w.text.size) [op.symbol], x.tree d.offset]⟩, e) := by
  exact node_two.mpr ⟨_, d, _, operator_read op joins h1, read,
    (Derivation.compose_link h1 h2).symm⟩

/-- A chain is read if its first operand and its links are. -/
lemma chain_read {x : Derivation l.operand} {y : Derivation (.links l)}
    (h1 : c.Passes x.text d) (h2 : d.Passes y.text e)
    (first : (l.part levels).read c = .ok (x.tree c.offset, d)) (others : Reads y levels d e) :
    Reads (.chain x y) levels c e := by
  exact chain_ok.mpr ⟨_, d, _, first, others, (Derivation.compose_chain h1 h2).symm⟩

/-- What is derived is read, with its tree, where it is not read any further. -/
theorem derivation_reads (x : Derivation k) (nx : x.nesting < levels)
    (pass : c.Passes x.text d) (halts : Halts k levels d) : Reads x levels c d := by
  induction x generalizing levels c d with
  | number w s =>
    obtain ⟨m, rfl⟩ := Nat.exists_eq_succ_of_ne_zero (Nat.ne_zero_of_lt nx)
    exact operand_read pass (number_read (pass.nest (c.depth + 1)) halts.numeric)
  | signed w op x ih =>
    obtain ⟨m, rfl⟩ := Nat.exists_eq_succ_of_ne_zero (Nat.ne_zero_of_lt nx)
    obtain ⟨a, h1, h2⟩ := Derivation.passes_signed.mp (pass.nest (c.depth + 1))
    have inner := ih (Nat.lt_of_succ_lt_succ nx) h2 ⟨halts.numeric, nofun⟩
    exact operand_read pass (signed_read h1 h2 inner)
  | call w name x ih =>
    obtain ⟨m, rfl⟩ := Nat.exists_eq_succ_of_ne_zero (Nat.ne_zero_of_lt nx)
    obtain ⟨a, h1, h2⟩ := Derivation.passes_call.mp (pass.nest (c.depth + 1))
    have inner := ih nx h2 ⟨halts.numeric, nofun⟩
    exact operand_read pass (call_read h1 h2 inner)
  | grouped x ih =>
    obtain ⟨m, rfl⟩ := Nat.exists_eq_succ_of_ne_zero (Nat.ne_zero_of_lt nx)
    have inside : Cursor.Passes _ x.text _ := pass.nest (c.depth + 1)
    have inner := ih nx inside ⟨halts.numeric, nofun⟩
    exact operand_read pass (grouped_read inside inner)
  | group w x v ih =>
    obtain ⟨m, rfl⟩ := Nat.exists_eq_succ_of_ne_zero (Nat.ne_zero_of_lt nx)
    obtain ⟨a, b, h1, h2, h3⟩ := Derivation.passes_group.mp pass
    have inner := ih (Nat.lt_of_succ_lt_succ nx) h2 (ends_of_closing h3).halts
    exact parenthesized_read h1 h2 h3 (labelled_ok.mpr inner)
  | chain x y ihx ihy =>
    obtain ⟨a, h1, h2⟩ := pass.split
    obtain ⟨nx, ny⟩ := Nat.max_lt.mp nx
    have first := ihx nx h1 (halts_of_links h2 halts)
    have others := ihy ny h2 ⟨halts.numeric, halts.links⟩
    exact chain_read h1 h2 first.part others
  | @nil l =>
    -- The repetition stops because no link of the chain is read here.
    cases pass.unique (.refl c)
    have refuses := halts.links l (by cases l <;> exact List.mem_cons_self)
    exact readMany_ok.mpr (.inl ⟨refuses, rfl, rfl⟩)
  | @cons l w op joins x y ihx ihy =>
    obtain ⟨a, b, h1, h2, h3⟩ := Derivation.passes_cons.mp pass
    obtain ⟨nx, ny⟩ := Nat.max_lt.mp nx
    have one := ihx nx h2 (halts_of_links h3 ⟨halts.numeric, halts.links⟩)
    have more := ihy ny h3 halts
    refine readMany_ok.mpr (.inr ⟨_, b, _, link_read joins h1 h2 one.part, more, ?_⟩)
    rw [h2.offset, h1.offset_append]
    rfl

/-- What is derived is read, with its tree, where it ends. -/
theorem derivation_complete (x : Derivation k) (nx : x.nesting < levels)
    (pass : c.Passes x.text d) (ends : Ends k d) : Reads x levels c d :=
  derivation_reads x nx pass ends.halts

end Grammar

end Reckoner
