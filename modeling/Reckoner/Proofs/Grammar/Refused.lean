import Reckoner.Proofs.Grammar.Opening
import Reckoner.Proofs.Grammar.Soundness
import Reckoner.Proofs.Grammar.Stopping

/-!
# What refusals mean

Every refusal of the grammar's readers yields, or stops the reading where as many operands are open
as may be (`operand_accounts`): at an opener of a derived text, whose part up to there has been
passed, or at once where no operand may be opened at all.
The induction is on the levels, as it is for what is read.
-/

namespace Reckoner.Grammar

open Reader

variable {k : Category} {l : Chain} {r : Reader} {levels : Nat} {label : Label}
variable {c d : Cursor} {n : Node} {w : Blanks} {s : Text} {refusal : Refusal}

instance {p : Char → Bool} : Inhabited (Run p) := ⟨.nil⟩

instance : Inhabited (Derivation .operand) :=
  ⟨.number default ⟨⟨['1'], List.forall_mem_singleton.mpr rfl⟩, List.cons_ne_nil _ _⟩⟩

instance : Inhabited (Derivation (.chain .sum)) :=
  ⟨.chain (.chain (default : Derivation .operand) .nil) .nil⟩

/-- Why the reader of a category refuses what it finds at `c`. -/
inductive Refused (k : Category) (levels : Nat) (c : Cursor) (refusal : Refusal) : Prop where
  | yields (h : refusal.Yields)
  | closed (none : levels = 0) (stops : refusal.Stops c.offset)
  | opened {x : Derivation k} {s d} (opens : x.Opens s levels) (pass : c.Passes s d)
    (stops : refusal.Stops d.offset)

/-- All refusals of a reader of the category `k` are accounted for. -/
def Accounts (r : Reader) (k : Category) (levels : Nat) : Prop :=
  ∀ ⦃c refusal⦄, r.read c = .error refusal → Refused k levels c refusal

/-- The name of a construct leaves its refusals accounted for. -/
lemma Accounts.labelled (h : Accounts r k levels)
    (other : label ≠ .nestingDepth := by decide) : Accounts (labelled label r) k levels := by
  intro c refusal error
  obtain ⟨inner, refused, rfl⟩ := labelled_error.mp error
  cases h refused with
  | yields yields => exact .yields (yields.within other)
  | closed none stops => exact .closed none (stops.within other)
  | opened opens pass stops => exact .opened opens pass (stops.within other)

/-- The refusals of alternatives are accounted for if those of both are. -/
lemma Accounts.orElse {first second : Reader} (h1 : Accounts first k levels)
    (h2 : Accounts second k levels) : Accounts (first <|> second) k levels := by
  intro c refusal error
  rcases orElse_error.mp error with ⟨error, _⟩ | ⟨_, error⟩
  · exact h1 error
  · exact h2 error

/-- A token is never too deep. -/
lemma token_yields {rule : Rule} {lexeme : Text → Nat}
    (h : (token rule lexeme).read c = .error refusal) : refusal.Yields := by
  cases token_error h
  exact ⟨rfl, rfl⟩

/-- A named token is never too deep. -/
lemma labelled_yields {rule : Rule} {lexeme : Text → Nat}
    (h : (labelled label (token rule lexeme)).read c = .error refusal)
    (other : label ≠ .nestingDepth := by decide) : refusal.Yields := by
  obtain ⟨inner, refused, rfl⟩ := labelled_error.mp h
  exact (token_yields refused).within other

/-- An operator is never too deep. -/
lemma operator_yields (h : l.operator.read c = .error refusal) : refusal.Yields := by
  cases l with
  | sum =>
    rcases orElse_error.mp h with ⟨h, _⟩ | ⟨_, h⟩
    · exact token_yields h
    · exact token_yields h
  | product =>
    rcases orElse_error.mp h with ⟨h, _⟩ | ⟨_, h⟩
    · exact token_yields h
    · exact token_yields h

/-- A number is never too deep. -/
lemma number_yields (h : number.read c = .error refusal) : refusal.Yields :=
  labelled_yields h

/-- The name of a function is never too deep. -/
lemma functionName_yields (h : functionName.read c = .error refusal) : refusal.Yields :=
  labelled_yields h

/-- An opening parenthesis is never too deep. -/
lemma openParen_yields (h : openParen.read c = .error refusal) : refusal.Yields :=
  labelled_yields h

/-- A closing parenthesis is never too deep. -/
lemma closeParen_yields (h : closeParen.read c = .error refusal) : refusal.Yields :=
  labelled_yields h

/-- The refusals of a number are those of its token. -/
lemma number_accounts : Accounts number k levels := fun _ _ error => .yields (number_yields error)

/-- A sign is an opener, and the openers of its operand are one deeper. -/
lemma signed_accounts (h : Accounts r .operand levels) :
    Accounts (signed r) .operand (levels + 1) := by
  intro c refusal error
  rcases node_two_error.mp error with error | ⟨_, d, sign, error⟩
  · exact .yields (operator_yields (l := .sum) error)
  obtain ⟨w, op, pass, rfl⟩ := sign_ok sign
  cases h error with
  | yields yields => exact .yields yields
  | closed none stops =>
    subst none
    exact .opened (x := .signed w op default) .sign pass stops
  | opened opens more stops =>
    have pass := pass.trans more
    rw [← List.append_cons] at pass
    exact .opened opens.signed pass stops

/-- A parenthesis is an opener, and the openers in parentheses are one deeper. -/
lemma parenthesized_accounts (h : Accounts r (.chain .sum) levels) :
    Accounts (parenthesized r) .group (levels + 1) := by
  intro c refusal error
  rcases node_three_error.mp error with error | ⟨_, d, opening, error | ⟨_, _, _, error⟩⟩
  · exact .yields (openParen_yields error)
  · obtain ⟨w, pass, rfl⟩ := symbol_ok (labelled_ok.mp opening)
    cases h error with
    | yields yields => exact .yields yields
    | closed none stops =>
      subst none
      exact .opened (x := .group w default default) .paren pass stops
    | @opened x _ _ opens more stops =>
      have pass := pass.trans more
      rw [← List.append_cons] at pass
      exact .opened (x := .group w x default) opens.group pass stops
  · exact .yields (closeParen_yields error)

/-- A call is refused at its name or at the parentheses after it. -/
lemma call_accounts (h : Accounts (parenthesized r) .group (levels + 1)) :
    Accounts (call r) .operand (levels + 1) := by
  intro c refusal error
  rcases node_two_error.mp error with error | ⟨_, d, called, error⟩
  · exact .yields (functionName_yields error)
  obtain ⟨w, name, pass, rfl⟩ := run_ok (labelled_ok.mp called)
  cases h error with
  | yields yields => exact .yields yields
  | closed none => cases none
  | opened opens more stops =>
    have pass := pass.trans more
    rw [List.append_assoc] at pass
    exact .opened opens.call pass stops

/-- An operand in parentheses is refused where these are. -/
lemma grouped_accounts (h : Accounts r .group (levels + 1)) : Accounts r .operand (levels + 1) := by
  intro c refusal error
  cases h error with
  | yields yields => exact .yields yields
  | closed none => cases none
  | opened opens pass stops => exact .opened opens.grouped pass stops

/-- A link is refused at its operator or at the operand after it. -/
lemma link_accounts (h : Accounts r l.operand levels) (pos : 0 < levels) :
    Accounts (.node .link l.operator [r]) (.links l) levels := by
  intro c refusal error
  rcases node_two_error.mp error with error | ⟨_, d, joint, error⟩
  · exact .yields (operator_yields error)
  obtain ⟨w, op, joins, pass, rfl⟩ := operator_ok joint
  cases h error with
  | yields yields => exact .yields yields
  | closed none => exact absurd none (Nat.ne_of_gt pos)
  | @opened x _ _ opens more stops =>
    have pass := pass.trans more
    rw [← List.append_cons] at pass
    exact .opened (x := .cons w op joins x .nil) opens.operand pass stops

/-- Links are refused for an opener in one of them, after those before it. -/
lemma links_refused (sound : Sound r l.operand levels) (h : Accounts r l.operand levels)
    (pos : 0 < levels) (error : readMany (.node .link l.operator [r]) c = .error refusal) :
    Refused (.links l) levels c refusal := by
  generalize eq : Reader.node .link l.operator [r] = link at error
  fun_induction readMany link c with
  | case1 c inner read final =>
    subst eq
    cases error
    exact link_accounts h pos read
  | case2 => cases error
  | case3 c n d read shorter inner more ih =>
    subst eq
    cases error
    obtain ⟨_, a, _, joint, second, rfl⟩ := node_two.mp read
    obtain ⟨w, op, joins, h1, rfl⟩ := operator_ok joint
    obtain ⟨x, nx, h2, rfl⟩ := sound second
    cases ih more with
    | yields yields => exact .yields yields
    | closed none => exact absurd none (Nat.ne_of_gt pos)
    | @opened y _ _ opens h3 stops =>
      have pass := h1.trans (h2.trans h3)
      rw [← List.append_cons] at pass
      exact .opened (x := .cons w op joins x y) opens.later pass stops
  | case4 => cases error

/-- A chain refuses its first operand at once; openers in its links come after that. -/
lemma chain_accounts (sound : Sound r l.operand levels) (h : Accounts r l.operand levels) :
    Accounts (.chain l.rule r l.operator) (.chain l) levels := by
  intro c refusal error
  rcases chain_error.mp error with error | ⟨_, d, first, error⟩
  · cases h error with
    | yields yields => exact .yields yields
    | closed none stops => exact .closed none stops
    | @opened x _ _ opens pass stops => exact .opened (x := .chain x .nil) opens.first pass stops
  · obtain ⟨x, nx, h1, rfl⟩ := sound first
    have pos := Nat.zero_lt_of_lt nx
    cases links_refused sound h pos error with
    | yields yields => exact .yields yields
    | closed none => exact absurd none (Nat.ne_of_gt pos)
    | @opened y _ _ opens h2 stops =>
      exact .opened (x := .chain x y) opens.others (h1.trans h2) stops

/-- The refusals of an expression are accounted for if those of its operands are. -/
lemma expression_accounts (sound : Sound r .operand levels) (h : Accounts r .operand levels) :
    Accounts (expression r) (.chain .sum) levels := by
  have sound1 : Sound (.chain .term r timesOrOver) (.chain .product) levels :=
    chain_sound (l := .product) sound
  have h1 : Accounts (.chain .term r timesOrOver) (.chain .product) levels :=
    chain_accounts (l := .product) sound h
  exact (chain_accounts (l := .sum) sound1 h1).labelled

/-- An operand is refused for an opener in it, or where none may be opened. -/
theorem operand_accounts : ∀ levels, Accounts (operand levels) .operand levels
  | 0 => by
    intro c refusal error
    cases error
    exact .closed rfl ⟨rfl, rfl⟩
  | levels + 1 => by
    intro c refusal error
    have inner := operand_accounts levels
    have group := parenthesized_accounts (expression_accounts (operand_sound levels) inner)
    have part := (call_accounts group).orElse
      ((signed_accounts inner).orElse (number_accounts.orElse (grouped_accounts group)))
    have whole : Accounts (labelled .operand _) .operand (levels + 1) := part.labelled
    cases whole (node_one_error.mp (nested_error.mp error)) with
    | yields yields => exact .yields yields
    | closed none => cases none
    | opened opens pass stops => exact .opened opens (pass.nest c.depth) stops

end Reckoner.Grammar
