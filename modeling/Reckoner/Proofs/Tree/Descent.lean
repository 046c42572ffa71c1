import Reckoner.Expr.OfTree
import Reckoner.Proofs.Expr.Meaning
import Reckoner.Proofs.Tree.Search

/-!
# Descending in a tree

Where a search ends, how many nodes there are, and where reading a node as an expression goes on,
for any tree, also one that no text has.  `exprStep` is one step of reading whose calls are left
open; it asks for the expressions of the nodes that are `entered` and of no others
(`exprStep_congr`), and these are descendants of the node at hand (`mem_descendants_of_entered`).
All of this is put together in `search_descends`.
-/

namespace Reckoner

namespace Node

variable {n m link repetition : Node} {ns : List Node} {rule operand : Rule} {left : Expr}
variable {f g : Node → Except TreeError Expr}

/-- The nodes of the parts of a node: all nodes of the tree but the root. -/
def descendants (n : Node) : List Node := n.children.flatMap nodes

/-- The nodes of a tree are its root and those below it. -/
lemma nodes_eq (n : Node) : n.nodes = n :: n.descendants := by
  obtain ⟨rule, span, text, children⟩ := n
  exact nodes_parts

/-- Every part of a node is below it. -/
lemma mem_descendants_of_child (child : m ∈ n.children) : m ∈ n.descendants :=
  List.mem_flatMap_of_mem child m.mem_nodes_self

/-- A tree has as many nodes as it lists. -/
lemma size_eq_length (n : Node) : n.size = n.nodes.length := by
  induction size : n.size using Nat.strong_induction_on generalizing n with
  | h _ ih =>
    have parts : ∀ ns : List Node, (∀ m ∈ ns, m.size < n.size) →
        sizeAll ns = (ns.flatMap nodes).length := by
      intro ns smaller
      induction ns with
      | nil => rfl
      | cons m ns more =>
        obtain ⟨here, others⟩ := List.forall_mem_cons.mp smaller
        rw [sizeAll_cons, List.flatMap_cons, List.length_append, more others]
        rw [ih _ (size ▸ here) m rfl]
    rw [← size, size_eq, nodes_eq, List.length_cons, descendants, Nat.add_comm]
    rw [parts n.children fun m child => size_lt_of_mem child]

/-! One step of reading. -/

/-- The expression of an operand and the links after it, when `read` gives those of other nodes. -/
def linksStep (read : Node → Except TreeError Expr) (operand : Rule) (left : Expr) :
    List Node → Except TreeError Expr
  | [] => .ok left
  | link :: others =>
    match link.operator?, link.findRule? operand with
    | none, _ => .error (link.lacks .operator)
    | some _, none => .error (link.lacks .rightOperand)
    | some (op, span), some right =>
      match read right with
      | .error e => .error e
      | .ok e => linksStep read operand (.binary op span left e) others

/-- The expression of a chain, when `read` gives those of other nodes. -/
def chainStep (read : Node → Except TreeError Expr) (n : Node) (operand : Rule) :
    Except TreeError Expr :=
  match n.child? operand with
  | none => .error (n.lacks .firstOperand)
  | some first =>
    match read first with
    | .error e => .error e
    | .ok left =>
      match n.child? .repetition with
      | none => .ok left
      | some repetition => linksStep read operand left repetition.children

/-- The expression of a node, when `read` gives those of other nodes. -/
def exprStep (read : Node → Except TreeError Expr) (n : Node) : Except TreeError Expr :=
  match n.rule with
  | .expr => chainStep read n .term
  | .term => chainStep read n .factor
  | .factor =>
    match n.alternative? with
    | none => .error (n.lacks .alternative)
    | some alternative => read alternative
  | .unary =>
    match n.sign?, n.findRule? .factor with
    | none, _ => .error (n.lacks .sign)
    | some _, none => .error (n.lacks .operand)
    | some (op, span), some operand => (read operand).map fun e => .unary op span e
  | .function =>
    match n.findRule? .functionName, n.findRule? .expr with
    | none, _ => .error (n.lacks .functionName)
    | some _, none => .error (n.lacks .argument)
    | some name, some argument =>
      (read argument).map fun e => .call (String.ofList name.text) name.span e
  | .parenExpr =>
    match n.findRule? .expr with
    | none => .error (n.lacks .innerExpression)
    | some inner => read inner
  | .number => .ok (.number n.span)
  | other => .error ⟨.unexpected other, n.span⟩

/-- Joining links unfolds into its step. -/
lemma joinLinks_eq_step (operand : Rule) (left : Expr) (links : List Node) :
    joinLinks operand left links = linksStep toExpr operand left links := by
  induction links generalizing left with
  | nil => rw [joinLinks, linksStep]
  | cons link others ih =>
    rw [joinLinks, linksStep]
    split
    case h_1 none => simp only [none]
    case h_2 some none => simp only [some, none]
    case h_3 some found =>
      simp only [some, found]
      cases toExpr _ with
      | error => rfl
      | ok right => exact ih _

/-- Reading a chain unfolds into its step. -/
lemma toChain_eq_step (n : Node) (operand : Rule) :
    n.toChain operand = chainStep toExpr n operand := by
  rw [toChain, chainStep]
  split
  case h_1 none => simp only [none]
  case h_2 first found =>
    simp only [found]
    cases first.toExpr with
    | error => rfl
    | ok left =>
      dsimp only
      split
      case h_1 none => rw [none]
      case h_2 links =>
        rw [links]
        exact joinLinks_eq_step ..

/-- Reading a node is one step of reading in which the calls read as well. -/
lemma toExpr_eq_step (n : Node) : n.toExpr = exprStep toExpr n := by
  rw [toExpr, exprStep]
  split
  case h_1 rule => rw [rule, toChain_eq_step]
  case h_2 rule => rw [rule, toChain_eq_step]
  case h_3 rule =>
    simp only [rule]
    split
    case h_1 none => simp only [none]
    case h_2 found => simp only [found]
  case h_4 rule =>
    simp only [rule]
    split
    case h_1 none => simp only [none]
    case h_2 some none => simp only [some, none]
    case h_3 some found => simp only [some, found]
  case h_5 rule =>
    simp only [rule]
    split
    case h_1 none => simp only [none]
    case h_2 some none => simp only [some, none]
    case h_3 some found => simp only [some, found]
  case h_6 rule =>
    simp only [rule]
    split
    case h_1 none => simp only [none]
    case h_2 found => simp only [found]
  case h_7 rule => rw [rule]
  case h_8 =>
    -- no other rule goes on anywhere
    split
    case h_8 => rfl
    all_goals contradiction

/-! Where reading goes on. -/

/-- The operands of a chain: the first one, and the one in each link. -/
def chainOperands (n : Node) (operand : Rule) : List Node :=
  (n.child? operand).toList ++
    (n.child? .repetition).toList.flatMap fun m => m.children.filterMap (·.findRule? operand)

/-- The nodes whose expressions the expression of a node is put together from. -/
def entered (n : Node) : List Node :=
  match n.rule with
  | .expr => n.chainOperands .term
  | .term => n.chainOperands .factor
  | .factor => n.alternative?.toList
  | .unary => (n.findRule? .factor).toList
  | .function => (n.findRule? .expr).toList
  | .parenExpr => (n.findRule? .expr).toList
  | _ => []

/-- The first operand of a chain is one of its operands. -/
lemma mem_chainOperands_of_child? (found : n.child? operand = some m) :
    m ∈ n.chainOperands operand := by
  rw [chainOperands, found]
  exact List.mem_append_left _ List.mem_cons_self

/-- The operand that is found in a link is one of the chain's. -/
lemma mem_chainOperands_of_link (links : n.child? .repetition = some repetition)
    (part : link ∈ repetition.children) (found : link.findRule? operand = some m) :
    m ∈ n.chainOperands operand := by
  rw [chainOperands, links, Option.toList_some, List.flatMap_singleton]
  exact List.mem_append_right _ (List.mem_filterMap.mpr ⟨link, part, found⟩)

/-- Links ask for the expressions of the operands that are found in them. -/
lemma linksStep_congr {links : List Node}
    (same : ∀ link ∈ links, ∀ m, link.findRule? operand = some m → f m = g m) :
    linksStep f operand left links = linksStep g operand left links := by
  induction links generalizing left with
  | nil => rfl
  | cons link others ih =>
    obtain ⟨here, later⟩ := List.forall_mem_cons.mp same
    rw [linksStep, linksStep]
    split
    case h_1 => rfl
    case h_2 => rfl
    case h_3 found =>
      rw [here _ found]
      split
      case h_1 => rfl
      case h_2 => exact ih later

/-- A chain asks for the expressions of its operands. -/
lemma chainStep_congr (same : ∀ m ∈ n.chainOperands operand, f m = g m) :
    chainStep f n operand = chainStep g n operand := by
  rw [chainStep, chainStep]
  split
  case h_1 => rfl
  case h_2 first found =>
    rw [same first (mem_chainOperands_of_child? found)]
    split
    case h_1 => rfl
    case h_2 =>
      split
      case h_1 => rfl
      case h_2 repetition links =>
        apply linksStep_congr
        intro link part m found
        exact same m (mem_chainOperands_of_link links part found)

/-- One step of reading asks for the expressions of the nodes that are entered, and of no others. -/
lemma exprStep_congr (same : ∀ m ∈ n.entered, f m = g m) : exprStep f n = exprStep g n := by
  -- both definitions go by the rule, so there is a case for each
  unfold entered at same
  rw [exprStep, exprStep]
  split
  case h_1 rule =>
    simp only [rule] at same
    exact chainStep_congr same
  case h_2 rule =>
    simp only [rule] at same
    exact chainStep_congr same
  case h_3 rule =>
    simp only [rule] at same
    split
    case h_1 => rfl
    case h_2 found => exact same _ (Option.mem_toList.mpr found)
  case h_4 rule =>
    simp only [rule] at same
    split
    case h_1 => rfl
    case h_2 => rfl
    case h_3 found => rw [same _ (Option.mem_toList.mpr found)]
  case h_5 rule =>
    simp only [rule] at same
    split
    case h_1 => rfl
    case h_2 => rfl
    case h_3 found => rw [same _ (Option.mem_toList.mpr found)]
  case h_6 rule =>
    simp only [rule] at same
    split
    case h_1 => rfl
    case h_2 found => exact same _ (Option.mem_toList.mpr found)
  case h_7 => rfl
  case h_8 => rfl

/-- A node found from a node of another rule is below it. -/
lemma mem_descendants_of_findRule? (found : n.findRule? rule = some m) (other : n.rule ≠ rule) :
    m ∈ n.descendants := by
  have inside := mem_nodes_of_find? found
  rw [nodes_eq, List.mem_cons] at inside
  rcases inside with rfl | below
  · have hit := rule_of_find? found
    exact absurd (of_decide_eq_true hit) other
  · exact below

/-- A part that is found by its rule is below the node. -/
lemma mem_descendants_of_child? (found : n.child? rule = some m) : m ∈ n.descendants :=
  mem_descendants_of_child (List.mem_of_find?_eq_some found)

/-- The operands of a chain are below it. -/
lemma mem_descendants_of_chainOperands (entered : m ∈ n.chainOperands operand) :
    m ∈ n.descendants := by
  rw [chainOperands, List.mem_append, Option.mem_toList, List.mem_flatMap] at entered
  rcases entered with first | ⟨repetition, links, later⟩
  · exact mem_descendants_of_child? first
  · obtain ⟨link, part, found⟩ := List.mem_filterMap.mp later
    -- The link may be what is found, but it is below the repetition.
    have inside := mem_nodes_of_child part (mem_nodes_of_find? found)
    have child := List.mem_of_find?_eq_some (Option.mem_toList.mp links)
    exact List.mem_flatMap_of_mem child inside

/-- Reading goes on below the node at hand. -/
lemma mem_descendants_of_entered (entered : m ∈ n.entered) : m ∈ n.descendants := by
  unfold Node.entered at entered
  split at entered
  case h_1 => exact mem_descendants_of_chainOperands entered
  case h_2 => exact mem_descendants_of_chainOperands entered
  case h_3 =>
    have found := Option.mem_toList.mp entered
    obtain ⟨rule, _, hit⟩ := List.exists_of_findSome?_eq_some found
    exact mem_descendants_of_child? hit
  case h_4 rule =>
    exact mem_descendants_of_findRule? (Option.mem_toList.mp entered) (by simp [rule])
  case h_5 rule =>
    exact mem_descendants_of_findRule? (Option.mem_toList.mp entered) (by simp [rule])
  case h_6 rule =>
    exact mem_descendants_of_findRule? (Option.mem_toList.mp entered) (by simp [rule])
  case h_7 => cases entered

/-- A link that is an operand itself is what is found in it. -/
lemma mem_entered_of_link (l : Chain) (chain : n.rule = l.rule)
    (links : n.child? .repetition = some repetition) (part : link ∈ repetition.children)
    (operand : link.rule = l.operand.rule) : link ∈ n.entered := by
  have found : link.findRule? l.operand.rule = some link := find?_self (by simp [operand])
  have operands := mem_chainOperands_of_link links part found
  unfold entered
  cases l <;> rw [chain] <;> exact operands

/-- A search finds the first node of the listing that it is for, and none only if there is none; a
tree has as many nodes as it lists.  What a node reads as depends on the expressions of the nodes
that are entered from it, all of them below it, also where a link is an operand itself. -/
theorem search_descends (n : Node) :
    (∀ (p : Rule → Bool) (m : Node), n.find? p = some m ↔
      ∃ before after, n.nodes = before ++ m :: after ∧ p m.rule = true ∧
        ∀ k ∈ before, p k.rule = false) ∧
    (∀ p : Rule → Bool, n.find? p = none ↔ ∀ m ∈ n.nodes, p m.rule = false) ∧
    n.size = n.nodes.length ∧
    (∀ m ∈ n.entered, m ∈ n.descendants) ∧
    (∀ read : Node → Except TreeError Expr, (∀ m ∈ n.entered, read m = m.toExpr) →
      exprStep read n = n.toExpr) ∧
    ∀ (l : Chain) (repetition link : Node), n.rule = l.rule →
      n.child? .repetition = some repetition → link ∈ repetition.children →
      link.rule = l.operand.rule → link ∈ n.entered := by
  refine ⟨fun p m => ?_, fun p => find?_eq_none_iff, n.size_eq_length, ?_, ?_, ?_⟩
  · rw [find?_eq, List.find?_eq_some_iff_append]
    simp only [Bool.not_eq_true']
    constructor
    · intro ⟨hit, before, after, eq, miss⟩
      exact ⟨before, after, eq, hit, miss⟩
    · intro ⟨before, after, eq, hit, miss⟩
      exact ⟨hit, before, after, eq, miss⟩
  · exact fun m => mem_descendants_of_entered
  · intro read same
    rw [toExpr_eq_step, exprStep_congr same]
  · exact fun l repetition link chain links part operand =>
      mem_entered_of_link l chain links part operand

/-- A chain made by hand whose one link is a term itself goes on to this link, which is below it. -/
theorem search_descends_term :
    let one : Node := ⟨.term, ⟨0, 1⟩, ['1'], [⟨.factor, ⟨0, 1⟩, ['1'], [.leaf .number 0 ['1']]⟩]⟩
    let two : Node := ⟨.factor, ⟨2, 3⟩, ['2'], [.leaf .number 2 ['2']]⟩
    let link : Node := ⟨.term, ⟨1, 3⟩, ['+', '2'], [.leaf .plus 1 ['+'], two]⟩
    let links : Node := ⟨.repetition, ⟨1, 3⟩, ['+', '2'], [link]⟩
    let root : Node := ⟨.expr, ⟨0, 3⟩, ['1', '+', '2'], [one, links]⟩
    link ∈ root.entered ∧ link ∈ root.descendants := by
  intro one two link links root
  obtain ⟨_, _, _, below, _, enters⟩ := search_descends root
  have entered := enters .sum links link rfl rfl List.mem_cons_self rfl
  exact ⟨entered, below link entered⟩

end Node

end Reckoner
