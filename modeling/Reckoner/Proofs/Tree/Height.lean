import Mathlib.Logic.Function.Iterate
import Mathlib.Order.Bounds.Basic
import Reckoner.Proofs.Grammar.Recognition
import Reckoner.Proofs.Grammar.Refused
import Reckoner.Proofs.Tree.Descent

/-!
# The height of parse trees

A tree is as high as its longest way down (`isGreatest_height`), and a recursion that goes on below
the node at hand is over after that many steps (`Descending.iterate`).  From one operand to the next
inside it a way down takes nine nodes at most, so the bound on nesting bounds the height of every
parse tree, however long the text is (`height_parse`), and the bound is reached
(`height_parse_calls`).
-/

namespace Reckoner

namespace Node

variable {α : Type} {n m : Node} {ns : List Node} {k : Nat} {p : Rule → Bool}

mutual
/-- The number of nodes on a longest way down. -/
def height : Node → Nat
  | ⟨_, _, _, children⟩ => heightAll children + 1

/-- The largest height in a list of trees. -/
def heightAll : List Node → Nat
  | [] => 0
  | n :: ns => max (height n) (heightAll ns)
end

/-- A node is one higher than the highest of its parts. -/
lemma height_eq (n : Node) : n.height = heightAll n.children + 1 := by
  cases n
  rfl

lemma height_parts {rule : Rule} {span : Span} {s : Text} :
    height ⟨rule, span, s, ns⟩ = heightAll ns + 1 := rfl

/-- Every tree has a height. -/
lemma height_pos (n : Node) : 0 < n.height := by
  rw [height_eq]
  exact Nat.succ_pos _

/-- No tree of a list is higher than the list. -/
lemma height_le_heightAll (mem : n ∈ ns) : n.height ≤ heightAll ns := by
  induction ns with
  | nil => cases mem
  | cons m ns ih =>
    cases mem with
    | head => exact le_max_left ..
    | tail _ mem => exact (ih mem).trans (le_max_right ..)

/-- Some tree of a list is as high as the list. -/
lemma exists_height_eq (some : ns ≠ []) : ∃ n ∈ ns, n.height = heightAll ns := by
  induction ns with
  | nil => exact absurd rfl some
  | cons m ns ih =>
    rcases Nat.le_total (heightAll ns) m.height with here | later
    · exact ⟨m, List.mem_cons_self, (max_eq_left here).symm⟩
    · cases ns with
      | nil => exact absurd m.height_pos (Nat.not_lt.mpr later)
      | cons =>
        obtain ⟨n, mem, eq⟩ := ih (List.cons_ne_nil _ _)
        exact ⟨n, List.mem_cons_of_mem _ mem, eq.trans (max_eq_right later).symm⟩

/-- A part is lower than its node. -/
lemma height_lt_of_child (child : m ∈ n.children) : m.height < n.height := by
  rw [n.height_eq]
  exact Nat.lt_succ_of_le (height_le_heightAll child)

/-- No node of a tree is higher than the tree. -/
lemma height_le_of_mem_nodes (inside : m ∈ n.nodes) : m.height ≤ n.height := by
  induction size : n.size using Nat.strong_induction_on generalizing n with
  | h _ ih =>
    rw [nodes_eq, List.mem_cons] at inside
    rcases inside with rfl | below
    · exact le_rfl
    · obtain ⟨child, part, inner⟩ := List.mem_flatMap.mp below
      have smaller := size_lt_of_mem part
      exact (ih _ (size ▸ smaller) inner rfl).trans (height_lt_of_child part).le

/-- Every node below another is lower. -/
lemma height_lt_of_mem_descendants (below : m ∈ n.descendants) : m.height < n.height := by
  obtain ⟨child, part, inner⟩ := List.mem_flatMap.mp below
  exact (height_le_of_mem_nodes inner).trans_lt (height_lt_of_child part)

/-- Nodes that are a way down: each is a part of the one before it. -/
def IsWay (way : List Node) : Prop := way.IsChain fun n m => m ∈ n.children

/-- No way down has more nodes than the tree is high. -/
lemma length_le_height {way : List Node} (h : IsWay (n :: way)) : way.length + 1 ≤ n.height := by
  induction way generalizing n with
  | nil => exact n.height_pos
  | cons m way ih =>
    obtain ⟨child, more⟩ := List.isChain_cons_cons.mp h
    exact Nat.succ_le_of_lt ((ih more).trans_lt (height_lt_of_child child))

/-- Some way down has as many nodes as the tree is high. -/
lemma exists_longest (n : Node) : ∃ way, IsWay (n :: way) ∧ way.length + 1 = n.height := by
  induction size : n.size using Nat.strong_induction_on generalizing n with
  | h _ ih =>
    by_cases leaf : n.children = []
    · refine ⟨[], .singleton n, ?_⟩
      rw [n.height_eq, leaf]
      rfl
    · obtain ⟨m, child, highest⟩ := exists_height_eq leaf
      obtain ⟨way, more, length⟩ := ih _ (size ▸ size_lt_of_mem child) m rfl
      refine ⟨m :: way, .cons_cons child more, ?_⟩
      rw [List.length_cons, length, n.height_eq, highest]

/-- The height of a tree is the length of its longest ways down. -/
theorem isGreatest_height (n : Node) :
    IsGreatest {k | ∃ way, IsWay (n :: way) ∧ (n :: way).length = k} n.height := by
  constructor
  · exact n.exists_longest
  · intro k ⟨way, down, length⟩
    rw [← length]
    exact length_le_height down

/-! Recursions over a tree. -/

/-- A step of a recursion that depends on what the recursion comes to below the node at hand. -/
def Descending (step : (Node → α) → Node → α) : Prop :=
  ∀ (f g : Node → α) (n : Node), (∀ m ∈ n.descendants, f m = g m) → step f n = step g n

/-- A recursion is over after as many steps as the tree is high, whatever it would go on to. -/
lemma Descending.iterate {step : (Node → α) → Node → α} {F : Node → α} (h : Descending step)
    (unfolds : ∀ n, F n = step F n) (f : Node → α) (low : n.height ≤ k) :
    step^[k] f n = F n := by
  induction k generalizing n with
  | zero => exact absurd n.height_pos (Nat.not_lt.mpr low)
  | succ k ih =>
    rw [Function.iterate_succ_apply', unfolds n]
    apply h
    intro m below
    exact ih (Nat.le_of_lt_succ ((height_lt_of_mem_descendants below).trans_le low))

/-- One step of a search. -/
def findStep (p : Rule → Bool) (find : Node → Option Node) (n : Node) : Option Node :=
  if p n.rule then some n else n.children.findSome? find

/-- One step of counting the nodes. -/
def sizeStep (count : Node → Nat) (n : Node) : Nat :=
  1 + (n.children.map count).foldr (· + ·) 0

/-- A search unfolds into its step. -/
lemma find?_eq_step (p : Rule → Bool) (n : Node) : n.find? p = findStep p (find? p) n := by
  obtain ⟨rule, span, text, children⟩ := n
  have among : ∀ ns : List Node, findAmong? p ns = ns.findSome? (find? p) := by
    intro ns
    induction ns with
    | nil => rfl
    | cons n ns ih =>
      rw [findAmong?, ih, List.findSome?_cons]
      cases n.find? p <;> rfl
  rw [find?, findStep, among]

/-- The number of nodes unfolds into its step. -/
lemma size_eq_step (n : Node) : n.size = sizeStep size n := by
  have all : ∀ ns : List Node, sizeAll ns = (ns.map size).foldr (· + ·) 0 := by
    intro ns
    induction ns with
    | nil => rfl
    | cons n ns ih => rw [sizeAll_cons, ih, List.map_cons, List.foldr_cons]
  rw [size_eq, all, sizeStep]

/-- What agrees below a node agrees on its parts. -/
lemma map_children_congr {f g : Node → α} (same : ∀ m ∈ n.descendants, f m = g m) :
    n.children.map f = n.children.map g :=
  List.map_congr_left fun m child => same m (mem_descendants_of_child child)

/-- The reading of a tree as an expression only goes on below the node at hand. -/
lemma descending_exprStep : Descending exprStep :=
  fun _ _ _ same => exprStep_congr fun m entered => same m (mem_descendants_of_entered entered)

/-- A search only goes on below the node at hand. -/
lemma descending_findStep (p : Rule → Bool) : Descending (findStep p) := by
  intro f g n same
  have mapped (h : Node → Option Node) :
      n.children.findSome? h = (n.children.map h).findSome? id := by
    rw [List.findSome?_map, Function.id_comp]
  rw [findStep, findStep, mapped f, mapped g, map_children_congr same]

/-- The counting of nodes only goes on below the node at hand. -/
lemma descending_sizeStep : Descending sizeStep := by
  intro f g n same
  rw [sizeStep, sizeStep, map_children_congr same]

end Node

open Grammar

variable {t : Text} {n : Nat}

/-- The nodes that a chain adds to a way down to an operand, with those of the operand itself. -/
def Chain.height : Chain → Nat
  | product => 5
  | sum => 8

/-- The greatest height of a tree of a category with `n` levels of nesting. -/
def Grammar.Category.height (n : Nat) : Category → Nat
  | operand => 9 * n + 2
  | group => 9 * n
  | chain l => 9 * n + l.height
  | links l => 9 * n + l.height - 1

/-- A way down from a chain to an operand passes the chain, its links and one of these. -/
lemma Chain.height_operand (l : Chain) (n : Nat) : l.operand.height n + 3 = 9 * n + l.height := by
  cases l <;> rfl

namespace Grammar.Derivation

open Node

lemma height_leaf (rule : Rule) (o : Nat) (s : Text) : (leaf rule o s).height = 1 := rfl

lemma height_node {k : Category} (x : Derivation k) (rule : Rule) (o : Nat) (ns : List Node) :
    (x.node rule o ns).height = heightAll ns + 1 := rfl

/-- The bound on nesting is a bound on the height. -/
theorem height_tree {k : Category} (x : Derivation k) (o : Nat) (nx : x.nesting ≤ n) :
    (x.tree o).height ≤ k.height n := by
  induction x generalizing o n with
  | number w s =>
    simp only [tree, height_node, heightAll, height_leaf, Category.height]
    omega
  | signed w op x ih =>
    have operand := ih (leaf op.rule (o + w.text.size) [op.symbol]).span.stop
      (Nat.le_sub_one_of_lt nx)
    simp only [nesting] at nx
    simp only [tree, height_node, heightAll, height_leaf, Category.height] at operand ⊢
    omega
  | call w name x ih =>
    have group := ih (leaf .functionName (o + w.text.size) name.text).span.stop nx
    have high := height_pos (x.tree (leaf .functionName (o + w.text.size) name.text).span.stop)
    simp only [tree, height_node, heightAll, height_leaf, Category.height] at group ⊢
    omega
  | grouped x ih =>
    have group := ih o nx
    simp only [tree, height_node, heightAll, Category.height] at group ⊢
    omega
  | group w x v ih =>
    have inner := ih (leaf .openParen (o + w.text.size) ['(']).span.stop (Nat.le_sub_one_of_lt nx)
    simp only [nesting] at nx
    simp only [tree, height_node, heightAll, height_leaf, Category.height, Chain.height] at inner ⊢
    omega
  | @chain l x y ih1 ih2 =>
    obtain ⟨nx, ny⟩ := Nat.max_le.mp nx
    have first := ih1 o nx
    have others := ih2 (o + x.text.size) ny
    have more := l.height_operand n
    simp only [tree, height_node, heightAll, Category.height] at others ⊢
    omega
  | @nil l =>
    have more := l.height_operand n
    simp only [tree, height_node, heightAll, Category.height]
    omega
  | @cons l w op joins x y ih1 ih2 =>
    obtain ⟨nx, ny⟩ := Nat.max_le.mp nx
    have right := ih1 (leaf op.rule (o + w.text.size) [op.symbol]).span.stop nx
    have high := height_pos (x.tree (leaf op.rule (o + w.text.size) [op.symbol]).span.stop)
    have others := ih2 ((leaf op.rule (o + w.text.size) [op.symbol]).span.stop + x.text.size) ny
    have more := l.height_operand n
    rw [height_eq] at others
    simp only [tree, height_node, heightAll, height_leaf, height_parts, Category.height] at others ⊢
    omega

end Grammar.Derivation

/-- Where reading succeeds, less than `9 * maxDepth` nodes of the tree are above each other, however
long the text is.  So reading a node of the tree as an expression, searching from it and counting
its nodes are over after that many steps, whatever the recursion would go on to. -/
theorem height_parse (h : (parse t).issue.succeeded = true) :
    ∃ root, (parse t).root = some root ∧
      root.height < 9 * maxDepth ∧
      (∀ way, Node.IsWay (root :: way) → (root :: way).length < 9 * maxDepth) ∧
      ∀ n ∈ root.nodes,
        (∀ read, Node.exprStep^[9 * maxDepth] read n = n.toExpr) ∧
        (∀ p find, (Node.findStep p)^[9 * maxDepth] find n = n.find? p) ∧
        ∀ count, Node.sizeStep^[9 * maxDepth] count n = n.size := by
  rcases parse_cases t with ⟨x, w, r, nx, _, parsed⟩ | ⟨_, _, parsed⟩
  · have high : (x.tree 0).height < 9 * maxDepth :=
      Nat.lt_succ_of_le (x.height_tree 0 (Nat.le_sub_one_of_lt nx))
    refine ⟨x.tree 0, by rw [parsed], high, ?_, fun n inside => ?_⟩
    · intro way down
      exact ((Node.isGreatest_height _).2 ⟨way, down, rfl⟩).trans_lt high
    · have low : n.height ≤ 9 * maxDepth := (Node.height_le_of_mem_nodes inside).trans high.le
      refine ⟨fun read => ?_, fun p find => ?_, fun count => ?_⟩
      · exact Node.descending_exprStep.iterate Node.toExpr_eq_step read low
      · exact (Node.descending_findStep p).iterate (Node.find?_eq_step p) find low
      · exact Node.descending_sizeStep.iterate Node.size_eq_step count low
  · rw [parsed] at h
    cases h

/-! A text that is as high as can be. -/

namespace Grammar.Derivation

open Node

/-- An operand after `1+1*`. -/
def afterOnes (x : Derivation .operand) : Derivation (.chain .sum) :=
  .chain (.chain (default : Derivation .operand) .nil)
    (.cons .nil .add rfl
      (.chain (default : Derivation .operand) (.cons .nil .mul rfl x .nil)) .nil)

/-- Calls inside each other, each after `1+1*`. -/
def calls : Nat → Derivation (.chain .sum)
  | 0 => afterOnes default
  | n + 1 => afterOnes (.call .nil ⟨⟨['a'], List.forall_mem_singleton.mpr rfl⟩,
      List.cons_ne_nil _ _⟩ (.group .nil (calls n) .nil))

lemma nesting_default :
    nesting (k := Chain.product.operand) (default : Derivation .operand) = 0 := rfl

lemma height_default (o : Nat) :
    (tree (k := Chain.product.operand) (default : Derivation .operand) o).height = 2 := rfl

/-- Each call is one level of nesting. -/
lemma nesting_calls (n : Nat) : (calls n).nesting = n := by
  induction n with
  | zero => rfl
  | succ n ih => simp [calls, afterOnes, nesting, nesting_default, ih]

/-- Every call adds nine nodes to the longest way down. -/
lemma height_calls (n o : Nat) : ((calls n).tree o).height = 9 * n + 8 := by
  induction n generalizing o with
  | zero => rfl
  | succ n ih =>
    simp only [calls, afterOnes, tree, node, height_parts, heightAll, height_leaf, height_default,
      ih]
    omega

end Grammar.Derivation

/-- The tree of `calls 31` is as high as the bound allows. -/
theorem height_parse_calls :
    let t := (Derivation.calls 31).text
    (parse t).issue.succeeded = true ∧
      ∃ root, (parse t).root = some root ∧ root.height < 9 * maxDepth ∧
        9 * maxDepth ≤ root.height + 1 := by
  intro t
  have less : (Derivation.calls 31).nesting < maxDepth := by
    rw [Derivation.nesting_calls]
    exact Nat.lt_succ_self 31
  have parsed := parse_derived (w := .nil) less (List.append_nil t).symm
  have succeeded : (parse t).issue.succeeded = true := by rw [parsed]
  obtain ⟨root, read, high, _⟩ := height_parse succeeded
  refine ⟨succeeded, root, read, high, ?_⟩
  rw [parsed] at read
  cases read
  exact (congrArg (· + 1) (Derivation.height_calls 31 0)).ge

end Reckoner
