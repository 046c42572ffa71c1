import Reckoner.Proofs.Expr.Tokens
import Reckoner.Proofs.Text.Place

/-!
# The nodes of a parse tree

Every node of a parse tree stands in the text where its span says, its parts follow each other
inside it, and its tokens are spelled as their rules ask (`faithful_tree`).  The induction is on
derivations, whatever text stands around the derived one.
-/

namespace Reckoner

open Grammar

/-- The texts that a token may have. -/
def Rule.Spells : Rule → Text → Prop
  | .number, s => s ≠ [] ∧ ∀ c ∈ s, isNumeric c = true
  | .functionName, s => s ≠ [] ∧ ∀ c ∈ s, isLetter c = true
  | .plus, s => s = ['+']
  | .minus, s => s = ['-']
  | .star, s => s = ['*']
  | .slash, s => s = ['/']
  | .openParen, s => s = ['(']
  | .closeParen, s => s = [')']
  | _, _ => False

/-- From `start` on the nodes follow each other, none before the end of another, up to `stop`. -/
inductive Consecutive : (start : Nat) → List Node → (stop : Nat) → Prop where
  | nil {start stop} (le : start ≤ stop) : Consecutive start [] stop
  | cons {start stop n ns} (le : start ≤ n.span.start) (fits : n.span.start ≤ n.span.stop) :
    Consecutive n.span.stop ns stop →
    Consecutive start (n :: ns) stop

/-- What begins later may be said to begin earlier. -/
lemma Consecutive.mono {first start stop : Nat} {ns : List Node} (le : first ≤ start)
    (h : Consecutive start ns stop) : Consecutive first ns stop := by
  cases h with
  | nil le' => exact .nil (le.trans le')
  | cons le' fits more => exact .cons (le.trans le') fits more

namespace Node

variable {rule : Rule} {span : Span} {s t u v : Text} {n : Node} {ns : List Node} {o : Nat}

/-- The nodes of a tree: each before its parts, and those from the left. -/
def nodes (n : Node) : List Node := (n.outline 0).map (·.2)

/-- The text has what the node records where the node's span says. -/
def StandsIn (n : Node) (t : Text) : Prop :=
  ∃ u v : Text, t = u ++ (n.text ++ v) ∧ n.span = ⟨u.size, u.size + n.text.size⟩

/-- A node's parts follow each other inside it.  Only tokens and repetitions have none: a token is
spelled as its rule asks, and an empty repetition covers nothing right after the part before it. -/
structure Formed (n : Node) : Prop where
  parts : Consecutive n.span.start n.children n.span.stop
  token : n.rule.isToken = true → n.children = [] ∧ n.rule.Spells n.text
  leaf : n.children = [] → n.rule.isToken = true ∨ n.rule = .repetition
  hollow : ∀ before m after, n.children = before ++ m :: after → m.rule = .repetition →
    m.children = [] → ∃ a, before.getLast? = some a ∧ m.span = ⟨a.span.stop, a.span.stop⟩

/-- A node that stands in a text and is formed as its rule asks. -/
def Faithful (t : Text) (n : Node) : Prop := n.StandsIn t ∧ n.Formed

/-- The nodes of a tree are its root and the nodes of the root's parts. -/
lemma nodes_parts : nodes ⟨rule, span, s, ns⟩ = ⟨rule, span, s, ns⟩ :: ns.flatMap nodes := by
  have parts : ∀ ns : List Node, (outlineAll 1 ns).map (·.2) = ns.flatMap nodes := by
    intro ns
    induction ns with
    | nil => rfl
    | cons n ns ih =>
      rw [outlineAll, List.map_append, ih, outline_depth 1 0 n]
      rfl
  rw [nodes, outline, List.map_cons, parts]

/-- A node is among its own nodes. -/
lemma mem_nodes_self (n : Node) : n ∈ n.nodes := by
  obtain ⟨rule, span, s, ns⟩ := n
  rw [nodes_parts]
  exact List.mem_cons_self

/-- The nodes of a part are among those of the whole. -/
lemma mem_nodes_of_child {m p : Node} (child : n ∈ p.children) (mem : m ∈ n.nodes) :
    m ∈ p.nodes := by
  obtain ⟨rule, span, s, ns⟩ := p
  rw [nodes_parts]
  exact List.mem_cons_of_mem _ (List.mem_flatMap_of_mem child mem)

/-- What holds of a node and of the nodes of its parts holds of all nodes of a tree. -/
lemma forall_nodes {p : Node → Prop} (root : p ⟨rule, span, s, ns⟩)
    (parts : ∀ n ∈ ns, ∀ m ∈ n.nodes, p m) : ∀ m ∈ nodes ⟨rule, span, s, ns⟩, p m := by
  rw [nodes_parts, List.forall_mem_cons]
  refine ⟨root, fun m mem => ?_⟩
  obtain ⟨n, part, inner⟩ := List.mem_flatMap.mp mem
  exact parts n part m inner

/-- A node over parts that are no repetitions is formed if they follow each other. -/
lemma formed_of_parts (inner : n.rule.isToken = false) (some : n.children ≠ [])
    (full : ∀ m ∈ n.children, m.rule ≠ .repetition)
    (parts : Consecutive n.span.start n.children n.span.stop) : n.Formed where
  parts := parts
  token token := Bool.noConfusion (inner.symm.trans token)
  leaf none := absurd none some
  hollow before m after eq rule := by
    have mem : m ∈ n.children := by simp [eq]
    exact absurd rule (full m mem)

/-- A tree is faithful if its root stands in the text and the trees of its parts are faithful. -/
lemma faithful_parts (stands : StandsIn ⟨rule, span, s, ns⟩ t) (inner : rule.isToken = false)
    (some : ns ≠ []) (full : ∀ n ∈ ns, n.rule ≠ .repetition)
    (order : Consecutive span.start ns span.stop)
    (parts : ∀ n ∈ ns, ∀ m ∈ n.nodes, m.Faithful t) :
    ∀ m ∈ nodes ⟨rule, span, s, ns⟩, m.Faithful t :=
  forall_nodes ⟨stands, formed_of_parts inner some full order⟩ parts

/-- A leaf that its rule spells is faithful where it stands. -/
lemma faithful_leaf (token : rule.isToken = true) (spells : rule.Spells s)
    (start : o = u.size) (eq : t = u ++ (s ++ v)) :
    ∀ m ∈ (leaf rule o s).nodes, m.Faithful t := by
  apply forall_nodes
  · refine ⟨⟨u, v, eq, ?_⟩, ?_⟩
    · rw [start]
    · exact ⟨.nil (Nat.le_add_right ..), fun _ => ⟨rfl, spells⟩, fun _ => .inl token, by simp⟩
  · exact List.forall_mem_nil _

namespace StandsIn

/-- What stands in a text does not stop before its start. -/
lemma start_le_stop (h : n.StandsIn t) : n.span.start ≤ n.span.stop := by
  obtain ⟨u, v, _, span⟩ := h
  rw [span]
  exact Nat.le_add_right ..

/-- What stands in a text starts where a character does. -/
lemma start_boundary (h : n.StandsIn t) : t.IsBoundary n.span.start := by
  obtain ⟨u, v, rfl, span⟩ := h
  exact ⟨u, List.prefix_append .., by rw [span]⟩

/-- What stands in a text stops where a character does. -/
lemma stop_boundary (h : n.StandsIn t) : t.IsBoundary n.span.stop := by
  obtain ⟨u, v, rfl, span⟩ := h
  refine ⟨u ++ n.text, ?_, by rw [span, Text.size_append]⟩
  rw [← List.append_assoc]
  exact List.prefix_append ..

/-- What stands in a text is the slice of its span. -/
lemma text_eq (h : n.StandsIn t) : n.text = t.slice n.span := by
  obtain ⟨u, v, eq, span⟩ := h
  rw [span, Text.slice_middle rfl eq]

/-- What stands in a text stops within it. -/
lemma stop_le (h : n.StandsIn t) : n.span.stop ≤ t.size := by
  obtain ⟨u, v, rfl, span⟩ := h
  rw [span, Text.size_append, Text.size_append, ← Nat.add_assoc]
  exact Nat.le_add_right ..

/-- What stands at the front of a text stands in the whole. -/
lemma append (h : n.StandsIn t) (r : Text) : n.StandsIn (t ++ r) := by
  obtain ⟨u, v, rfl, span⟩ := h
  exact ⟨u, v ++ r, by simp, span⟩

end StandsIn

end Node

/-- No token is a repetition. -/
lemma Rule.ne_repetition {rule : Rule} (token : rule.isToken = true) : rule ≠ .repetition := by
  rintro rfl
  cases token

/-- The rule of a sign is a token. -/
lemma UnaryOp.isToken_rule (op : UnaryOp) : op.rule.isToken = true := by cases op <;> rfl

/-- A sign is spelled by its symbol. -/
lemma UnaryOp.spells_rule (op : UnaryOp) : op.rule.Spells [op.symbol] := by cases op <;> rfl

/-- The rule of an operator is a token. -/
lemma BinaryOp.isToken_rule (op : BinaryOp) : op.rule.isToken = true := by cases op <;> rfl

/-- An operator is spelled by its symbol. -/
lemma BinaryOp.spells_rule (op : BinaryOp) : op.rule.Spells [op.symbol] := by cases op <;> rfl

/-- No links are the operand of a chain. -/
lemma Chain.operand_ne_links (l m : Chain) : l.operand ≠ .links m := by cases l <;> exact nofun

namespace Grammar.Derivation

open Node

variable {k : Category} {l : Chain} {rule : Rule} {s t u v : Text} {o stop : Nat} {ns : List Node}

/-- The blanks before a derivation are part of its text. -/
lemma lead_le (x : Derivation k) : x.lead.size ≤ x.text.size := by
  rw [← x.lead_append_body, Text.size_append]
  exact Nat.le_add_right ..

/-- A token and what follows from its end on are consecutive. -/
lemma consecutive_leaf (more : Consecutive (o + s.size) ns stop) :
    Consecutive o (leaf rule o s :: ns) stop :=
  .cons le_rfl (Nat.le_add_right ..) more

/-- A tree and what follows from the end of its text on are consecutive. -/
lemma consecutive_tree {x : Derivation k} (more : Consecutive (o + x.text.size) ns stop) :
    Consecutive o (x.tree o :: ns) stop := by
  have start := x.span_start_tree o
  have fits := x.lead_le
  refine .cons ?_ ?_ ?_
  · rw [start]
    exact Nat.le_add_right ..
  · rw [start, x.tree_span, span]
    exact Nat.add_le_add_left fits o
  · rwa [x.tree_span]

/-- What a derivation covers stands in the text around it. -/
lemma standsIn_node {x : Derivation k} (start : o = u.size) (eq : t = u ++ (x.text ++ v)) :
    (x.node rule o ns).StandsIn t := by
  refine ⟨u ++ x.lead, v, ?_, ?_⟩
  · rw [eq, ← x.lead_append_body, List.append_assoc, List.append_assoc]
    rfl
  · have size := congrArg Text.size x.lead_append_body
    rw [Text.size_append] at size
    simp only [node, span, start, Text.size_append, Nat.add_assoc, size]

/-- An operand is faithful where its only part is. -/
lemma faithful_operand {x : Derivation .operand} (start : o = u.size)
    (eq : t = u ++ (x.text ++ v)) (part : ∀ n ∈ (x.alternative o).nodes, n.Faithful t) :
    ∀ n ∈ (x.tree o).nodes, n.Faithful t := by
  have span := x.alternative_span o
  have rule : (x.alternative o).rule ≠ .repetition := by
    cases x with
    | grouped inner => exact ne_of_eq_of_ne (inner.tree_rule o) nofun
    | _ => exact nofun
  rw [tree_operand]
  apply forall_nodes
  · refine ⟨standsIn_node start eq, formed_of_parts rfl (List.cons_ne_nil _ _) ?_ ?_⟩
    · exact List.forall_mem_singleton.mpr rule
    · have fits := x.lead_le
      refine .cons (le_of_eq ?_) ?_ (.nil (le_of_eq ?_))
      · rw [span]
      · rw [span]
        exact Nat.add_le_add_left fits o
      · rw [span]
  · exact List.forall_mem_singleton.mpr part

/-- Every part of links is a link. -/
lemma rule_of_mem_links (y : Derivation (.links l)) :
    ∀ n ∈ (y.tree o).children, n.rule = .link := by
  generalize e : Category.links l = k at y
  induction y generalizing o with
  | nil => exact List.forall_mem_nil _
  | cons w op joins x y _ ih => exact List.forall_mem_cons.mpr ⟨rfl, ih e⟩
  | _ => cases e

/-- Only links have a repetition for a tree. -/
lemma rule_tree (x : Derivation k) (other : ∀ l, k ≠ .links l) :
    (x.tree o).rule ≠ .repetition := by
  rw [x.tree_rule]
  cases k with
  | links l => exact absurd rfl (other l)
  | chain l => cases l <;> exact nofun
  | _ => exact nofun

/-- Links without parts cover nothing. -/
lemma span_of_no_links (y : Derivation (.links l)) (none : (y.tree o).children = []) :
    (y.tree o).span = ⟨o, o⟩ := by
  cases y with
  | nil => rfl
  | cons w op joins x y => cases none

/-- In a chain only the links may be empty, and then they are right after the first operand. -/
lemma hollow_chain (x : Derivation l.operand) (y : Derivation (.links l)) {before after : List Node}
    {m : Node} (eq : [x.tree o, y.tree (o + x.text.size)] = before ++ m :: after)
    (rule : m.rule = .repetition) (none : m.children = []) :
    ∃ a, before.getLast? = some a ∧ m.span = ⟨a.span.stop, a.span.stop⟩ := by
  cases before with
  | nil =>
    obtain ⟨rfl, _⟩ := List.cons.inj eq
    exact absurd rule (x.rule_tree l.operand_ne_links)
  | cons a before =>
    obtain ⟨rfl, others⟩ := List.cons.inj eq
    cases before with
    | nil =>
      obtain ⟨rfl, _⟩ := List.cons.inj others
      exact ⟨x.tree o, rfl, by rw [y.span_of_no_links none, x.tree_span, span]⟩
    | cons b before => cases before <;> cases others

/-- A node over a token and what is derived right after it is faithful if the latter is. -/
lemma faithful_pair {x : Derivation k} {outer : Rule} {a b c : Nat} {whole : Text}
    (stands : StandsIn ⟨outer, ⟨a, b⟩, whole, [leaf rule a s, x.tree c]⟩ t)
    (inner : outer.isToken = false) (token : rule.isToken = true) (spells : rule.Spells s)
    (other : ∀ l, k ≠ .links l) (start : a = u.size) (eq : t = u ++ (s ++ v))
    (next : c = a + s.size) (stop : c + x.text.size = b)
    (right : ∀ n ∈ (x.tree c).nodes, n.Faithful t) :
    ∀ n ∈ nodes ⟨outer, ⟨a, b⟩, whole, [leaf rule a s, x.tree c]⟩, n.Faithful t := by
  have left : ∀ n ∈ (leaf rule a s).nodes, n.Faithful t := faithful_leaf token spells start eq
  subst next stop
  apply faithful_parts stands inner (List.cons_ne_nil _ _)
  · exact List.forall_mem_cons.mpr
      ⟨Rule.ne_repetition token, List.forall_mem_singleton.mpr (x.rule_tree other)⟩
  · exact consecutive_leaf (consecutive_tree (.nil le_rfl))
  · exact List.forall_mem_cons.mpr ⟨left, List.forall_mem_singleton.mpr right⟩

/-- A link is an operator and the operand after it. -/
lemma faithful_link (x : Derivation l.operand) (op : BinaryOp) (start : o = u.size)
    (eq : t = u ++ (op.symbol :: (x.text ++ v)))
    (operand : ∀ n ∈ (x.tree (Span.ofChar o op.symbol).stop).nodes, n.Faithful t) :
    let right := (Span.ofChar o op.symbol).stop
    ∀ n ∈ nodes ⟨.link, ⟨o, right + x.text.size⟩, op.symbol :: x.text,
        [leaf op.rule o [op.symbol], x.tree right]⟩, n.Faithful t := by
  refine faithful_pair ?_ rfl op.isToken_rule op.spells_rule l.operand_ne_links start eq rfl rfl
    operand
  exact ⟨u, v, eq, by simp [start, Span.ofChar, Nat.add_assoc]⟩

/-- Every node of a tree is faithful to the text that the derivation stands in. -/
theorem faithful_tree (x : Derivation k) (start : o = u.size) (eq : t = u ++ (x.text ++ v)) :
    ∀ n ∈ (x.tree o).nodes, n.Faithful t := by
  induction x generalizing o u v with
  | number w s =>
    have spells : Rule.number.Spells s.text := ⟨s.nonempty, s.all⟩
    apply faithful_operand start eq
    apply faithful_leaf (u := u ++ w.text) (v := v) rfl spells
    · rw [start, Text.size_append]
    · simp [eq, text]
  | signed w op x ih =>
    have operand : ∀ n ∈ (x.tree (Span.ofChar (o + w.text.size) op.symbol).stop).nodes,
        n.Faithful t := by
      apply ih (u := u ++ (w.text ++ [op.symbol])) (v := v)
      · simp [start, Span.ofChar, Nat.add_assoc]
      · simp [eq, text]
    apply faithful_operand start eq
    refine faithful_pair (x := x) (u := u ++ w.text) (v := x.text ++ v) (standsIn_node start eq) rfl
      op.isToken_rule op.spells_rule (by simp) ?_ ?_ rfl ?_ operand
    · rw [start, Text.size_append]
      rfl
    · simp [eq, text]
    · simp [leaf, text, Nat.add_assoc]
  | call w name x ih =>
    have spells : Rule.functionName.Spells name.text := ⟨name.nonempty, name.all⟩
    have argument : ∀ n ∈ (x.tree (o + w.text.size + name.text.size)).nodes, n.Faithful t := by
      apply ih (u := u ++ (w.text ++ name.text)) (v := v)
      · simp [start, Nat.add_assoc]
      · simp [eq, text]
    apply faithful_operand start eq
    refine faithful_pair (x := x) (u := u ++ w.text) (v := x.text ++ v) (standsIn_node start eq) rfl
      rfl spells (by simp) ?_ ?_ rfl ?_ argument
    · rw [start, Text.size_append]
      rfl
    · simp [eq, text]
    · simp [leaf, text, Nat.add_assoc]
  | grouped x ih => exact faithful_operand start eq (ih start eq)
  | group w x w' ih =>
    let inside := (Span.ofChar (o + w.text.size) '(').stop
    have opens : Rule.openParen.Spells ['('] := rfl
    have closes : Rule.closeParen.Spells [')'] := rfl
    have opened : ∀ n ∈ (leaf .openParen (o + w.text.size) ['(']).nodes, n.Faithful t := by
      apply faithful_leaf (u := u ++ w.text) (v := x.text ++ (w'.text ++ (')' :: v))) rfl opens
      · rw [start, Text.size_append]
      · simp [eq, text]
    have inner : ∀ n ∈ (x.tree inside).nodes, n.Faithful t := by
      apply ih (u := u ++ (w.text ++ ['('])) (v := w'.text ++ (')' :: v))
      · simp [start, inside, Span.ofChar, Nat.add_assoc]
      · simp [eq, text]
    have closed : ∀ n ∈ (leaf .closeParen (inside + x.text.size + w'.text.size) [')']).nodes,
        n.Faithful t := by
      apply faithful_leaf (u := u ++ (w.text ++ ('(' :: (x.text ++ w'.text)))) (v := v) rfl closes
      · simp [start, inside, Span.ofChar, Nat.add_assoc]
      · simp [eq, text]
    apply faithful_parts (standsIn_node start eq) rfl (List.cons_ne_nil _ _)
    · exact List.forall_mem_cons.mpr ⟨Rule.ne_repetition rfl, List.forall_mem_cons.mpr
        ⟨x.rule_tree (by simp), List.forall_mem_singleton.mpr (Rule.ne_repetition rfl)⟩⟩
    · refine consecutive_leaf (consecutive_tree (.mono (Nat.le_add_right _ w'.text.size) ?_))
      refine consecutive_leaf (.nil ?_)
      simp [span, lead, text, Nat.add_assoc]
    · exact List.forall_mem_cons.mpr ⟨opened, List.forall_mem_cons.mpr
        ⟨inner, List.forall_mem_singleton.mpr closed⟩⟩
  | @chain l x y ih1 ih2 =>
    have first := ih1 (u := u) (v := y.text ++ v) start (by simp [eq, text])
    have others := ih2 (u := u ++ x.text) (v := v) (o := o + x.text.size)
      (by simp [start]) (by simp [eq, text])
    have order : Consecutive o [x.tree o, y.tree (o + x.text.size)] (o + (chain x y).text.size) := by
      refine consecutive_tree (consecutive_tree (.nil ?_))
      simp [text, Nat.add_assoc]
    apply forall_nodes
    · refine ⟨standsIn_node start eq, ?_, ?_, ?_, ?_⟩
      · cases order with
        | cons _ fits more => exact .cons (le_of_eq (x.span_start_tree o).symm) fits more
      · cases l <;> rintro ⟨⟩
      · rintro ⟨⟩
      · exact fun _ _ _ => hollow_chain x y
    · exact List.forall_mem_cons.mpr ⟨first, List.forall_mem_singleton.mpr others⟩
  | nil =>
    apply forall_nodes
    · exact ⟨standsIn_node start eq, .nil le_rfl, by rintro ⟨⟩, fun _ => .inr rfl, by simp⟩
    · exact List.forall_mem_nil _
  | @cons l w op joins x y ih1 ih2 =>
    let right := (Span.ofChar (o + w.text.size) op.symbol).stop
    have operand : ∀ n ∈ (x.tree right).nodes, n.Faithful t := by
      apply ih1 (u := u ++ (w.text ++ [op.symbol])) (v := y.text ++ v)
      · simp [start, right, Span.ofChar, Nat.add_assoc]
      · simp [eq, text]
    have link := x.faithful_link (u := u ++ w.text) (v := y.text ++ v) op
      (by simp [start]) (by simp [eq, text]) operand
    have others : ∀ n ∈ (y.tree (right + x.text.size)).nodes, n.Faithful t := by
      apply ih2 (u := u ++ (w.text ++ (op.symbol :: x.text))) (v := v)
      · simp [start, right, Span.ofChar, Nat.add_assoc]
      · simp [eq, text]
    have stop : right + x.text.size + y.text.size = o + (cons w op joins x y).text.size := by
      simp [right, Span.ofChar, text, Nat.add_assoc]
    -- The links after this one follow each other already, and none of them starts before its end.
    have rest := (others _ (mem_nodes_self _)).2.parts
    rw [y.tree_span, span, stop] at rest
    apply faithful_parts (standsIn_node start eq) rfl (List.cons_ne_nil _ _)
    · refine List.forall_mem_cons.mpr ⟨by rintro ⟨⟩, fun n mem => ?_⟩
      rw [y.rule_of_mem_links n mem]
      rintro ⟨⟩
    · have fits := (link _ (mem_nodes_self _)).1.start_le_stop
      exact .cons le_rfl fits (rest.mono (Nat.le_add_right ..))
    · exact List.forall_mem_cons.mpr
        ⟨link, fun n child m mem => others m (mem_nodes_of_child child mem)⟩

end Grammar.Derivation

end Reckoner
