import Reckoner.Proofs.Tree.Formed

/-!
# Nothing of a text is lost in its tree

The tokens of a parse tree leave out nothing of the derived text but spaces (`covered_tree`, by
induction on derivations).  With what is known of its nodes, a tree gives back all that is
recognized of a text (`lossless_parse`).
-/

namespace Reckoner

open Grammar

/-- A token is the only token of its leaf. -/
lemma Node.tokens_leaf {rule : Rule} {o : Nat} {s : Text} (token : rule.isToken = true) :
    (leaf rule o s).tokens = [leaf rule o s] := by
  simp [tokens, leaf, outline, outlineAll, token]

/-- Every character of a text at offset `o` is a space, or one of the nodes covers it. -/
def Covered (o : Nat) (s : Text) (ns : List Node) : Prop :=
  ∀ (a : Text) (c : Char) (b : Text), s = a ++ c :: b →
    isSpace c = true ∨
    ∃ n ∈ ns, n.span.start ≤ o + a.size ∧ o + a.size + c.utf8Size ≤ n.span.stop

namespace Covered

variable {o : Nat} {s t : Text} {ns ms : List Node}

/-- The empty text is covered, whatever the tokens. -/
lemma nil : Covered o [] ns := by
  intro a c b eq
  cases a <;> cases eq

/-- Blanks need no token. -/
lemma blanks (w : Blanks) : Covered o w.text [] := by
  intro a c b eq
  refine .inl (w.all c ?_)
  rw [eq]
  exact List.mem_append_right a List.mem_cons_self

/-- A token covers its own text. -/
lemma leaf {rule : Rule} : Covered o s [.leaf rule o s] := by
  rintro a c b rfl
  refine .inr ⟨_, List.mem_singleton_self _, Nat.le_add_right .., ?_⟩
  simp only [Node.leaf, Text.size_append, Text.size_cons]
  omega

/-- What covers two texts covers them one after the other. -/
lemma append (h1 : Covered o s ns) (h2 : Covered (o + s.size) t ms) :
    Covered o (s ++ t) (ns ++ ms) := by
  intro a c b eq
  rcases List.append_eq_append_iff.mp eq with ⟨a', rfl, right⟩ | ⟨b', rfl, left⟩
  · rcases h2 a' c b right with space | ⟨n, mem, start, stop⟩
    · exact .inl space
    · have place : o + s.size + Text.size a' = o + Text.size (s ++ a') := by
        rw [Text.size_append, Nat.add_assoc]
      rw [place] at start stop
      exact .inr ⟨n, List.mem_append_right ns mem, start, stop⟩
  · cases b' with
    | nil =>
      rcases h2 [] c b left.symm with space | ⟨n, mem, start, stop⟩
      · exact .inl space
      · rw [List.append_nil, Text.size_nil, Nat.add_zero] at start stop
        exact .inr ⟨n, List.mem_append_right ns mem, start, stop⟩
    | cons c' b' =>
      obtain ⟨rfl, _⟩ := List.cons.inj left
      rcases h1 a c b' rfl with space | ⟨n, mem, within⟩
      · exact .inl space
      · exact .inr ⟨n, List.mem_append_left ms mem, within⟩

/-- A single character is covered by its token. -/
lemma symbol {c : Char} {rule : Rule} (h : Covered (o + c.utf8Size) s ns) :
    Covered o (c :: s) ([.leaf rule o [c]] ++ ns) :=
  append (s := [c]) leaf h

/-- Spaces before a covered text need no node. -/
lemma lead (w : Blanks) (h : Covered (o + w.text.size) s ns) : Covered o (w.text ++ s) ns :=
  (blanks w).append h

end Covered

namespace Grammar.Derivation

open Node

variable {k : Category} {l : Chain} {o : Nat}

/-- The tokens of links are those of its parts. -/
lemma tokens_links (y : Derivation (.links l)) :
    (y.tree o).tokens = (y.tree o).children.flatMap tokens := by
  cases y <;> exact tokens_parts rfl

/-- The tokens of a tree leave out nothing of the derived text but spaces. -/
theorem covered_tree (x : Derivation k) : Covered o x.text (x.tree o).tokens := by
  induction x generalizing o with
  | number w s =>
    rw [tree, node, tokens_parts rfl, List.flatMap_singleton, tokens_leaf rfl]
    exact .lead w .leaf
  | signed w op x ih =>
    rw [tree, node, tokens_parts rfl, List.flatMap_singleton, node, tokens_parts rfl,
      List.flatMap_cons, tokens_leaf op.isToken_rule, List.flatMap_singleton]
    exact .lead w (.symbol ih)
  | call w name x ih =>
    rw [tree, node, tokens_parts rfl, List.flatMap_singleton, node, tokens_parts rfl,
      List.flatMap_cons, tokens_leaf rfl, List.flatMap_singleton]
    exact .lead w (.append .leaf ih)
  | grouped x ih =>
    rw [tree, node, tokens_parts rfl, List.flatMap_singleton]
    exact ih
  | group w x w' ih =>
    rw [tree, node, tokens_parts rfl, List.flatMap_cons, tokens_leaf rfl, List.flatMap_cons,
      List.flatMap_singleton, tokens_leaf rfl]
    exact .lead w (.symbol (.append ih (.lead w' .leaf)))
  | @chain l x y ih1 ih2 =>
    have inner : l.rule.isToken = false := by cases l <;> rfl
    rw [tree, node, tokens_parts inner, List.flatMap_cons, List.flatMap_singleton]
    exact .append ih1 ih2
  | nil => exact .nil
  | @cons l w op joins x y ih1 ih2 =>
    rw [tree, node, tokens_parts rfl, List.flatMap_cons, tokens_parts rfl, ← tokens_links,
      List.flatMap_cons, tokens_leaf op.isToken_rule, List.flatMap_singleton, List.append_assoc]
    exact .lead w (.symbol (.append ih1 ih2))

end Grammar.Derivation

/-- A character that starts in a covered text is one of it, whatever comes after the text. -/
lemma Covered.of_append {o : Nat} {s r u v : Text} {c : Char} {ns : List Node} (h : Covered o s ns)
    (eq : s ++ r = u ++ c :: v) (less : u.size < s.size) :
    isSpace c = true ∨
    ∃ n ∈ ns, n.span.start ≤ o + u.size ∧ o + u.size + c.utf8Size ≤ n.span.stop := by
  rcases List.append_eq_append_iff.mp eq with ⟨a, rfl, _⟩ | ⟨b, rfl, right⟩
  · rw [Text.size_append] at less
    exact absurd less (Nat.not_lt.mpr (Nat.le_add_right ..))
  · cases b with
    | nil =>
      rw [List.append_nil] at less
      exact absurd less (Nat.lt_irrefl _)
    | cons d b =>
      obtain ⟨rfl, _⟩ := List.cons.inj right
      exact h u c b rfl

/-- Where reading succeeds, every node of the tree lies in what is recognized, between two
boundaries of characters, records the slice of the text there and is formed as its rule asks; and of
what is recognized every character that is no space is covered by a token. -/
theorem lossless_parse {t : Text} (h : (parse t).issue.succeeded = true) :
    ∃ root, (parse t).root = some root ∧ root.rule = .expr ∧
      (∀ n ∈ root.nodes,
        n.span.start ≤ n.span.stop ∧ n.span.stop ≤ (parse t).issue.consumed ∧
        t.IsBoundary n.span.start ∧ t.IsBoundary n.span.stop ∧
        n.text = t.slice n.span ∧ n.Formed) ∧
      ∀ (u : Text) (c : Char) (v : Text), t = u ++ c :: v → u.size < (parse t).issue.consumed →
        isSpace c = true ∨
        ∃ n ∈ root.tokens, n.span.start ≤ u.size ∧ u.size + c.utf8Size ≤ n.span.stop := by
  rcases parse_cases t with ⟨x, w, r, _, eq, parsed⟩ | ⟨_, _, parsed⟩
  · have nodes := x.faithful_tree (u := []) (v := w.text) (o := 0) rfl rfl
    have characters : Covered 0 (x.text ++ w.text) (x.tree 0).tokens := by
      have covered : Covered 0 _ (_ ++ []) := x.covered_tree.append (.blanks w)
      rwa [List.append_nil] at covered
    have whole : (x.text ++ w.text) ++ r = t := by rw [eq, List.append_assoc]
    have consumed : (parse t).issue.consumed = Text.size (x.text ++ w.text) := by
      rw [parsed, Text.size_append]
    refine ⟨x.tree 0, by rw [parsed], x.tree_rule 0, fun n mem => ?_, fun u c v split less => ?_⟩
    · obtain ⟨stands, formed⟩ := nodes n mem
      have inside := stands.append r
      rw [List.nil_append, whole] at inside
      refine ⟨stands.start_le_stop, ?_, inside.start_boundary, inside.stop_boundary,
        inside.text_eq, formed⟩
      rw [consumed]
      exact stands.stop_le
    · rw [consumed] at less
      have covered := characters.of_append (whole.trans split) less
      rwa [Nat.zero_add] at covered
  · rw [parsed] at h
    cases h

/-- In `(7 )` and a tab before `*é` all nodes end within five bytes, and the blank and the tab are
all that the tokens leave out of these. -/
theorem lossless_parse_parens :
    ∃ root, (parse ['(', '7', ' ', ')', '\t', '*', 'é']).root = some root ∧
      (∀ n ∈ root.nodes, n.span.stop ≤ 5) ∧
      ∀ (u : Text) (c : Char) (v : Text),
        ['(', '7', ' ', ')', '\t', '*', 'é'] = u ++ c :: v → u.size < 5 →
        isSpace c = true ∨
        ∃ n ∈ root.tokens, n.span.start ≤ u.size ∧ u.size + c.utf8Size ≤ n.span.stop := by
  have succeeded : (parse ['(', '7', ' ', ')', '\t', '*', 'é']).issue.succeeded = true := by
    decide +kernel
  have consumed : (parse ['(', '7', ' ', ')', '\t', '*', 'é']).issue.consumed = 5 := by
    decide +kernel
  obtain ⟨root, read, _, nodes, covered⟩ := lossless_parse succeeded
  rw [consumed] at nodes covered
  exact ⟨root, read, fun n mem => (nodes n mem).2.1, covered⟩

end Reckoner
