import Reckoner.Text.Basic
import Reckoner.Tree.Rule

/-!
# Parse trees

A node records the rule applied, the span it covers, the text there, and its parts in order.
Searches go depth first from the left and start at the node itself, so the first hit in the order
of `outline` wins.  Main statements: whatever a search finds is part of the tree, and smaller than
it unless the root itself was found (`size_lt_of_find?`, `size_lt_of_child?`), so recursion may
follow a search.
-/

namespace Reckoner

/-- An application of a rule to a piece of text. -/
structure Node where
  rule : Rule
  span : Span
  text : Text
  children : List Node

namespace Node

instance : Inhabited Node := ⟨⟨default, default, [], []⟩⟩

/-- The node of a rule over the given parts: it runs from the first part to the last, and covers
nothing at `fallback` if there is none.  `extract` gives the text of a span. -/
def compose (extract : Span → Text) (rule : Rule) (children : List Node) (fallback : Nat) : Node :=
  let span :=
    match children.head?, children.getLast? with
    | some first, some last => ⟨first.span.start, last.span.stop⟩
    | _, _ => ⟨fallback, fallback⟩
  ⟨rule, span, extract span, children⟩

/-- A node without parts. -/
def isLeaf (n : Node) : Bool := n.children.isEmpty

/-- The first of the parts that applies `rule`. -/
def child? (n : Node) (rule : Rule) : Option Node := n.children.find? (·.rule = rule)

mutual
/-- The number of nodes of a tree. -/
def size : Node → Nat
  | ⟨_, _, _, children⟩ => 1 + sizeAll children

/-- The number of nodes of a list of trees. -/
def sizeAll : List Node → Nat
  | [] => 0
  | n :: ns => size n + sizeAll ns
end

mutual
/-- The first node, in depth and from the left, whose rule satisfies `p`. -/
def find? (p : Rule → Bool) : Node → Option Node
  | ⟨rule, span, text, children⟩ =>
    if p rule then some ⟨rule, span, text, children⟩ else findAmong? p children

/-- The first such node of a list of trees. -/
def findAmong? (p : Rule → Bool) : List Node → Option Node
  | [] => none
  | n :: ns => (find? p n).or (findAmong? p ns)
end

/-- The first node that applies `rule`. -/
def findRule? (n : Node) (rule : Rule) : Option Node := n.find? (· = rule)

mutual
/-- The nodes of a tree with their depths: each node, then its parts from the left. -/
def outline (depth : Nat) : Node → List (Nat × Node)
  | ⟨rule, span, text, children⟩ =>
    (depth, ⟨rule, span, text, children⟩) :: outlineAll (depth + 1) children

/-- The nodes of a list of trees that stand at the given depth. -/
def outlineAll (depth : Nat) : List Node → List (Nat × Node)
  | [] => []
  | n :: ns => outline depth n ++ outlineAll depth ns
end

mutual
/-- A node found is no larger than the tree it was found in. -/
theorem size_le_of_find? {p : Rule → Bool} {m : Node} :
    ∀ {n : Node}, n.find? p = some m → m.size ≤ n.size
  | ⟨rule, span, text, children⟩, h => by
    rw [find?] at h
    split at h
    · cases h; exact Nat.le_refl _
    · have := size_le_of_findAmong? h
      simp only [size]
      omega

/-- A node that is found in a list of trees is no larger than all of them. -/
theorem size_le_of_findAmong? {p : Rule → Bool} {m : Node} :
    ∀ {ns : List Node}, findAmong? p ns = some m → m.size ≤ sizeAll ns
  | [], h => by simp [findAmong?] at h
  | n :: ns, h => by
    rw [findAmong?, Option.or_eq_some_iff] at h
    rcases h with h | ⟨_, h⟩
    · have := size_le_of_find? h
      simp only [sizeAll]
      omega
    · have := size_le_of_findAmong? h
      simp only [sizeAll]
      omega
end

/-- A node found that is not the root is smaller than the whole tree. -/
theorem size_lt_of_find? {p : Rule → Bool} {n m : Node} (h : n.find? p = some m)
    (root : p n.rule = false) : m.size < n.size := by
  obtain ⟨rule, span, text, children⟩ := n
  simp only at root
  rw [find?, root] at h
  have := size_le_of_findAmong? (by simpa using h)
  simp only [size]
  omega

/-- A node found from a node of another rule is smaller. -/
theorem size_lt_of_findRule? {rule : Rule} {n m : Node} (h : n.findRule? rule = some m)
    (root : n.rule ≠ rule) : m.size < n.size :=
  size_lt_of_find? h (by simpa using root)

/-- No tree of a list is larger than all of them. -/
theorem size_le_sizeAll {m : Node} {ns : List Node} (h : m ∈ ns) : m.size ≤ sizeAll ns := by
  induction ns with
  | nil => cases h
  | cons n ns ih =>
    simp only [sizeAll]
    cases h with
    | head => omega
    | tail _ h => have := ih h; omega

/-- The sizes of a list of trees add up. -/
@[simp] theorem sizeAll_cons (n : Node) (ns : List Node) :
    sizeAll (n :: ns) = n.size + sizeAll ns := by
  rw [sizeAll]

/-- A node counts one more than its parts. -/
theorem size_eq (n : Node) : n.size = 1 + sizeAll n.children := by
  cases n
  rfl

/-- A part is smaller than its node. -/
theorem size_lt_of_mem {n m : Node} (h : m ∈ n.children) : m.size < n.size := by
  have := size_le_sizeAll h
  have := size_eq n
  omega

/-- A part that is found by its rule is smaller than its node. -/
theorem size_lt_of_child? {n m : Node} {rule : Rule} (h : n.child? rule = some m) :
    m.size < n.size :=
  size_lt_of_mem (List.mem_of_find?_eq_some h)

end Node

end Reckoner
