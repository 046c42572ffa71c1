import Reckoner.Grammar.Cursor
import Reckoner.Grammar.Refusal
import Reckoner.Tree.Node

/-!
# Readers

A reader turns the text at a cursor into a node and the cursor after it.  Readers shorten what
remains whenever they succeed, which is part of their type, so they can be repeated.
-/

namespace Reckoner

/-- A node read and the cursor after it, or a refusal. -/
abbrev Reading := Except Refusal (Node × Cursor)

/-- A way to read one node. -/
structure Reader where
  read : Cursor → Reading
  shortens : ∀ {c : Cursor} {n : Node} {d : Cursor},
    read c = .ok (n, d) → d.rest.length < c.rest.length

namespace Reader

/-- Reads a leaf after any spaces.  `lexeme` counts the characters that belong to it at the front
of a text; none means there is no such leaf here. -/
def token (rule : Rule) (lexeme : Text → Nat) : Reader where
  read c :=
    let start := c.skipSpaces
    let text := start.rest.take (lexeme start.rest)
    let next := start.advance text.length
    if text.isEmpty then .error ⟨false, []⟩
    else .ok (⟨rule, ⟨start.offset, next.offset⟩, text, []⟩, next)
  shortens {c n d} h := by
    have := c.length_skipSpaces_le
    simp only at h
    split at h
    case isTrue => cases h
    case isFalse nonempty =>
      cases h
      have some : c.skipSpaces.rest.length ≠ 0 := by
        intro none
        simp [List.eq_nil_of_length_eq_zero none] at nonempty
      have lexeme : lexeme c.skipSpaces.rest ≠ 0 := by
        intro none
        simp [none] at nonempty
      simp only [Cursor.length_advance, List.length_take]
      omega

/-- Reads the longest run of characters of a class. -/
def run (rule : Rule) (p : Char → Bool) : Reader := token rule fun t => (t.takeWhile p).length

/-- Reads one given character. -/
def symbol (rule : Rule) (c : Char) : Reader :=
  token rule fun t => if t.head? = some c then 1 else 0

/-- Names the construct that a reader reads, for the report of a refusal. -/
def labelled (label : Label) (r : Reader) : Reader where
  read c := (r.read c).mapError fun refusal => refusal.within c.offset label
  shortens {c n d} h := by
    cases read : r.read c with
    | error e => rw [read] at h; cases h
    | ok result =>
      rw [read] at h
      cases h
      exact r.shortens read

/-- Reads with the second reader where the first one refuses, unless that is final. -/
def orElse (first second : Reader) : Reader where
  read c :=
    match first.read c with
    | .ok result => .ok result
    | .error refusal => if refusal.isFinal then .error refusal else second.read c
  shortens {c n d} h := by
    split at h
    case h_1 read =>
      cases h
      exact first.shortens read
    case h_2 =>
      split at h
      · cases h
      · exact second.shortens h

instance : OrElse Reader := ⟨fun first second => first.orElse (second ())⟩

/-- Reads one node after the other. -/
def readAll : List Reader → Cursor → Except Refusal (List Node × Cursor)
  | [], c => .ok ([], c)
  | r :: rs, c =>
    match r.read c with
    | .error refusal => .error refusal
    | .ok (n, d) =>
      match readAll rs d with
      | .error refusal => .error refusal
      | .ok (ns, e) => .ok (n :: ns, e)

/-- A sequence does not lengthen what remains. -/
theorem length_le_of_readAll {rs : List Reader} {c : Cursor} {ns : List Node} {d : Cursor}
    (h : readAll rs c = .ok (ns, d)) : d.rest.length ≤ c.rest.length := by
  induction rs generalizing c ns d with
  | nil => cases h; exact Nat.le_refl _
  | cons r rs ih =>
    simp only [readAll] at h
    split at h
    case h_1 => cases h
    case h_2 read =>
      split at h
      case h_1 => cases h
      case h_2 others =>
        cases h
        have := r.shortens read
        have := ih others
        omega

/-- Reads the parts of a rule in order. -/
def node (rule : Rule) (first : Reader) (others : List Reader) : Reader where
  read c :=
    match first.read c with
    | .error refusal => .error refusal
    | .ok (n, d) =>
      match readAll others d with
      | .error refusal => .error refusal
      | .ok (ns, e) => .ok (.compose c.extract rule (n :: ns) c.offset, e)
  shortens {c n d} h := by
    split at h
    case h_1 => cases h
    case h_2 read =>
      split at h
      case h_1 => cases h
      case h_2 others =>
        cases h
        have := first.shortens read
        have := length_le_of_readAll others
        omega

/-- Reads as many nodes as there are.  The one that refuses is left unread; a final refusal stands
for the whole. -/
def readMany (r : Reader) (c : Cursor) : Except Refusal (List Node × Cursor) :=
  match h : r.read c with
  | .error refusal => if refusal.isFinal then .error refusal else .ok ([], c)
  | .ok (n, d) =>
    have := r.shortens h
    match readMany r d with
    | .error refusal => .error refusal
    | .ok (ns, e) => .ok (n :: ns, e)
termination_by c.rest.length

/-- A repetition does not lengthen what remains. -/
theorem length_le_of_readMany {r : Reader} {c : Cursor} {ns : List Node} {d : Cursor}
    (h : readMany r c = .ok (ns, d)) : d.rest.length ≤ c.rest.length := by
  fun_induction readMany r c generalizing ns d with
  | case1 => cases h
  | case2 => cases h; exact Nat.le_refl _
  | case3 => cases h
  | case4 c n d read shorter ns e others ih =>
    cases h
    have := ih others
    omega

/-- Reads an operand, then any number of links of an operator and an operand. -/
def chain (rule : Rule) (operand operator : Reader) : Reader where
  read c :=
    match operand.read c with
    | .error refusal => .error refusal
    | .ok (first, d) =>
      match readMany (node .link operator [operand]) d with
      | .error refusal => .error refusal
      | .ok (links, e) =>
        let repetition := Node.compose c.extract .repetition links d.offset
        .ok (.compose c.extract rule [first, repetition] first.span.start, e)
  shortens {c n d} h := by
    split at h
    case h_1 => cases h
    case h_2 read =>
      split at h
      case h_1 => cases h
      case h_2 links =>
        cases h
        have := operand.shortens read
        have := length_le_of_readMany links
        omega

/-- Reads inside one more open operand. -/
def nested (r : Reader) : Reader where
  read c :=
    match r.read { c with depth := c.depth + 1 } with
    | .error refusal => .error refusal
    | .ok (n, d) => .ok (n, { d with depth := c.depth })
  shortens {c n d} h := by
    split at h
    case h_1 => cases h
    case h_2 read =>
      cases h
      have := r.shortens read
      exact this

/-- Refuses for good: an operand here would be one too deep. -/
def tooDeep : Reader where
  read c := .error ⟨true, [(c.offset, .nestingDepth)]⟩
  shortens h := by cases h

end Reader

end Reckoner
