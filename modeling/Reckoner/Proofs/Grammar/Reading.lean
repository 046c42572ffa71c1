import Mathlib.Tactic.Lemma
import Reckoner.Grammar.Reader

/-!
# When readers read

What the readers of rules read and which refusals they answer, in terms of the readers of their
parts: two equivalences for each way to put readers together.  A reader *refuses* where it answers
with a refusal that is not final; that is what alternatives and repetitions go on from.
-/

namespace Reckoner.Reader

variable {r first second third operand operator : Reader} {rs : List Reader}
variable {label : Label} {rule : Rule}
variable {c d e f : Cursor} {n m : Node} {ns : List Node} {refusal : Refusal}

/-- There is nothing here for the reader, and others may try. -/
def Refuses (r : Reader) (c : Cursor) : Prop := ∃ trail, r.read c = .error ⟨false, trail⟩

/-- A refusal that is not final is one that others may follow. -/
lemma refuses_of_error (h : r.read c = .error refusal) (tentative : refusal.isFinal = false) :
    r.Refuses c := by
  cases refusal
  cases tentative
  exact ⟨_, h⟩

/-- A named construct is read where the reader of it reads. -/
@[simp] lemma labelled_ok : (labelled label r).read c = .ok (n, d) ↔ r.read c = .ok (n, d) := by
  change (r.read c).mapError _ = _ ↔ _
  cases r.read c with
  | error refusal => exact iff_of_false nofun nofun
  | ok result => exact Iff.rfl

/-- A refusal of a named construct is the one of its reader, with the name added. -/
lemma labelled_error : (labelled label r).read c = .error refusal ↔
    ∃ inner, r.read c = .error inner ∧ refusal = inner.within c.offset label := by
  change (r.read c).mapError _ = _ ↔ _
  cases r.read c with
  | error inner =>
    constructor
    · rintro ⟨⟩
      exact ⟨inner, rfl, rfl⟩
    · rintro ⟨_, ⟨⟩, rfl⟩
      rfl
  | ok result =>
    constructor
    · rintro ⟨⟩
    · rintro ⟨_, ⟨⟩, _⟩

/-- A named construct is not there where there is nothing for the reader of it. -/
lemma labelled_refuses (h : r.Refuses c) : (labelled label r).Refuses c := by
  obtain ⟨trail, eq⟩ := h
  refine ⟨trail ++ [(c.offset, label)], ?_⟩
  change (r.read c).mapError _ = _
  rw [eq]
  rfl

/-- The first alternative is taken where it reads. -/
lemma orElse_left (h : first.read c = .ok (n, d)) : (first <|> second).read c = .ok (n, d) := by
  show (first.orElse second).read c = _
  simp [orElse, h]

/-- The second alternative is left where there is nothing for the first. -/
lemma orElse_right (h : first.Refuses c) : (first <|> second).read c = second.read c := by
  obtain ⟨trail, eq⟩ := h
  show (first.orElse second).read c = _
  simp [orElse, eq]

/-- What alternatives read is read by one of them. -/
lemma orElse_ok (h : (first <|> second).read c = .ok (n, d)) :
    first.read c = .ok (n, d) ∨ second.read c = .ok (n, d) := by
  change (first.orElse second).read c = _ at h
  simp only [orElse] at h
  split at h
  case h_1 eq => cases h; exact .inl eq
  case h_2 =>
    split at h
    · cases h
    · exact .inr h

/-- The first alternative refuses for good, or the second one refuses after it. -/
lemma orElse_error : (first <|> second).read c = .error refusal ↔
    (first.read c = .error refusal ∧ refusal.isFinal = true) ∨
    (first.Refuses c ∧ second.read c = .error refusal) := by
  change (first.orElse second).read c = _ ↔ _
  simp only [orElse]
  cases eq : first.read c with
  | ok result => simp [Refuses, eq]
  | error inner =>
    obtain ⟨isFinal, trail⟩ := inner
    constructor
    · intro h
      cases isFinal with
      | false => exact .inr ⟨⟨trail, eq⟩, h⟩
      | true => cases h; exact .inl ⟨rfl, rfl⟩
    · rintro (⟨⟨⟩, final⟩ | ⟨⟨_, again⟩, h⟩)
      · exact if_pos final
      · cases eq.symm.trans again
        exact h

/-- There is nothing for alternatives where there is nothing for either. -/
lemma orElse_refuses (h1 : first.Refuses c) (h2 : second.Refuses c) :
    (first <|> second).Refuses c := by
  obtain ⟨trail, eq⟩ := h2
  exact ⟨trail, by rw [orElse_right h1, eq]⟩

/-- Reading nothing stays where it is. -/
@[simp] lemma readAll_nil : readAll [] c = .ok (ns, d) ↔ ns = [] ∧ d = c := by
  simp [readAll, eq_comm]

/-- A sequence is read if its first reader reads and the others read on. -/
@[simp] lemma readAll_cons : readAll (r :: rs) c = .ok (ns, e) ↔
    ∃ n d others, r.read c = .ok (n, d) ∧ readAll rs d = .ok (others, e) ∧ ns = n :: others := by
  constructor
  · intro h
    simp only [readAll] at h
    split at h
    case h_1 => cases h
    case h_2 n d eq =>
      split at h
      case h_1 => cases h
      case h_2 others _ eqs => cases h; exact ⟨n, d, others, eq, eqs, rfl⟩
  · rintro ⟨n, d, others, eq, eqs, rfl⟩
    simp [readAll, eq, eqs]

/-- A sequence is refused at its first reader, or at the others after it. -/
lemma readAll_cons_error : readAll (r :: rs) c = .error refusal ↔
    r.read c = .error refusal ∨
    ∃ n d, r.read c = .ok (n, d) ∧ readAll rs d = .error refusal := by
  simp only [readAll]
  cases r.read c with
  | error inner => simp
  | ok result =>
    obtain ⟨n, d⟩ := result
    cases eqs : readAll rs d <;> simp [eqs, and_assoc]

/-- A sequence of one reader is refused where that is, since reading nothing succeeds. -/
lemma readAll_one_error : readAll [r] c = .error refusal ↔ r.read c = .error refusal :=
  readAll_cons_error.trans (or_iff_left fun ⟨_, _, _, refused⟩ => nomatch refused)

/-- A sequence of two readers is refused at the first, or at the second after it. -/
lemma readAll_two_error : readAll [first, second] c = .error refusal ↔
    first.read c = .error refusal ∨
    ∃ n d, first.read c = .ok (n, d) ∧ second.read d = .error refusal := by
  rw [readAll_cons_error]
  simp only [readAll_one_error]

/-- A node is read if its parts are, and spans what they take up. -/
lemma node_ok : (node rule first rs).read c = .ok (m, e) ↔
    ∃ ns, readAll (first :: rs) c = .ok (ns, e) ∧ m = .compose c.extract rule ns c.offset := by
  constructor
  · intro h
    simp only [node] at h
    split at h
    case h_1 => cases h
    case h_2 n d eq =>
      split at h
      case h_1 => cases h
      case h_2 others _ eqs =>
        cases h
        exact ⟨n :: others, readAll_cons.mpr ⟨n, d, others, eq, eqs, rfl⟩, rfl⟩
  · rintro ⟨ns, eqs, rfl⟩
    obtain ⟨n, d, others, eq, more, rfl⟩ := readAll_cons.mp eqs
    simp [node, eq, more]

/-- A node is refused where its parts are. -/
lemma node_error : (node rule first rs).read c = .error refusal ↔
    readAll (first :: rs) c = .error refusal := by
  simp only [node, readAll]
  cases first.read c with
  | error inner => simp
  | ok result =>
    obtain ⟨n, d⟩ := result
    cases eqs : readAll rs d <;> simp [eqs]

/-- A node of one part is read where that is. -/
lemma node_one : (node rule first []).read c = .ok (m, d) ↔
    ∃ n, first.read c = .ok (n, d) ∧ m = .compose c.extract rule [n] c.offset := by
  rw [node_ok]
  constructor
  · rintro ⟨ns, all, rfl⟩
    obtain ⟨n, _, _, one, none, rfl⟩ := readAll_cons.mp all
    obtain ⟨rfl, rfl⟩ := readAll_nil.mp none
    exact ⟨n, one, rfl⟩
  · rintro ⟨n, one, rfl⟩
    exact ⟨[n], readAll_cons.mpr ⟨n, d, [], one, readAll_nil.mpr ⟨rfl, rfl⟩, rfl⟩, rfl⟩

/-- A node of two parts is read if they are, one after the other. -/
lemma node_two : (node rule first [second]).read c = .ok (m, e) ↔
    ∃ n1 d n2, first.read c = .ok (n1, d) ∧ second.read d = .ok (n2, e) ∧
      m = .compose c.extract rule [n1, n2] c.offset := by
  rw [node_ok]
  constructor
  · rintro ⟨ns, all, rfl⟩
    obtain ⟨n1, d, _, one, more, rfl⟩ := readAll_cons.mp all
    obtain ⟨n2, _, _, two, none, rfl⟩ := readAll_cons.mp more
    obtain ⟨rfl, rfl⟩ := readAll_nil.mp none
    exact ⟨n1, d, n2, one, two, rfl⟩
  · rintro ⟨n1, d, n2, one, two, rfl⟩
    have more : readAll [second] d = .ok ([n2], e) :=
      readAll_cons.mpr ⟨n2, e, [], two, readAll_nil.mpr ⟨rfl, rfl⟩, rfl⟩
    exact ⟨[n1, n2], readAll_cons.mpr ⟨n1, d, [n2], one, more, rfl⟩, rfl⟩

/-- A node of three parts is read if they are, one after the other. -/
lemma node_three : (node rule first [second, third]).read c = .ok (m, f) ↔
    ∃ n1 d n2 e n3, first.read c = .ok (n1, d) ∧ second.read d = .ok (n2, e) ∧
      third.read e = .ok (n3, f) ∧ m = .compose c.extract rule [n1, n2, n3] c.offset := by
  rw [node_ok]
  constructor
  · rintro ⟨ns, all, rfl⟩
    obtain ⟨n1, d, _, one, more, rfl⟩ := readAll_cons.mp all
    obtain ⟨n2, e, _, two, last, rfl⟩ := readAll_cons.mp more
    obtain ⟨n3, _, _, three, none, rfl⟩ := readAll_cons.mp last
    obtain ⟨rfl, rfl⟩ := readAll_nil.mp none
    exact ⟨n1, d, n2, e, n3, one, two, three, rfl⟩
  · rintro ⟨n1, d, n2, e, n3, one, two, three, rfl⟩
    have last : readAll [third] e = .ok ([n3], f) :=
      readAll_cons.mpr ⟨n3, f, [], three, readAll_nil.mpr ⟨rfl, rfl⟩, rfl⟩
    have more : readAll [second, third] d = .ok ([n2, n3], f) :=
      readAll_cons.mpr ⟨n2, e, [n3], two, last, rfl⟩
    exact ⟨[n1, n2, n3], readAll_cons.mpr ⟨n1, d, [n2, n3], one, more, rfl⟩, rfl⟩

/-- A node of one part is refused where that is. -/
lemma node_one_error : (node rule first []).read c = .error refusal ↔
    first.read c = .error refusal :=
  node_error.trans readAll_one_error

/-- A node of two parts is refused at one of them, the one before it being read. -/
lemma node_two_error : (node rule first [second]).read c = .error refusal ↔
    first.read c = .error refusal ∨
    ∃ n d, first.read c = .ok (n, d) ∧ second.read d = .error refusal :=
  node_error.trans readAll_two_error

/-- A node of three parts is refused at one of them, those before it being read. -/
lemma node_three_error : (node rule first [second, third]).read c = .error refusal ↔
    first.read c = .error refusal ∨
    ∃ n1 d, first.read c = .ok (n1, d) ∧
      (second.read d = .error refusal ∨
        ∃ n2 e, second.read d = .ok (n2, e) ∧ third.read e = .error refusal) := by
  rw [node_error, readAll_cons_error]
  simp only [readAll_two_error]

/-- There is no node where there is nothing for its first part. -/
lemma node_refuses (h : first.Refuses c) : (node rule first rs).Refuses c := by
  obtain ⟨trail, eq⟩ := h
  exact ⟨trail, by simp [node, eq]⟩

/-- A rule is not read where its second part is missing, either. -/
lemma node_refuses_second (h1 : first.read c = .ok (n, d)) (h2 : second.Refuses d) :
    (node rule first (second :: rs)).Refuses c := by
  obtain ⟨trail, eq⟩ := h2
  have more : readAll (second :: rs) d = .error _ := readAll_cons_error.mpr (.inl eq)
  exact ⟨trail, node_error.mpr (readAll_cons_error.mpr (.inr ⟨n, d, h1, more⟩))⟩

/-- A repetition ends where its reader refuses. -/
lemma readMany_ok : readMany r c = .ok (ns, e) ↔
    (r.Refuses c ∧ ns = [] ∧ e = c) ∨
    ∃ n d others, r.read c = .ok (n, d) ∧ readMany r d = .ok (others, e) ∧ ns = n :: others := by
  rw [readMany]
  split
  case h_1 refusal eq =>
    obtain ⟨isFinal, trail⟩ := refusal
    cases isFinal <;> simp [Refuses, eq, eq_comm]
  case h_2 n d eq =>
    split
    case h_1 refusal stop => simp [Refuses, eq, stop]
    case h_2 others f eqs =>
      constructor
      · intro h
        cases h
        exact .inr ⟨n, d, others, eq, eqs, rfl⟩
      · rintro (⟨⟨_, stop⟩, _⟩ | ⟨_, _, _, eq', eqs', rfl⟩)
        · rw [eq] at stop; cases stop
        · cases eq.symm.trans eq'; cases eqs.symm.trans eqs'; rfl

/-- A repetition refuses only for good. -/
lemma readMany_error : readMany r c = .error refusal ↔
    (r.read c = .error refusal ∧ refusal.isFinal = true) ∨
    ∃ n d, r.read c = .ok (n, d) ∧ readMany r d = .error refusal := by
  rw [readMany]
  split
  case h_1 inner eq =>
    cases final : inner.isFinal with
    | false =>
      constructor
      · rintro ⟨⟩
      rintro (⟨again, isFinal⟩ | ⟨_, _, ok, _⟩)
      · cases eq.symm.trans again
        cases final.symm.trans isFinal
      · cases eq.symm.trans ok
    | true =>
      rw [if_pos rfl, eq]
      constructor
      · rintro ⟨⟩
        exact .inl ⟨rfl, final⟩
      · rintro (⟨⟨⟩, _⟩ | ⟨_, _, ok, _⟩)
        · rfl
        · cases ok
  case h_2 n d eq =>
    split
    case h_1 inner stop => simp [eq, stop, and_assoc]
    case h_2 others f eqs => simp [eq, eqs, and_assoc]

/-- A repetition refuses only where it stops for good. -/
lemma final_of_readMany (h : readMany r c = .error refusal) : refusal.isFinal = true := by
  fun_induction readMany r c with
  | case1 c inner read final => cases h; exact final
  | case2 => cases h
  | case3 c n d read shorter inner more ih => cases h; exact ih more
  | case4 => cases h

/-- A chain is an operand and as many links as can be read after it. -/
lemma chain_ok : (chain rule operand operator).read c = .ok (m, e) ↔
    ∃ n d links,
      operand.read c = .ok (n, d) ∧
      readMany (node .link operator [operand]) d = .ok (links, e) ∧
      m = .compose c.extract rule [n, .compose c.extract .repetition links d.offset]
        n.span.start := by
  constructor
  · intro h
    simp only [chain] at h
    split at h
    case h_1 => cases h
    case h_2 n d eq =>
      split at h
      case h_1 => cases h
      case h_2 links _ eqs => cases h; exact ⟨n, d, links, eq, eqs, rfl⟩
  · rintro ⟨n, d, links, eq, eqs, rfl⟩
    simp [chain, eq, eqs]

/-- A chain is refused at its first operand or for good at one of its links. -/
lemma chain_error : (chain rule operand operator).read c = .error refusal ↔
    operand.read c = .error refusal ∨
    ∃ n d, operand.read c = .ok (n, d) ∧
      readMany (node .link operator [operand]) d = .error refusal := by
  simp only [chain]
  cases operand.read c with
  | error inner => simp
  | ok result =>
    obtain ⟨n, d⟩ := result
    cases eqs : readMany (node .link operator [operand]) d <;> simp [eqs, and_assoc]

/-- There is no chain where there is no operand. -/
lemma chain_refuses (h : operand.Refuses c) : (chain rule operand operator).Refuses c := by
  obtain ⟨trail, eq⟩ := h
  exact ⟨trail, chain_error.mpr (.inl eq)⟩

/-- What is read inside an operand is read with one more open, which is closed after it. -/
lemma nested_ok : (nested r).read c = .ok (n, d) ↔
    ∃ e, r.read { c with depth := c.depth + 1 } = .ok (n, e) ∧
      d = { e with depth := c.depth } := by
  constructor
  · intro h
    simp only [nested] at h
    split at h
    case h_1 => cases h
    case h_2 n e eq => cases h; exact ⟨e, eq, rfl⟩
  · rintro ⟨e, eq, rfl⟩
    simp [nested, eq]

/-- What is refused inside an operand is refused with one more open. -/
lemma nested_error : (nested r).read c = .error refusal ↔
    r.read { c with depth := c.depth + 1 } = .error refusal := by
  simp only [nested]
  cases r.read { c with depth := c.depth + 1 } <;> simp

/-- There is no operand where there is nothing inside it. -/
lemma nested_refuses (h : r.Refuses { c with depth := c.depth + 1 }) : (nested r).Refuses c := by
  obtain ⟨trail, eq⟩ := h
  exact ⟨trail, nested_error.mpr eq⟩

/-! Readers as sequences that go on from what was read: a relation of results that goes on along
sequences holds of what these readers answer. -/

/-- A sequence goes on from what its first reader read. -/
lemma readAll_cons_bind : readAll (r :: rs) c =
    (r.read c).bind fun p => (readAll rs p.2).bind fun q => .ok (p.1 :: q.1, q.2) := by
  simp only [readAll]
  rcases r.read c with refusal | ⟨n, d⟩
  · rfl
  · simp only [Except.bind]
    cases readAll rs d <;> rfl

/-- A node is put together from what its parts read. -/
lemma node_bind : (node rule first rs).read c =
    (readAll (first :: rs) c).bind fun p =>
      .ok (.compose c.extract rule p.1 c.offset, p.2) := by
  simp only [node, readAll]
  rcases first.read c with refusal | ⟨n, d⟩
  · rfl
  · simp only
    cases readAll rs d <;> rfl

/-- A repetition ends where it is refused, or is refused for good. -/
lemma readMany_of_error {refusal : Refusal} (read : r.read c = .error refusal) :
    readMany r c = if refusal.isFinal then .error refusal else .ok ([], c) := by
  rw [readMany]
  split
  case h_1 other => cases read.symm.trans other; rfl
  case h_2 other => cases read.symm.trans other

/-- A repetition goes on from what its first round read. -/
lemma readMany_of_ok {n : Node} {d : Cursor} (read : r.read c = .ok (n, d)) :
    readMany r c = (readMany r d).bind fun q => .ok (n :: q.1, q.2) := by
  rw [readMany]
  split
  case h_1 other => cases read.symm.trans other
  case h_2 other =>
    cases read.symm.trans other
    cases readMany r d <;> rfl

/-- A chain goes on from its first operand to its links. -/
lemma chain_bind : (chain rule operand operator).read c =
    (operand.read c).bind fun p =>
      (readMany (node .link operator [operand]) p.2).bind fun q =>
        .ok (.compose c.extract rule [p.1, .compose c.extract .repetition q.1 p.2.offset]
          p.1.span.start, q.2) := by
  simp only [chain]
  rcases operand.read c with refusal | ⟨n, d⟩
  · rfl
  · simp only [Except.bind]
    cases readMany (node .link operator [operand]) d <;> rfl

/-- An operand is closed after what was read inside it. -/
lemma nested_bind : (nested r).read c =
    (r.read { c with depth := c.depth + 1 }).bind fun p =>
      .ok (p.1, { p.2 with depth := c.depth }) := by
  simp only [nested]
  cases r.read { c with depth := c.depth + 1 } <;> rfl

end Reckoner.Reader
