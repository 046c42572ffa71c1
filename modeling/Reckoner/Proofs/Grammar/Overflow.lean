import Reckoner.Proofs.Grammar.Completeness
import Reckoner.Proofs.Grammar.Opening
import Reckoner.Proofs.Grammar.Stopping

/-!
# Too many open operands

A reader that may open `levels` operands does not get past an opener that leaves so many open
(`passage_stops`), whatever the text goes on with.  Everything before the opener is complete where
another part follows it, so it is read as derived or stops the reader earlier.
-/

namespace Reckoner

namespace Grammar

open Reader

variable {k : Category} {l : Chain} {r : Reader} {levels n bound : Nat}
variable {c d e : Cursor} {w : Blanks} {s : Text}

/-- Where reading what a category derives comes to. -/
def Category.passage : Category → (levels : Nat) → Cursor → Except Refusal Cursor
  | operand, levels, c => ((Grammar.operand levels).read c).map Prod.snd
  | group, levels, c =>
    ((parenthesized (expression (Grammar.operand (levels - 1)))).read c).map Prod.snd
  | chain l, levels, c => ((Reader.chain l.rule (l.part levels) l.operator).read c).map Prod.snd
  | links l, levels, c => (readMany (.node .link l.operator [l.part levels]) c).map Prod.snd

/-- The operand of a chain ends where the reader of it does. -/
lemma Category.passage_operand :
    l.operand.passage levels c = ((l.part levels).read c).map Prod.snd := by
  cases l <;> rfl

/-- Where no operand may be opened any more, none is read. -/
lemma part_stops : StopsBy ((l.part 0).read c) c.offset := by
  cases l with
  | sum =>
    change StopsBy ((Reader.chain .term tooDeep timesOrOver).read c) c.offset
    exact chain_stops_first tooDeep_stops
  | product => exact tooDeep_stops

/-! A reader stops where the reader of a part stops. -/

/-- An operand stops where its alternatives do. -/
lemma operand_stops
    (h : StopsBy ((alternatives levels).read { c with depth := c.depth + 1 }) bound) :
    StopsBy ((operand (levels + 1)).read c) bound :=
  nested_stops (node_stops_first (labelled_stops h))

/-- A signed operand stops where the operand after the sign does. -/
lemma signed_stops {op : UnaryOp} (h1 : c.Passes (w.text ++ [op.symbol]) d)
    (h2 : StopsBy ((operand levels).read d) bound) :
    StopsBy ((alternatives levels).read c) bound := by
  rw [alternatives_sign (h1.next? (by cases op <;> rfl))]
  exact orElse_stops_left (node_stops_second (sign_read h1) h2)

/-- A call stops where the parentheses after its name do. -/
lemma call_stops {name : Lexeme isLetter} {v : Blanks} (h1 : c.Passes (w.text ++ name.text) d)
    (h2 : d.Passes (v.text ++ '(' :: s) e)
    (h3 : StopsBy ((parenthesized (expression (operand levels))).read d) bound) :
    StopsBy ((alternatives levels).read c) bound :=
  orElse_stops_left (node_stops_second (functionName_read h1 h2) h3)

/-- An operand in parentheses stops where these do. -/
lemma grouped_stops (h1 : c.Passes (w.text ++ '(' :: s) d)
    (h2 : StopsBy ((parenthesized (expression (operand levels))).read c) bound) :
    StopsBy ((alternatives levels).read c) bound := by
  rwa [alternatives_paren (h1.next? rfl)]

/-- Parentheses stop where the expression between them does. -/
lemma parenthesized_stops (h1 : c.Passes (w.text ++ ['(']) d) (h2 : StopsBy (r.read d) bound) :
    StopsBy ((parenthesized r).read c) bound :=
  node_stops_second (labelled_ok.mpr (symbol_read h1 rfl)) h2

/-- A link stops where the operand after its operator does. -/
lemma link_stops {op : BinaryOp} (joins : op.chain = l) (h1 : c.Passes (w.text ++ [op.symbol]) d)
    (h2 : StopsBy (r.read d) bound) : StopsBy ((Reader.node .link l.operator [r]).read c) bound :=
  node_stops_second (operator_read op joins h1) h2

/-- A part that ends is read as it is derived, or it nests too deeply; then the reader stops,
because its openers stop it. -/
lemma part_read_or_stops {x : Derivation l.operand}
    (openers : ∀ {s d}, x.Opens s levels → c.Passes s d → StopsBy ((l.part levels).read c) d.offset)
    (pass : c.Passes x.text d) (ends : Ends l.operand d) :
    (l.part levels).read c = .ok (x.tree c.offset, d) ∨
      StopsBy ((l.part levels).read c) d.offset := by
  rcases Nat.lt_or_ge x.nesting levels with nx | deep
  · exact .inl (derivation_complete x nx pass ends).part
  right
  rcases Nat.eq_zero_or_pos levels with rfl | pos
  · exact part_stops.mono pass.offset_le
  · obtain ⟨s, opens⟩ := Derivation.exists_opens pos deep
    obtain ⟨u, eq⟩ := opens.isPrefix
    rw [← eq] at pass
    obtain ⟨m, h1, h2⟩ := pass.split
    exact (openers opens h1).mono h2.offset_le

/-- A reader does not get past an opener that leaves as many operands open as it may open. -/
theorem passage_stops {x : Derivation k} (opens : x.Opens s n) (deep : levels ≤ n)
    (pass : c.Passes s d) : StopsBy (k.passage levels c) d.offset := by
  induction x generalizing levels c d s n with
  | number => cases opens
  | nil => cases opens
  | signed w op x ih =>
    simp only [Category.passage, stopsBy_map] at ih ⊢
    cases levels with
    | zero => exact tooDeep_stops.mono pass.offset_le
    | succ levels =>
      replace pass := pass.nest (c.depth + 1)
      cases opens with
      | sign =>
        cases Nat.le_zero.mp (Nat.le_of_succ_le_succ deep)
        exact operand_stops (signed_stops pass tooDeep_stops)
      | signed opens =>
        rw [List.append_cons] at pass
        obtain ⟨a, h1, h2⟩ := pass.split
        have inner := ih opens (Nat.le_of_succ_le_succ deep) h2
        exact operand_stops (signed_stops h1 inner)
  | call w name x ih =>
    simp only [Category.passage, stopsBy_map] at ih ⊢
    cases levels with
    | zero => exact tooDeep_stops.mono pass.offset_le
    | succ levels =>
      replace pass := pass.nest (c.depth + 1)
      cases opens with
      | call opens =>
        obtain ⟨v, u, rfl⟩ := opens.exists_paren
        rw [← List.append_assoc] at pass
        obtain ⟨a, h1, h2⟩ := pass.split
        have inner := ih opens deep h2
        exact operand_stops (call_stops h1 h2 inner)
  | grouped x ih =>
    simp only [Category.passage, stopsBy_map] at ih ⊢
    cases levels with
    | zero => exact tooDeep_stops.mono pass.offset_le
    | succ levels =>
      replace pass := pass.nest (c.depth + 1)
      cases opens with
      | grouped opens =>
        obtain ⟨v, u, rfl⟩ := opens.exists_paren
        have inner := ih opens deep pass
        exact operand_stops (grouped_stops pass inner)
  | group w x v ih =>
    simp only [Category.passage, stopsBy_map] at ih ⊢
    cases opens with
    | paren =>
      -- no level is left for the first operand after this parenthesis
      have none : levels - 1 = 0 := Nat.sub_eq_zero_of_le deep
      rw [none]
      exact parenthesized_stops pass (labelled_stops (chain_stops_first (part_stops (l := .sum))))
    | group opens =>
      rw [List.append_cons] at pass
      obtain ⟨a, h1, h2⟩ := pass.split
      have inner := ih opens (Nat.sub_le_of_le_add deep) h2
      exact parenthesized_stops h1 (labelled_stops inner)
  | @chain l x y ihx ihy =>
    simp only [Category.passage_operand, stopsBy_map] at ihx
    simp only [Category.passage, stopsBy_map] at ihy ⊢
    cases opens with
    | first opens => exact chain_stops_first (ihx opens deep pass)
    | others opens =>
      obtain ⟨v, op, u, joins, rfl⟩ := opens.exists_operator
      obtain ⟨a, h1, h2⟩ := pass.split
      have ends := ends_of_operator joins h2
      -- the opener is in the links: either they are reached, or the operand before them stops
      rcases part_read_or_stops (fun opens pass => ihx opens le_rfl pass) h1 ends with read | stops
      · exact chain_stops_links read (ihy opens deep h2)
      · exact chain_stops_first (stops.mono h2.offset_le)
  | @cons l w op joins x y ihx ihy =>
    simp only [Category.passage_operand, stopsBy_map] at ihx
    simp only [Category.passage, stopsBy_map] at ihy ⊢
    cases opens with
    | operand opens =>
      rw [List.append_cons] at pass
      obtain ⟨a, h1, h2⟩ := pass.split
      exact readMany_stops_first (link_stops joins h1 (ihx opens deep h2))
    | later opens =>
      obtain ⟨v, op', u, joins', rfl⟩ := opens.exists_operator
      rw [List.append_cons] at pass
      obtain ⟨a, h1, h2⟩ := pass.split
      obtain ⟨b, h2, h3⟩ := h2.split
      have ends := ends_of_operator joins' h3
      rcases part_read_or_stops (fun opens pass => ihx opens le_rfl pass) h2 ends with read | stops
      · exact readMany_stops_later (link_read joins h1 h2 read) (ihy opens deep h3)
      · exact readMany_stops_first (link_stops joins h1 (stops.mono h3.offset_le))

end Grammar

end Reckoner
