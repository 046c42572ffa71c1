import Reckoner.Proofs.Grammar.TooDeep

/-!
# The longest expression

Reading gets at least as far as any derived text at the front, if it is not stopped for good
(`passage_reaches`): whatever a reader leaves out, a link that is not complete for instance, is not
part of a derivation either.  So what is recognized is the longest sentence at the front, and
reading just that gives the same tree (`parse_longest`).
-/

namespace Reckoner

/-- The reading stops for good, or it gets at least to `bound`. -/
def Reaches (result : Except Refusal Cursor) (bound : Nat) : Prop :=
  (∃ o, StopsBy result o) ∨ ∃ d, result = .ok d ∧ bound ≤ d.offset

/-- What reaches a place reaches those before it. -/
lemma Reaches.mono {result : Except Refusal Cursor} {a b : Nat} (h : Reaches result b)
    (le : a ≤ b) : Reaches result a := by
  rcases h with stops | ⟨d, read, far⟩
  · exact .inl stops
  · exact .inr ⟨d, read, Nat.le_trans le far⟩

/-- A reading reaches a place if it stops or ends no earlier. -/
lemma reaches_map {α : Type} {result : Except Refusal (α × Cursor)} {bound : Nat} :
    Reaches (result.map Prod.snd) bound ↔
      (∃ o, StopsBy result o) ∨ ∃ a d, result = .ok (a, d) ∧ bound ≤ d.offset := by
  cases result with
  | error refusal => simp [Reaches, StopsBy, Except.map]
  | ok result =>
    obtain ⟨a, d⟩ := result
    simp [Reaches, StopsBy, Except.map, and_assoc]

namespace Grammar

open Reader

variable {k : Category} {l : Chain} {r : Reader} {levels bound : Nat}
variable {c d e : Cursor} {w : Blanks}

/-- What is read as part of a chain is derived. -/
lemma part_sound : Sound (l.part levels) l.operand levels := by
  cases l with
  | product => exact operand_sound levels
  | sum => exact chain_sound (l := .product) (operand_sound levels)

/-- The refusals of a part of a chain are accounted for. -/
lemma part_accounts : Accounts (l.part levels) l.operand levels := by
  cases l with
  | product => exact operand_accounts levels
  | sum => exact chain_accounts (l := .product) (operand_sound levels) (operand_accounts levels)

/-- Links are read as far as they go, be it not at all. -/
lemma links_reach (pos : 0 < levels) : Reaches ((Category.links l).passage levels c) c.offset := by
  rw [Category.passage, reaches_map]
  cases read : readMany (.node .link l.operator [l.part levels]) c with
  | ok result =>
    obtain ⟨ns, d⟩ := result
    obtain ⟨y, _, pass, _⟩ := links_sound part_sound pos read
    exact .inr ⟨ns, d, rfl, pass.offset_le⟩
  | error refusal =>
    left
    cases links_refused part_sound part_accounts pos read with
    | yields yields => cases yields.tentative.symm.trans (final_of_readMany read)
    | closed none => exact absurd none (Nat.ne_of_gt pos)
    | opened _ _ stops => exact ⟨_, refusal, _, rfl, stops, Nat.le_refl _⟩

/-- The links after a part are reached, because the part is complete where there are any. -/
lemma links_reach_after {x : Derivation l.operand} {y : Derivation (.links l)} {a : Cursor}
    (nx : x.nesting < levels) (h1 : c.Passes x.text a) (h2 : a.Passes y.text d)
    (first : Reaches (l.operand.passage levels c) a.offset)
    (others : Reaches ((Category.links l).passage levels a) d.offset) :
    (∃ o, StopsBy ((l.part levels).read c) o) ∨
    ∃ n b, (l.part levels).read c = .ok (n, b) ∧
      Reaches ((Category.links l).passage levels b) d.offset := by
  cases y with
  | nil =>
    cases h2.unique (.refl a)
    rw [Category.passage_operand, reaches_map] at first
    rcases first with stops | ⟨n, b, read, far⟩
    · exact .inl stops
    · exact .inr ⟨n, b, read, (links_reach (Nat.zero_lt_of_lt nx)).mono far⟩
  | cons w op joins x' y' =>
    have read := (derivation_complete x nx h1 (ends_of_operator joins h2)).part
    exact .inr ⟨_, a, read, others⟩

/-- An operand is reached as its alternative is, one level deeper. -/
lemma operand_reaches
    (h : Reaches
      (((alternatives levels).read { c with depth := c.depth + 1 }).map Prod.snd) bound) :
    Reaches (Category.operand.passage (levels + 1) c) bound := by
  rw [reaches_map] at h
  rw [Category.passage, reaches_map]
  rcases h with ⟨o, stops⟩ | ⟨n, b, read, far⟩
  · exact .inl ⟨o, operand_stops stops⟩
  · have whole : (operand (levels + 1)).read c = .ok (_, { b with depth := c.depth }) :=
      nested_ok.mpr ⟨b, node_one.mpr ⟨n, labelled_ok.mpr read, rfl⟩, rfl⟩
    exact .inr ⟨_, _, whole, far⟩

/-- A number is read at least as far as any number that comes next. -/
lemma number_reaches {s : Lexeme isNumeric} (pass : c.Passes (w.text ++ s.text) d) :
    Reaches (Category.operand.passage (levels + 1) c) d.offset := by
  let more := Run.front isNumeric d.rest
  let longest : Lexeme isNumeric :=
    ⟨⟨s.text ++ more.text, List.forall_mem_append.mpr ⟨s.all, more.all⟩⟩,
      List.append_ne_nil_of_left_ne_nil s.nonempty _⟩
  let e : Cursor := ⟨d.rest.dropWhile isNumeric, d.offset + more.text.size, d.depth⟩
  have rest : d.Passes more.text e := ⟨List.takeWhile_append_dropWhile.symm, rfl, rfl⟩
  have whole : c.Passes (Derivation.number w longest).text e := by
    have both := pass.trans rest
    rwa [List.append_assoc] at both
  have ends : Ends .operand e := by
    refine ⟨fun ch head => ?_, fun _ _ => rfl⟩
    have stop := List.head?_dropWhile_not isNumeric d.rest
    rwa [show (d.rest.dropWhile isNumeric).head? = some ch from head] at stop
  have read := derivation_complete (.number w longest) (Nat.succ_pos levels) whole ends
  exact reaches_map.mpr (.inr ⟨_, e, read, rest.offset_le⟩)

/-- Parentheses begin with the one that opens. -/
lemma exists_paren (x : Derivation .group) :
    ∃ (w : Blanks) (s : Text), x.text = w.text ++ '(' :: s := by
  cases x with
  | group w x v => exact ⟨w, _, rfl⟩

/-- A reader gets as far as any text that its category derives, or it stops for good. -/
theorem passage_reaches (x : Derivation k) (nx : x.nesting < levels) (pass : c.Passes x.text d) :
    Reaches (k.passage levels c) d.offset := by
  induction x generalizing levels c d with
  | number w s =>
    obtain ⟨m, rfl⟩ := Nat.exists_eq_succ_of_ne_zero (Nat.ne_zero_of_lt nx)
    exact number_reaches pass
  | signed w op x ih =>
    obtain ⟨m, rfl⟩ := Nat.exists_eq_succ_of_ne_zero (Nat.ne_zero_of_lt nx)
    obtain ⟨a, h1, h2⟩ := Derivation.passes_signed.mp (pass.nest (c.depth + 1))
    have inner := ih (Nat.lt_of_succ_lt_succ nx) h2
    rw [Category.passage, reaches_map] at inner
    apply operand_reaches
    rw [reaches_map, alternatives_sign (h1.next? (by cases op <;> rfl))]
    rcases inner with ⟨o, stops⟩ | ⟨n, b, read, far⟩
    · exact .inl ⟨o, orElse_stops_left (node_stops_second (sign_read h1) stops)⟩
    · exact .inr ⟨_, b, orElse_left (node_two.mpr ⟨_, a, n, sign_read h1, read, rfl⟩), far⟩
  | call w name x ih =>
    obtain ⟨m, rfl⟩ := Nat.exists_eq_succ_of_ne_zero (Nat.ne_zero_of_lt nx)
    obtain ⟨a, h1, h2⟩ := Derivation.passes_call.mp (pass.nest (c.depth + 1))
    have inner := ih nx h2
    obtain ⟨v, s, eq⟩ := exists_paren x
    rw [eq] at h2
    rw [Category.passage, reaches_map] at inner
    apply operand_reaches
    rw [reaches_map]
    rcases inner with ⟨o, stops⟩ | ⟨n, b, read, far⟩
    · exact .inl ⟨o, call_stops h1 h2 stops⟩
    · have called := functionName_read h1 h2
      exact .inr ⟨_, b, orElse_left (node_two.mpr ⟨_, a, n, called, read, rfl⟩), far⟩
  | grouped x ih =>
    obtain ⟨m, rfl⟩ := Nat.exists_eq_succ_of_ne_zero (Nat.ne_zero_of_lt nx)
    have inside : Cursor.Passes _ x.text _ := pass.nest (c.depth + 1)
    have inner := ih nx inside
    obtain ⟨v, s, eq⟩ := exists_paren x
    rw [eq] at inside
    apply operand_reaches
    rwa [alternatives_paren (inside.next? rfl)]
  | group w x v ih =>
    obtain ⟨m, rfl⟩ := Nat.exists_eq_succ_of_ne_zero (Nat.ne_zero_of_lt nx)
    obtain ⟨a, b, h1, h2, h3⟩ := Derivation.passes_group.mp pass
    -- a parenthesis closes here, so the expression inside is read as it is derived and no further
    have inner := derivation_complete x (Nat.lt_of_succ_lt_succ nx) h2 (ends_of_closing h3)
    rw [Category.passage, reaches_map]
    exact .inr ⟨_, d, parenthesized_read h1 h2 h3 (labelled_ok.mpr inner), le_rfl⟩
  | chain x y ihx ihy =>
    obtain ⟨a, h1, h2⟩ := pass.split
    obtain ⟨nx, ny⟩ := Nat.max_lt.mp nx
    rw [Category.passage, reaches_map]
    -- the first operand may be read beyond its own text, and then less remains for the links
    rcases links_reach_after nx h1 h2 (ihx nx h1) (ihy ny h2) with ⟨o, stops⟩ | ⟨n, b, first, more⟩
    · exact .inl ⟨o, chain_stops_first stops⟩
    rw [Category.passage, reaches_map] at more
    rcases more with ⟨o, stops⟩ | ⟨ns, e, others, far⟩
    · exact .inl ⟨o, chain_stops_links first stops⟩
    · exact .inr ⟨_, e, chain_ok.mpr ⟨n, b, ns, first, others, rfl⟩, far⟩
  | nil =>
    cases pass.unique (.refl c)
    exact links_reach (Nat.zero_lt_of_lt nx)
  | @cons l w op joins x y ihx ihy =>
    obtain ⟨a, b, h1, h2, h3⟩ := Derivation.passes_cons.mp pass
    obtain ⟨nx, ny⟩ := Nat.max_lt.mp nx
    rw [Category.passage, reaches_map]
    rcases links_reach_after nx h2 h3 (ihx nx h2) (ihy ny h3) with ⟨o, stops⟩ | ⟨n, b', first, more⟩
    · exact .inl ⟨o, readMany_stops_first (link_stops joins h1 stops)⟩
    have link : (Reader.node .link l.operator [l.part levels]).read c = .ok (_, b') :=
      node_two.mpr ⟨_, a, n, operator_read op joins h1, first, rfl⟩
    rw [Category.passage, reaches_map] at more
    rcases more with ⟨o, stops⟩ | ⟨ns, e, others, far⟩
    · exact .inl ⟨o, readMany_stops_later link stops⟩
    · exact .inr ⟨_, e, readMany_ok.mpr (.inr ⟨_, b', ns, link, others, rfl⟩), far⟩

end Grammar

open Grammar

variable {t r s : Text} {w : Blanks}

/-- A derived text with spaces after it, however deep it nests. -/
def Sentence (s : Text) : Prop :=
  ∃ (x : Derivation (.chain .sum)) (w : Blanks), s = x.text ++ w.text

/-- Spaces at the front of a text end with those that stand after any part of it, or before. -/
lemma size_spaces_le {u : Text} (h : w.text ++ s = u ++ r) :
    w.text.size ≤ u.size + (Run.front isSpace r).text.size := by
  obtain ⟨v, all⟩ := w
  induction u generalizing v with
  | nil =>
    rw [List.nil_append] at h
    have front : (Run.front isSpace r).text = v ++ s.takeWhile isSpace := by
      rw [← h]
      exact List.takeWhile_append_of_pos all
    rw [front, Text.size_append]
    exact Nat.le_add_left_of_le (Nat.le_add_right ..)
  | cons a u ih =>
    cases v with
    | nil => exact Nat.zero_le _
    | cons b v =>
      obtain ⟨rfl, more⟩ := List.cons.inj h
      have rest := ih v (fun c mem => all c (List.mem_cons_of_mem b mem)) more
      rw [Text.size_cons, Text.size_cons, Nat.add_assoc]
      exact Nat.add_le_add_left rest _

/-- Of two parts at the front of a text the larger one begins with the other. -/
lemma Text.prefix_of_size_le {u v : Text} (h1 : u <+: t) (h2 : v <+: t) (le : u.size ≤ v.size) :
    u <+: v := by
  rcases List.prefix_or_prefix_of_prefix h1 h2 with shorter | ⟨m, rfl⟩
  · exact shorter
  · rw [Text.size_append] at le
    have none : m = [] := Text.eq_nil_of_size_eq_zero (by omega)
    exact ⟨[], by simp [none]⟩

/-- All of a sentence at the front is recognized, unless reading stops for good. -/
lemma size_le_consumed (shallow : (parse t).issue.tooDeepAt = none) (front : s <+: t)
    (sentence : Sentence s) :
    (parse t).issue.succeeded = true ∧ s.size ≤ (parse t).issue.consumed := by
  obtain ⟨x, w, rfl⟩ := sentence
  obtain ⟨r, rfl⟩ := front
  generalize eq : x.text ++ w.text ++ r = t at shallow
  rw [List.append_assoc] at eq
  -- The openers of a text that nests too deeply would stop the reading.
  have nx : x.nesting < maxDepth := by
    by_contra deep
    obtain ⟨s, opens⟩ := Derivation.exists_opens maxDepth_pos (Nat.not_lt.mp deep)
    have front : s <+: t := opens.isPrefix.trans ⟨_, eq⟩
    obtain ⟨k, _, found⟩ := tooDeepAt_of_opensAt ⟨x, s, front, rfl, opens.isPrefix, opens⟩
    cases shallow.symm.trans found
  have pass : (Cursor.start t 0).Passes x.text ⟨w.text ++ r, x.text.size, 0⟩ :=
    ⟨eq.symm, (Nat.zero_add _).symm, rfl⟩
  have reaches := passage_reaches x nx pass
  rw [Category.passage, reaches_map] at reaches
  rcases reaches with ⟨o, stops⟩ | ⟨n, e, read, far⟩
  · have whole : StopsBy ((expressionAt 0).read (.start t 0)) o :=
      Reader.labelled_stops stops
    obtain ⟨refusal, k, error, stops, _⟩ := whole
    rw [parse, error] at shallow
    cases shallow.symm.trans stops.deep
  · have whole : (expressionAt 0).read (.start t 0) = .ok (n, e) := Reader.labelled_ok.mpr read
    have consumed := e.passes_skipSpaces.offset
    obtain ⟨y, _, pass', _⟩ := expressionAt_sound 0 whole
    have offset := pass'.offset
    rw [Cursor.start, Nat.zero_add] at offset
    rw [offset] at far
    obtain ⟨u, longer⟩ := Text.prefix_of_size_le ⟨_, eq⟩ ⟨_, pass'.rest.symm⟩ far
    have rest : w.text ++ r = u ++ e.rest := by
      have same : x.text ++ (w.text ++ r) = x.text ++ (u ++ e.rest) := by
        rw [eq, ← List.append_assoc, longer]
        exact pass'.rest
      exact List.append_cancel_left same
    have spaces := size_spaces_le rest
    rw [parse, whole]
    refine ⟨rfl, ?_⟩
    change _ ≤ e.skipSpaces.offset
    rw [consumed, offset, ← longer, Text.size_append, Text.size_append]
    omega

/-- Unless reading stops for good, it recognizes the longest sentence at the front of the text, if
there is one, and that sentence by itself has the same tree. -/
theorem parse_longest (shallow : (parse t).issue.tooDeepAt = none) :
    ((parse t).issue.succeeded = true ↔ ∃ s : Text, s <+: t ∧ Sentence s) ∧
    ((parse t).issue.succeeded = true →
      IsGreatest {k | ∃ s : Text, s <+: t ∧ Sentence s ∧ s.size = k} (parse t).issue.consumed ∧
      ∃ s root, Text.takeBytes? (parse t).issue.consumed t = some s ∧
        (parse s).issue.isComplete = true ∧
        (parse s).root = some root ∧ (parse t).root = some root) := by
  have bound {s : Text} (front : s <+: t) (sentence : Sentence s) :=
    size_le_consumed shallow front sentence
  rcases parse_cases t with ⟨x, w, r, nx, eq, parsed⟩ | ⟨_, _, parsed⟩
  · rw [← List.append_assoc] at eq
    -- what was consumed is a sentence and the blanks after it, which are a sentence as well
    have front : x.text ++ w.text <+: t := ⟨r, eq.symm⟩
    have sentence : Sentence (x.text ++ w.text) := ⟨x, w, rfl⟩
    have size := Text.size_append x.text w.text
    rw [parsed] at bound ⊢
    refine ⟨⟨fun _ => ⟨_, front, sentence⟩, fun _ => rfl⟩, fun _ => ⟨⟨?_, ?_⟩, ?_⟩⟩
    · exact ⟨_, front, sentence, size⟩
    · rintro _ ⟨s, front, sentence, rfl⟩
      exact (bound front sentence).2
    · have whole := parse_derived nx (rfl : x.text ++ w.text = x.text ++ w.text)
      refine ⟨x.text ++ w.text, x.tree 0, ?_, ?_, ?_, rfl⟩
      · rw [← size, eq, Text.takeBytes?_size_append]
      · rw [whole]
        simp [Issue.isComplete]
      · rw [whole]
  · rw [parsed] at bound ⊢
    constructor
    · constructor
      · rintro ⟨⟩
      · rintro ⟨s, front, sentence⟩
        exact (bound front sentence).1
    · rintro ⟨⟩

/-- A link that breaks off is left out, however much of it was read. -/
theorem parse_longest_link :
    IsGreatest {k | ∃ s : Text, s <+: ['1', ' ', '+', '(', '2'] ∧ Sentence s ∧ s.size = k} 2 := by
  have shallow : (parse ['1', ' ', '+', '(', '2']).issue.tooDeepAt = none := by decide +kernel
  have succeeded : (parse ['1', ' ', '+', '(', '2']).issue.succeeded = true := by decide +kernel
  have consumed : (parse ['1', ' ', '+', '(', '2']).issue.consumed = 2 := by decide +kernel
  have longest := ((parse_longest shallow).2 succeeded).1
  rwa [consumed] at longest

end Reckoner
