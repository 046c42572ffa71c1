import Reckoner.Proofs.Grammar.Reading

/-!
# Stopping for good

A refusal either *yields*, so that other ways to read may be tried, or *stops* the reading because
of an operand that is one too deep.  Names of constructs do not hide which one it is, and a reading
that stops inside a construct stops the whole construct: one lemma for each way to put readers
together.
-/

namespace Reckoner

namespace Refusal

variable {r : Refusal} {o offset : Nat} {label : Label}

/-- Other ways to read may be tried: no operand was too deep. -/
structure Yields (r : Refusal) : Prop where
  tentative : r.isFinal = false
  shallow : r.tooDeepAt? = none

/-- The refusal is final, because the operand at `o` is one too deep. -/
structure Stops (r : Refusal) (o : Nat) : Prop where
  final : r.isFinal = true
  deep : r.tooDeepAt? = some o

/-- A construct's name does not hide which operand was too deep. -/
lemma tooDeepAt?_within (other : label ≠ .nestingDepth) :
    (r.within offset label).tooDeepAt? = r.tooDeepAt? := by
  simp [tooDeepAt?, within, List.find?_append, other]

/-- A refusal that yields still does so under the name of a construct. -/
lemma Yields.within (h : r.Yields) (other : label ≠ .nestingDepth) :
    (r.within offset label).Yields :=
  ⟨h.tentative, (tooDeepAt?_within other).trans h.shallow⟩

/-- A refusal that stops the reading still does so under the name of a construct. -/
lemma Stops.within (h : r.Stops o) (other : label ≠ .nestingDepth) :
    (r.within offset label).Stops o :=
  ⟨h.final, (tooDeepAt?_within other).trans h.deep⟩

end Refusal

/-- The reading stops for good, because of an operand no later than `bound`. -/
def StopsBy {α : Type} (result : Except Refusal α) (bound : Nat) : Prop :=
  ∃ refusal o, result = .error refusal ∧ refusal.Stops o ∧ o ≤ bound

/-- A bound on where the reading stops may be raised. -/
lemma StopsBy.mono {α : Type} {result : Except Refusal α} {a b : Nat} (h : StopsBy result a)
    (le : a ≤ b) : StopsBy result b := by
  obtain ⟨refusal, o, eq, stops, before⟩ := h
  exact ⟨refusal, o, eq, stops, Nat.le_trans before le⟩

/-- What would be made of a result does not keep the reading from stopping. -/
@[simp] lemma stopsBy_map {α β : Type} {result : Except Refusal α} {f : α → β} {bound : Nat} :
    StopsBy (result.map f) bound ↔ StopsBy result bound := by
  cases result <;> simp [StopsBy, Except.map]

namespace Reader

variable {r first second operand operator : Reader} {rs : List Reader} {label : Label}
variable {rule : Rule} {c d : Cursor} {n : Node} {bound : Nat}

/-- Where no operand may be opened the reading stops. -/
lemma tooDeep_stops : StopsBy (tooDeep.read c) c.offset :=
  ⟨_, _, rfl, ⟨rfl, rfl⟩, Nat.le_refl _⟩

/-- A construct that is not the bound itself stops where the reader of it does. -/
lemma labelled_stops (h : StopsBy (r.read c) bound) (other : label ≠ .nestingDepth := by decide) :
    StopsBy ((labelled label r).read c) bound := by
  obtain ⟨refusal, o, eq, stops, le⟩ := h
  exact ⟨_, o, labelled_error.mpr ⟨_, eq, rfl⟩, stops.within other, le⟩

/-- An alternative is not tried where the one before it stops. -/
lemma orElse_stops_left (h : StopsBy (first.read c) bound) :
    StopsBy ((first <|> second).read c) bound := by
  obtain ⟨refusal, o, eq, stops, le⟩ := h
  exact ⟨_, o, orElse_error.mpr (.inl ⟨eq, stops.final⟩), stops, le⟩

/-- A node stops where its first part does. -/
lemma node_stops_first (h : StopsBy (first.read c) bound) :
    StopsBy ((node rule first rs).read c) bound := by
  obtain ⟨refusal, o, eq, stops, le⟩ := h
  exact ⟨_, o, node_error.mpr (readAll_cons_error.mpr (.inl eq)), stops, le⟩

/-- A node whose first part is read stops where its second part does. -/
lemma node_stops_second (h1 : first.read c = .ok (n, d)) (h2 : StopsBy (second.read d) bound) :
    StopsBy ((node rule first (second :: rs)).read c) bound := by
  obtain ⟨refusal, o, eq, stops, le⟩ := h2
  have more : readAll (second :: rs) d = .error refusal := readAll_cons_error.mpr (.inl eq)
  exact ⟨_, o, node_error.mpr (readAll_cons_error.mpr (.inr ⟨n, d, h1, more⟩)), stops, le⟩

/-- A repetition stops where its first round does. -/
lemma readMany_stops_first (h : StopsBy (r.read c) bound) : StopsBy (readMany r c) bound := by
  obtain ⟨refusal, o, eq, stops, le⟩ := h
  exact ⟨_, o, readMany_error.mpr (.inl ⟨eq, stops.final⟩), stops, le⟩

/-- A repetition stops where the rounds after the first one do. -/
lemma readMany_stops_later (h1 : r.read c = .ok (n, d)) (h2 : StopsBy (readMany r d) bound) :
    StopsBy (readMany r c) bound := by
  obtain ⟨refusal, o, eq, stops, le⟩ := h2
  exact ⟨_, o, readMany_error.mpr (.inr ⟨n, d, h1, eq⟩), stops, le⟩

/-- A chain stops where its first operand does. -/
lemma chain_stops_first (h : StopsBy (operand.read c) bound) :
    StopsBy ((chain rule operand operator).read c) bound := by
  obtain ⟨refusal, o, eq, stops, le⟩ := h
  exact ⟨_, o, chain_error.mpr (.inl eq), stops, le⟩

/-- A chain stops where the links after its first operand do. -/
lemma chain_stops_links (h1 : operand.read c = .ok (n, d))
    (h2 : StopsBy (readMany (node .link operator [operand]) d) bound) :
    StopsBy ((chain rule operand operator).read c) bound := by
  obtain ⟨refusal, o, eq, stops, le⟩ := h2
  exact ⟨_, o, chain_error.mpr (.inr ⟨n, d, h1, eq⟩), stops, le⟩

/-- An operand stops where what is read inside it does. -/
lemma nested_stops (h : StopsBy (r.read { c with depth := c.depth + 1 }) bound) :
    StopsBy ((nested r).read c) bound := by
  obtain ⟨refusal, o, eq, stops, le⟩ := h
  exact ⟨_, o, nested_error.mpr eq, stops, le⟩

end Reader

end Reckoner
