import Mathlib.Data.List.TakeWhile
import Reckoner.Grammar.Expression

/-!
# Tokens

What stands before a token and what a token is made of, as types that carry their characters'
class, and what the readers of single tokens read.  `Cursor.Passes` relates two places of a text by
what stands between them; every reader moves its cursor along it.  A token reader succeeds exactly
where its token comes next (`run_ok`, `run_read`, `symbol_ok`, `symbol_read`) and refuses without
finality elsewhere (`run_refuses`, `symbol_refuses`).
-/

namespace Reckoner

/-- A text of characters of one class. -/
structure Run (p : Char → Bool) where
  text : Text
  all : ∀ c ∈ text, p c = true

/-- Spaces that may stand before a token. -/
abbrev Blanks := Run isSpace

/-- A run of at least one character. -/
structure Lexeme (p : Char → Bool) extends Run p where
  nonempty : text ≠ []

/-- The run without characters. -/
def Run.nil {p : Char → Bool} : Run p := ⟨[], List.forall_mem_nil _⟩

/-- The run of a class that a text begins with. -/
def Run.front (p : Char → Bool) (t : Text) : Run p :=
  ⟨t.takeWhile p, fun _ mem => List.mem_takeWhile_imp mem⟩

namespace Run

variable {p : Char → Bool} {a b : Run p} {r s : Text}

/-- A run is taken from a text that does not go on with its class. -/
lemma takeWhile_append (w : Run p) (stop : ∀ c ∈ r.head?, p c = false) :
    (w.text ++ r).takeWhile p = w.text := by
  rw [List.takeWhile_append_of_pos w.all]
  cases r with
  | nil => simp
  | cons c r =>
    have other := stop c (by simp)
    simp [other]

/-- What remains after a run is the text that does not go on with its class. -/
lemma dropWhile_append (w : Run p) (stop : ∀ c ∈ r.head?, p c = false) :
    (w.text ++ r).dropWhile p = r := by
  have parts : (w.text ++ r).takeWhile p ++ (w.text ++ r).dropWhile p = w.text ++ r :=
    List.takeWhile_append_dropWhile
  rw [w.takeWhile_append stop] at parts
  exact List.append_cancel_left parts

/-- A run is what a text begins with when the text does not go on with its class. -/
lemma front_append (w : Run p) (stop : ∀ c ∈ r.head?, p c = false) :
    front p (w.text ++ r) = w := by
  have same := w.takeWhile_append stop
  cases w
  simp only [front, same]

/-- Runs of a class end where their class does. -/
lemma append_inj (hr : ∀ c ∈ r.head?, p c = false) (hs : ∀ c ∈ s.head?, p c = false)
    (eq : a.text ++ r = b.text ++ s) : a = b ∧ r = s := by
  have fronts := congrArg (Run.front p) eq
  rw [a.front_append hr, b.front_append hs] at fronts
  subst fronts
  exact ⟨rfl, List.append_cancel_left eq⟩

end Run

/-- The leaf of a token that starts at an offset. -/
def Node.leaf (rule : Rule) (offset : Nat) (s : Text) : Node :=
  ⟨rule, ⟨offset, offset + s.size⟩, s, []⟩

namespace Cursor

/-- From `c` to `d` the text `s` is passed. -/
structure Passes (c : Cursor) (s : Text) (d : Cursor) : Prop where
  rest : c.rest = s ++ d.rest
  offset : d.offset = c.offset + s.size
  depth : d.depth = c.depth

/-- The empty text is passed in place. -/
lemma Passes.refl (c : Cursor) : c.Passes [] c := ⟨rfl, rfl, rfl⟩

/-- Texts one after the other are passed one after the other. -/
lemma Passes.trans {c d e : Cursor} {s t : Text} (h1 : c.Passes s d) (h2 : d.Passes t e) :
    c.Passes (s ++ t) e where
  rest := by rw [h1.rest, h2.rest, List.append_assoc]
  offset := by rw [h2.offset, h1.offset, Text.size_append, Nat.add_assoc]
  depth := h2.depth.trans h1.depth

/-- A passage over two texts stops between them. -/
lemma Passes.split {c e : Cursor} {s t : Text} (h : c.Passes (s ++ t) e) :
    ∃ d, c.Passes s d ∧ d.Passes t e := by
  refine ⟨⟨t ++ e.rest, c.offset + s.size, c.depth⟩, ⟨?_, rfl, rfl⟩, ⟨rfl, ?_, h.depth⟩⟩
  · rw [h.rest, List.append_assoc]
  · rw [h.offset, Text.size_append, Nat.add_assoc]

/-- A text in two parts is passed at the end of the first. -/
lemma passes_append {c e : Cursor} {s t : Text} :
    c.Passes (s ++ t) e ↔ ∃ d, c.Passes s d ∧ d.Passes t e :=
  ⟨Passes.split, fun ⟨_, h1, h2⟩ => h1.trans h2⟩

/-- After two parts the offset counts both. -/
lemma Passes.offset_append {c d : Cursor} {s t : Text} (h : c.Passes (s ++ t) d) :
    d.offset = c.offset + s.size + t.size := by
  rw [h.offset, Text.size_append, Nat.add_assoc]

/-- Passing a text leads on, if anywhere. -/
lemma Passes.offset_le {c d : Cursor} {s : Text} (h : c.Passes s d) : c.offset ≤ d.offset := by
  rw [h.offset]
  exact Nat.le_add_right ..

/-- Where a passage ends is determined by where it starts and by what it passes. -/
lemma Passes.unique {c d e : Cursor} {s : Text} (h1 : c.Passes s d) (h2 : c.Passes s e) :
    d = e := by
  have rest : d.rest = e.rest := List.append_cancel_left (h1.rest.symm.trans h2.rest)
  have offset : d.offset = e.offset := h1.offset.trans h2.offset.symm
  have depth : d.depth = e.depth := h1.depth.trans h2.depth.symm
  cases d; cases e
  cases rest; cases offset; cases depth
  rfl

/-- Passing does not depend on the number of open operands. -/
lemma Passes.nest {c d : Cursor} {s : Text} (h : c.Passes s d) (k : Nat) :
    Passes { c with depth := k } s { d with depth := k } := ⟨h.rest, h.offset, rfl⟩

/-- Advancing by the length of what comes next passes it. -/
lemma passes_advance {c : Cursor} {s r : Text} (h : c.rest = s ++ r) :
    c.Passes s (c.advance s.length) where
  rest := by simp [advance, h]
  offset := by simp [advance, h]
  depth := rfl

/-- Skipping spaces passes the spaces that come first. -/
lemma passes_skipSpaces (c : Cursor) : c.Passes (Run.front isSpace c.rest).text c.skipSpaces :=
  passes_advance List.takeWhile_append_dropWhile.symm

/-- Spaces before something else are what is skipped. -/
lemma Passes.skipSpaces {c d : Cursor} {w : Blanks} (h : c.Passes w.text d)
    (stop : ∀ ch ∈ d.rest.head?, isSpace ch = false) : c.skipSpaces = d := by
  have skip := c.passes_skipSpaces
  rw [h.rest, w.front_append stop] at skip
  exact skip.unique h

/-- The text that is passed is the extract between the two offsets. -/
lemma Passes.extract {c d e : Cursor} {s t : Text} (h1 : c.Passes s d) (h2 : d.Passes t e) :
    c.extract ⟨d.offset, e.offset⟩ = t := by
  have start : d.offset - c.offset = s.size := by rw [h1.offset]; omega
  have stop : e.offset - c.offset = s.size + t.size := by rw [h2.offset, h1.offset]; omega
  rw [Cursor.extract, start, stop, h1.rest, h2.rest]
  exact Text.slice_append s t e.rest

/-- The character that a token would start with. -/
def next? (c : Cursor) : Option Char := c.skipSpaces.rest.head?

/-- After spaces the first character is the next one. -/
lemma Passes.next? {c d : Cursor} {w : Blanks} {ch : Char} {s : Text}
    (h : c.Passes (w.text ++ ch :: s) d) (not : isSpace ch = false) : c.next? = some ch := by
  obtain ⟨m, h1, h2⟩ := h.split
  have skip : c.skipSpaces = m := by
    apply h1.skipSpaces
    rw [h2.rest]
    simpa using not
  rw [Cursor.next?, skip, h2.rest]
  rfl

/-- The first character after the spaces that remain is the next one. -/
lemma next?_of_rest {c : Cursor} {w : Blanks} {ch : Char} {s : Text}
    (rest : c.rest = w.text ++ ch :: s) (not : isSpace ch = false) : c.next? = some ch := by
  have pass : c.Passes (w.text ++ ch :: s) ⟨[], _, c.depth⟩ :=
    ⟨rest.trans (List.append_nil _).symm, rfl, rfl⟩
  exact pass.next? not

/-- The character that a token would start with is passed after spaces. -/
lemma exists_passes_of_next? {c : Cursor} {ch : Char} (h : c.next? = some ch) :
    ∃ (w : Blanks) (d : Cursor), c.Passes (w.text ++ [ch]) d := by
  obtain ⟨r, rest⟩ := List.head?_eq_some_iff.mp h
  have pass : c.skipSpaces.Passes [ch] (c.skipSpaces.advance 1) := passes_advance rest
  exact ⟨_, _, c.passes_skipSpaces.trans pass⟩

end Cursor

namespace Reader

variable {rule : Rule} {lexeme : Text → Nat} {p : Char → Bool} {c d : Cursor} {n : Node}

/-- What is read as a token is a leaf after spaces, as long as its lexeme says. -/
lemma token_ok (h : (token rule lexeme).read c = .ok (n, d)) :
    ∃ (w : Blanks) (s : Text),
      s ≠ [] ∧
      s = (s ++ d.rest).take (lexeme (s ++ d.rest)) ∧
      c.Passes (w.text ++ s) d ∧
      n = .leaf rule (c.offset + w.text.size) s := by
  have skip := c.passes_skipSpaces
  let s := c.skipSpaces.rest.take (lexeme c.skipSpaces.rest)
  have taken : c.skipSpaces.Passes s (c.skipSpaces.advance s.length) :=
    Cursor.passes_advance (List.take_append_drop (lexeme c.skipSpaces.rest) _).symm
  simp only [token] at h
  split at h
  case isTrue => cases h
  case isFalse nonempty =>
    cases h
    refine ⟨_, s, ?_, ?_, skip.trans taken, ?_⟩
    · exact fun none => nonempty (List.isEmpty_iff.mpr none)
    · rw [← taken.rest]
    · rw [Node.leaf, ← skip.offset, ← taken.offset]

/-- A token is read where its lexeme comes next, spaces aside. -/
lemma token_read {w : Blanks} {ch : Char} {s : Text} (pass : c.Passes (w.text ++ ch :: s) d)
    (start : isSpace ch = false) (length : lexeme (ch :: s ++ d.rest) = (ch :: s).length) :
    (token rule lexeme).read c = .ok (.leaf rule (c.offset + w.text.size) (ch :: s), d) := by
  obtain ⟨m, h1, h2⟩ := pass.split
  have skip : c.skipSpaces = m := by
    apply h1.skipSpaces
    rw [h2.rest]
    simpa using start
  have text : m.rest.take (lexeme m.rest) = ch :: s := by
    rw [h2.rest, length, List.take_left]
  have next : m.advance (ch :: s).length = d := (Cursor.passes_advance h2.rest).unique h2
  simp only [token, skip, text, next]
  rw [if_neg (by simp), Node.leaf, ← h1.offset, ← h2.offset]

/-- A token that is not there says nothing more. -/
lemma token_error {refusal : Refusal} (h : (token rule lexeme).read c = .error refusal) :
    refusal = ⟨false, []⟩ := by
  simp only [token] at h
  split at h
  case isTrue => cases h; rfl
  case isFalse => cases h

/-- No token is read where its lexeme is empty. -/
lemma token_refuses (none : lexeme c.skipSpaces.rest = 0) :
    (token rule lexeme).read c = .error ⟨false, []⟩ := by
  simp [token, none]

/-- What is read as a run is the run of its class that comes next. -/
lemma run_ok (h : (run rule p).read c = .ok (n, d)) :
    ∃ (w : Blanks) (s : Lexeme p),
      c.Passes (w.text ++ s.text) d ∧
      n = .leaf rule (c.offset + w.text.size) s.text := by
  obtain ⟨w, s, nonempty, longest, pass, rfl⟩ := token_ok h
  have whole : s = (s ++ d.rest).takeWhile p :=
    longest.trans (List.prefix_iff_eq_take.mp (List.takeWhile_prefix p)).symm
  refine ⟨w, ⟨⟨s, fun ch mem => ?_⟩, nonempty⟩, pass, rfl⟩
  rw [whole] at mem
  exact List.mem_takeWhile_imp mem

/-- A run of a class without spaces is read where it comes next and does not go on. -/
lemma run_read {w : Blanks} {s : Lexeme p} (disjoint : ∀ ch, p ch = true → isSpace ch = false)
    (pass : c.Passes (w.text ++ s.text) d) (stop : ∀ ch ∈ d.rest.head?, p ch = false) :
    (run rule p).read c = .ok (.leaf rule (c.offset + w.text.size) s.text, d) := by
  have longest := congrArg Run.text (s.front_append stop)
  obtain ⟨⟨s, all⟩, nonempty⟩ := s
  obtain ⟨ch, s, rfl⟩ := List.exists_cons_of_ne_nil nonempty
  exact token_read pass (disjoint ch (all ch List.mem_cons_self)) (congrArg List.length longest)

/-- No run is read where another class comes next. -/
lemma run_refuses (other : ∀ ch ∈ c.next?, p ch = false) :
    (run rule p).read c = .error ⟨false, []⟩ := by
  apply token_refuses
  cases e : c.skipSpaces.rest with
  | nil => rfl
  | cons ch r =>
    have := other ch (by simp [Cursor.next?, e])
    simp [this]

/-- What is read as a symbol is that symbol. -/
lemma symbol_ok {ch : Char} (h : (symbol rule ch).read c = .ok (n, d)) :
    ∃ w : Blanks, c.Passes (w.text ++ [ch]) d ∧ n = .leaf rule (c.offset + w.text.size) [ch] := by
  obtain ⟨w, s, nonempty, one, pass, rfl⟩ := token_ok h
  obtain ⟨first, s, rfl⟩ := List.exists_cons_of_ne_nil nonempty
  split at one
  case isTrue here =>
    simp only [List.cons_append, List.head?_cons, Option.some.injEq] at here
    simp only [List.cons_append, List.take_succ_cons, List.take_zero, List.cons.injEq, true_and]
      at one
    subst here one
    exact ⟨w, pass, rfl⟩
  case isFalse => simp at one

/-- A symbol is read where it comes next. -/
lemma symbol_read {w : Blanks} {ch : Char} (pass : c.Passes (w.text ++ [ch]) d)
    (start : isSpace ch = false) :
    (symbol rule ch).read c = .ok (.leaf rule (c.offset + w.text.size) [ch], d) :=
  token_read pass start (by simp)

/-- A symbol is not read where another character comes next. -/
lemma symbol_refuses {ch : Char} (other : c.next? ≠ some ch) :
    (symbol rule ch).read c = .error ⟨false, []⟩ :=
  token_refuses (if_neg other)

end Reader

end Reckoner
