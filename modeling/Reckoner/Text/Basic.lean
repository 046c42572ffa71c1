/-!
# Text

A text is the list of its characters.  Offsets into it count the bytes of its UTF-8 form, so an
offset may also fall inside a character or beyond the end: no cut is possible there.  Main
statements: cutting after a whole part gives that part and the rest back (`takeBytes?_size_append`,
`dropBytes?_size_append`), and a part is the slice of the span that it takes up (`slice_append`).
-/

namespace Reckoner

/-- The characters of a document, in order. -/
abbrev Text := List Char

/-- A region of a text, from byte `start` up to byte `stop`. -/
structure Span where
  start : Nat
  stop : Nat
  deriving DecidableEq, Inhabited

/-- The span of the single character `c` at an offset. -/
def Span.ofChar (offset : Nat) (c : Char) : Span := ⟨offset, offset + c.utf8Size⟩

/-- A span covers nothing when it does not stop after its start. -/
def Span.isEmpty (span : Span) : Bool := span.stop ≤ span.start

namespace Text

/-- The number of bytes of a text in UTF-8. -/
def size : Text → Nat
  | [] => 0
  | c :: rest => c.utf8Size + size rest

/-- What stands before offset `k`, if a character starts there or the text ends there. -/
def takeBytes? : Nat → Text → Option Text
  | 0, _ => some []
  | _ + 1, [] => none
  | k + 1, c :: rest =>
    if c.utf8Size ≤ k + 1 then (takeBytes? (k + 1 - c.utf8Size) rest).map (c :: ·) else none

/-- What stands from offset `k` on, if a character starts there or the text ends there. -/
def dropBytes? : Nat → Text → Option Text
  | 0, t => some t
  | _ + 1, [] => none
  | k + 1, c :: rest => if c.utf8Size ≤ k + 1 then dropBytes? (k + 1 - c.utf8Size) rest else none

/-- A text cut down to `k` bytes; a text of fewer bytes stays whole.  No cut is asked for inside a
character. -/
def truncate (t : Text) (k : Nat) : Text := (takeBytes? k t).getD t

/-- What a span covers; nothing if it is inverted, leaves the text or cuts a character. -/
def slice (t : Text) (span : Span) : Text :=
  if span.start ≤ span.stop then
    ((dropBytes? span.start t).bind (takeBytes? (span.stop - span.start))).getD []
  else []

@[simp] theorem size_nil : size [] = 0 := rfl

@[simp] theorem size_cons (c : Char) (t : Text) : size (c :: t) = c.utf8Size + size t := rfl

/-- The bytes of two texts add up. -/
@[simp] theorem size_append (s t : Text) : size (s ++ t) = size s + size t := by
  induction s with
  | nil => simp
  | cons c s ih => simp [ih, Nat.add_assoc]

@[simp] theorem takeBytes?_zero (t : Text) : takeBytes? 0 t = some [] := by
  cases t <;> rfl

@[simp] theorem dropBytes?_zero (t : Text) : dropBytes? 0 t = some t := by
  cases t <;> rfl

/-- Before the end of the first of two parts stands that part. -/
theorem takeBytes?_size_append (s t : Text) : takeBytes? s.size (s ++ t) = some s := by
  induction s with
  | nil => simp
  | cons c s ih =>
    obtain ⟨k, hk⟩ := Nat.exists_eq_succ_of_ne_zero (Nat.ne_of_gt c.utf8Size_pos)
    have h : size (c :: s) = (k + size s) + 1 := by simp [hk]; omega
    have left : k + size s + 1 - c.utf8Size = size s := by omega
    rw [h, List.cons_append, takeBytes?, if_pos (by omega), left, ih]
    rfl

/-- From the end of the first of two parts on stands the second. -/
theorem dropBytes?_size_append (s t : Text) : dropBytes? s.size (s ++ t) = some t := by
  induction s with
  | nil => simp
  | cons c s ih =>
    obtain ⟨k, hk⟩ := Nat.exists_eq_succ_of_ne_zero (Nat.ne_of_gt c.utf8Size_pos)
    have h : size (c :: s) = (k + size s) + 1 := by simp [hk]; omega
    have left : k + size s + 1 - c.utf8Size = size s := by omega
    rw [h, List.cons_append, dropBytes?, if_pos (by omega), left, ih]

/-- A span that covers the middle of a text has that middle as its slice. -/
theorem slice_append (before middle after : Text) :
    slice (before ++ (middle ++ after)) ⟨before.size, before.size + middle.size⟩ = middle := by
  simp [slice, dropBytes?_size_append, takeBytes?_size_append]

end Text

end Reckoner
