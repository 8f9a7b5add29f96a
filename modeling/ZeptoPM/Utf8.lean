import ZeptoPM.Delimiters

/- Text addressed by the offsets of its bytes in UTF-8. A search returns the offset of
   the first byte of what it finds; a slice is refused where an offset lies inside a
   character, behind the end of the text, or before the other end of the range. -/
namespace ZeptoPM.Utf8
open Text

def byteLen : List Char → Nat
  | [] => 0
  | c :: s => c.utf8Size + byteLen s

/-- The text before and behind the byte offset; `none` where the offset is not the
boundary of a character. -/
def splitAt : List Char → Nat → Option (List Char × List Char)
  | s, 0 => some ([], s)
  | [], _ + 1 => none
  | c :: s, n + 1 =>
    if c.utf8Size ≤ n + 1 then
      (splitAt s (n + 1 - c.utf8Size)).map (fun p => (c :: p.1, p.2))
    else none

/-- `s.find(pat)`. -/
def find (pat : List Char) : List Char → Option Nat
  | [] => if pat.isEmpty then some 0 else none
  | c :: s => if pat.isPrefixOf (c :: s) then some 0 else (find pat s).map (· + c.utf8Size)

/-- `s.rfind(c)`. -/
def rfindChar (c : Char) : List Char → Option Nat
  | [] => none
  | x :: s =>
    match rfindChar c s with
    | some i => some (i + x.utf8Size)
    | none => if x = c then some 0 else none

/-- `&s[i..]`. -/
def sliceFrom (s : List Char) (i : Nat) : Option (List Char) := (splitAt s i).map (·.2)

/-- `&s[..j]`. -/
def sliceTo (s : List Char) (j : Nat) : Option (List Char) := (splitAt s j).map (·.1)

/-- `&s[i..=j]`. -/
def sliceInclusive (s : List Char) (i j : Nat) : Option (List Char) :=
  if i ≤ j + 1 then (sliceTo s (j + 1)).bind (sliceFrom · i) else none

section
variable {pat s a b : List Char} {c : Char} {n : Nat}

@[simp] theorem byteLen_nil : byteLen [] = 0 := rfl

@[simp] theorem byteLen_cons (c : Char) (s : List Char) :
    byteLen (c :: s) = c.utf8Size + byteLen s := rfl

@[simp] theorem byteLen_append (s t : List Char) :
    byteLen (s ++ t) = byteLen s + byteLen t := by
  induction s with
  | nil => simp
  | cons c s ih => simp [ih, Nat.add_assoc]

theorem splitAt_append (a b : List Char) : splitAt (a ++ b) (byteLen a) = some (a, b) := by
  induction a with
  | nil => cases b <;> rfl
  | cons c a ih =>
    obtain ⟨n, hn⟩ : ∃ n, byteLen (c :: a) = n + 1 :=
      ⟨byteLen (c :: a) - 1, by have := c.utf8Size_pos; rw [byteLen_cons]; omega⟩
    rw [List.cons_append, hn, splitAt, ← hn, byteLen_cons, if_pos (by omega),
      Nat.add_sub_cancel_left, ih]
    rfl

theorem find_eq_cut (pat s : List Char) : find pat s = (cut pat s).map (byteLen ·.1) := by
  induction s with
  | nil =>
    unfold find cut
    split <;> rfl
  | cons c s ih =>
    unfold find cut
    split
    · rfl
    · rw [ih, Option.map_map, Option.map_map]
      refine congrArg (Option.map · _) (funext fun p => ?_)
      simp [Nat.add_comm]

theorem rfindChar_eq_cutLast (c : Char) (s : List Char) :
    rfindChar c s = (cutLast c s).map (byteLen ·.1) := by
  induction s with
  | nil => rfl
  | cons x s ih =>
    unfold rfindChar cutLast
    rw [ih]
    cases cutLast c s with
    | some p => simp [Nat.add_comm]
    | none =>
      dsimp only [Option.map_none]
      split <;> rfl

theorem sliceTo_append (a b : List Char) : sliceTo (a ++ b) (byteLen a) = some a := by
  rw [sliceTo, splitAt_append]
  rfl

theorem sliceFrom_append (a b : List Char) : sliceFrom (a ++ b) (byteLen a) = some b := by
  rw [sliceFrom, splitAt_append]
  rfl

/-- A range that starts behind its end is refused. -/
theorem sliceInclusive_eq_none {i j : Nat} (h : j + 1 < i) : sliceInclusive s i j = none :=
  if_neg (by omega)

/-- The range from one piece of a text to another. -/
theorem sliceInclusive_append (a m b : List Char) {j : Nat} (h : byteLen (a ++ m) = j + 1) :
    sliceInclusive (a ++ m ++ b) (byteLen a) j = some m := by
  have hle : byteLen a ≤ j + 1 := by
    rw [← h, byteLen_append]
    omega
  rw [sliceInclusive, if_pos hle, ← h, sliceTo_append, Option.bind_some, sliceFrom_append]

end

end ZeptoPM.Utf8
