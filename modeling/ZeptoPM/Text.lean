import Mathlib.Data.List.Basic

/- Text as a list of characters: trimming, searching and slicing with the
   conventions of a string library that returns nothing where a pattern is
   absent and refuses a range whose start lies behind its end. Positions count
   characters; the patterns and delimiters searched for are ASCII, so a
   position found here and the byte offset it stands for are the same boundary. -/
namespace ZeptoPM.Text

/-- Unicode `White_Space`. -/
def isWhitespace (c : Char) : Bool :=
  let n := c.toNat
  (9 ≤ n && n ≤ 13) || n == 32 || n == 0x85 || n == 0xA0 || n == 0x1680 ||
    (0x2000 ≤ n && n ≤ 0x200A) || n == 0x2028 || n == 0x2029 || n == 0x202F ||
    n == 0x205F || n == 0x3000

def trimStart (s : List Char) : List Char := s.dropWhile isWhitespace

def trimEnd (s : List Char) : List Char := (s.reverse.dropWhile isWhitespace).reverse

def trim (s : List Char) : List Char := trimEnd (trimStart s)

/-- The position of the first occurrence of `pat`. -/
def find (pat : List Char) : List Char → Option Nat
  | [] => if pat.isEmpty then some 0 else none
  | c :: s => if pat.isPrefixOf (c :: s) then some 0 else (find pat s).map (· + 1)

/-- Whether `pat` occurs. -/
def contains (pat s : List Char) : Bool := (find pat s).isSome

/-- The position of the last occurrence of the character `c`. -/
def rfindChar (c : Char) (s : List Char) : Option Nat :=
  (find [c] s.reverse).map (fun i => s.length - 1 - i)

/-- `s[i..=j]`; `none` is the panic on a range that starts behind its end. -/
def sliceInclusive (s : List Char) (i j : Nat) : Option (List Char) :=
  if i ≤ j + 1 then some ((s.drop i).take (j + 1 - i)) else none

/-- The text between a fence opened by `fence` and the next "```", trimmed. -/
def fenced (fence s : List Char) : Option (List Char) :=
  match find fence s with
  | none => none
  | some start =>
    let after := s.drop (start + fence.length)
    match find "```".toList after with
    | none => none
    | some stop => some (trim (after.take stop))

end ZeptoPM.Text
