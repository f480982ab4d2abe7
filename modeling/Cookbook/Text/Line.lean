/-!
# Lines

A text falls into lines at the line boundaries of Unicode.  A carriage return
followed by a line feed is one boundary, and a boundary at the very end opens
no further line.  Reading a file first turns every carriage return, alone or
before a line feed, into a line feed.
-/

namespace Cookbook.Text

/-- The characters that end a line. -/
def isLineBreak (letter : Char) : Bool :=
  let code := letter.toNat
  (10 ≤ code && code ≤ 13) || (28 ≤ code && code ≤ 30) ||
    code == 0x85 || code == 0x2028 || code == 0x2029

/-- The lines of a text without their boundaries. -/
def lines : List Char → List (List Char)
  | [] => []
  | '\r' :: '\n' :: rest => [] :: lines rest
  | letter :: rest =>
    if isLineBreak letter then
      [] :: lines rest
    else
      match lines rest with
      | [] => [[letter]]
      | line :: further => (letter :: line) :: further

/-- Writes every end of line of a stored text as one line feed. -/
def unifyNewlines : List Char → List Char
  | [] => []
  | '\r' :: '\n' :: rest => '\n' :: unifyNewlines rest
  | '\r' :: rest => '\n' :: unifyNewlines rest
  | letter :: rest => letter :: unifyNewlines rest

@[simp]
theorem lines_nil :
    lines [] = [] :=
  rfl

@[simp]
theorem unifyNewlines_nil :
    unifyNewlines [] = [] :=
  rfl

end Cookbook.Text
