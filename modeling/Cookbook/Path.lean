/-!
# Paths

A path is an anchor and a list of names.  Reading one drops empty names and
single dots, so two texts that name the same place without looking at the
files have one path.  A double dot stays: what it means depends on the files.
-/

namespace Cookbook

/-- Where a path starts: two slashes are a root of their own, three are one again. -/
inductive Anchor
  | working
  | root
  | doubleRoot
  deriving DecidableEq

def Anchor.text : Anchor → String
  | .working => ""
  | .root => "/"
  | .doubleRoot => "//"

/-- A place among files. -/
structure Path where
  anchor : Anchor
  names : List String
  deriving DecidableEq

namespace Path

/-- The pieces of a text between its slashes. -/
def pieces : List Char → List (List Char)
  | [] => [[]]
  | letter :: rest =>
    if letter == '/' then
      [] :: pieces rest
    else
      match pieces rest with
      | [] => [[letter]]
      | piece :: further => (letter :: piece) :: further

/-- Pieces that lead somewhere. -/
def isName (piece : List Char) : Bool :=
  !piece.isEmpty && piece != ['.']

/-- The anchor of a text, from the number of slashes in front. -/
def anchorOf (text : List Char) : Anchor :=
  match (text.takeWhile (· == '/')).length with
  | 0 => .working
  | 2 => .doubleRoot
  | _ => .root

def ofString (text : String) : Path :=
  ⟨anchorOf text.toList, ((pieces text.toList).filter isName).map String.ofList⟩

/-- The directory that relative paths start from. -/
def here : Path :=
  ⟨.working, []⟩

def toString (path : Path) : String :=
  if path = here then "."
  else path.anchor.text ++ "/".intercalate path.names

/-- Whether a name holds a NUL character, which no file name does. -/
def isUnnameable (path : Path) : Bool :=
  path.names.any (·.toList.contains '\x00')

/-- A path relative to another one; an absolute path replaces it. -/
def append (base target : Path) : Path :=
  match target.anchor with
  | .working => ⟨base.anchor, base.names ++ target.names⟩
  | _ => target

/-- A written path relative to a path. -/
def join (base : Path) (target : String) : Path :=
  base.append (ofString target)

/-- The last name of a path from its last dot on, if that dot has text on both sides. -/
def suffix (path : Path) : String :=
  match path.names.getLast? with
  | none => ""
  | some name =>
    let back := name.toList.reverse.takeWhile (· != '.')
    let stem := name.toList.reverse.drop (back.length + 1)
    if back.isEmpty || stem.isEmpty then ""
    else String.ofList ('.' :: back.reverse)

/--
A written path relative to another written path, for texts that may still hold
placeholders: an absolute one replaces what stands before it, and a slash is
put between the two unless the first is empty or ends in one.
-/
def joinText (base target : String) : String :=
  if target.toList.head? == some '/' then target
  else if base.isEmpty || base.toList.getLast? == some '/' then base ++ target
  else base ++ "/" ++ target

/-- The name of the home directory that a path starts with. -/
def homeName? (path : Path) : Option String :=
  match path with
  | ⟨.working, name :: _⟩ => if name.toList.head? = some '~' then some name else none
  | _ => none

/-- The path with a written home directory in place of its first name. -/
def inHome (home : String) (path : Path) : Path :=
  (ofString home).append ⟨.working, path.names.drop 1⟩

@[simp]
theorem append_here
    (base : Path) :
    base.append here = base := by
  simp [append, here]

end Path

end Cookbook
