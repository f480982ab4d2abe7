import Cookbook.Identifier
import Cookbook.Text.Blank

/-!
# Templates

A template is a text with placeholders.  A placeholder is a variable name
between two opening and two closing braces, with blanks allowed around the
name; four opening braces stand for two literal ones.  Reading a template
gives its parts, and two literal characters that touch belong to one part.
-/

namespace Cookbook

/-- A stretch of a template that is kept, or the name of a variable. -/
inductive Part
  | literal (text : List Char)
  | placeholder (name : String)
  deriving DecidableEq

namespace Part

def name? : Part → Option String
  | .literal _ => none
  | .placeholder name => some name

/-- Adds a literal character in front of parts, inside the first part if that is literal. -/
def push (letter : Char) : List Part → List Part
  | .literal text :: rest => .literal (letter :: text) :: rest
  | parts => .literal [letter] :: parts

end Part

namespace Template

/-- What is left of a text after two closing braces. -/
def closing? : List Char → Option (List Char)
  | '}' :: '}' :: rest => some rest
  | _ => none

/-- The name of a placeholder whose opening braces were just read, with the rest of the text. -/
def placeholder? (text : List Char) : Option (String × List Char) :=
  match Identifier.take? (Text.trimLeft text) with
  | none => none
  | some (name, rest) =>
    match closing? (Text.trimLeft rest) with
    | none => none
    | some rest => some (String.ofList name, rest)

theorem length_dropWhile_le
    (test : Char → Bool)
    (text : List Char) :
    (text.dropWhile test).length ≤ text.length :=
  (List.dropWhile_sublist test).length_le

theorem length_le_of_closing?
    {text rest : List Char}
    (closed : closing? text = some rest) :
    rest.length ≤ text.length := by
  unfold closing? at closed
  split at closed
  · simp only [Option.some.injEq] at closed
    subst closed
    simp only [List.length_cons]
    omega
  · simp at closed

/-- A placeholder uses up part of the text. -/
theorem length_lt_of_placeholder?
    {text rest : List Char}
    {name : String}
    (found : placeholder? text = some (name, rest)) :
    rest.length < text.length := by
  unfold placeholder? at found
  split at found
  · simp at found
  · rename_i letters afterName taken
    split at found
    · simp at found
    · rename_i afterBraces closed
      simp only [Option.some.injEq, Prod.mk.injEq] at found
      obtain ⟨_, rfl⟩ := found
      have inName := Identifier.length_lt_of_take? taken
      have inBraces := length_le_of_closing? closed
      have inFront := length_dropWhile_le Text.isBlank text
      have inMiddle := length_dropWhile_le Text.isBlank afterName
      unfold Text.trimLeft at inName inBraces
      omega

/--
The parts of a text that starts at a column of its template, or the column of
the first opening braces that no placeholder follows.
-/
def partsFrom (column : Nat) (text : List Char) : Except Nat (List Part) :=
  match text with
  | '{' :: '{' :: '{' :: '{' :: rest =>
    (fun parts => Part.push '{' (Part.push '{' parts)) <$> partsFrom (column + 4) rest
  | '{' :: '{' :: rest =>
    match found : placeholder? rest with
    | none => .error column
    | some (name, later) =>
      (Part.placeholder name :: ·) <$>
        partsFrom (column + 2 + (rest.length - later.length)) later
  | letter :: rest => Part.push letter <$> partsFrom (column + 1) rest
  | [] => .ok []
termination_by text.length
decreasing_by
  · simp only [List.length_cons]; omega
  · have := length_lt_of_placeholder? found
    simp only [List.length_cons]
    omega
  · simp only [List.length_cons]; omega

/-- The parts of a template, or the column of its first malformed placeholder. -/
def parts (template : String) : Except Nat (List Part) :=
  partsFrom 1 template.toList

/-- The variables that a template names, in order of appearance. -/
def variableNames (template : String) : Except Nat (List String) :=
  (parts template).map (·.filterMap Part.name?)

/-- The text of parts whose variables have the given values. -/
def fill (value : String → Option String) : List Part → Except String (List Char)
  | [] => .ok []
  | .literal text :: rest => (text ++ ·) <$> fill value rest
  | .placeholder name :: rest =>
    match value name with
    | none => .error name
    | some text => (text.toList ++ ·) <$> fill value rest

end Template

end Cookbook
