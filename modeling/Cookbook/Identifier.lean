/-!
# Identifiers

Recipes, aliases and variables that are written in a file are named by
identifiers: a letter or underscore, then letters, digits, underscores and
hyphens.  Letters and digits are those of ASCII.
-/

namespace Cookbook.Identifier

/-- The characters an identifier may start with. -/
def isStart (letter : Char) : Bool :=
  letter.isAlpha || letter == '_'

/-- The characters an identifier may go on with. -/
def isPart (letter : Char) : Bool :=
  letter.isAlphanum || letter == '_' || letter == '-'

/-- The longest identifier at the front of a text, with the rest of the text. -/
def take? : List Char → Option (List Char × List Char)
  | [] => none
  | letter :: rest =>
    if isStart letter then
      some (letter :: rest.takeWhile isPart, rest.dropWhile isPart)
    else
      none

def isIdentifier : List Char → Bool
  | [] => false
  | letter :: rest => isStart letter && rest.all isPart

@[simp]
theorem take?_nil :
    take? [] = none :=
  rfl

/-- Taking an identifier only cuts the text in two. -/
theorem append_of_take?
    {text name rest : List Char}
    (taken : take? text = some (name, rest)) :
    name ++ rest = text := by
  cases text with
  | nil => simp at taken
  | cons letter tail =>
    by_cases start : isStart letter = true
    · simp only [take?, start, if_true, Option.some.injEq, Prod.mk.injEq] at taken
      obtain ⟨rfl, rfl⟩ := taken
      simp [List.takeWhile_append_dropWhile]
    · simp [take?, start] at taken

/-- The text that is left after an identifier is shorter. -/
theorem length_lt_of_take?
    {text name rest : List Char}
    (taken : take? text = some (name, rest)) :
    rest.length < text.length := by
  have whole := append_of_take? taken
  cases text with
  | nil => simp at taken
  | cons letter tail =>
    by_cases start : isStart letter = true
    · simp only [take?, start, if_true, Option.some.injEq, Prod.mk.injEq] at taken
      obtain ⟨rfl, rfl⟩ := taken
      have := congrArg List.length whole
      simp only [List.length_append, List.length_cons] at this ⊢
      omega
    · simp [take?, start] at taken

end Cookbook.Identifier
