import Cookbook.Chain

/-!
# Bodies of recipes

The body of a recipe is a list of numbered lines.  A line that ends in a
backslash goes on in the next one; the merged command keeps the number of its
first line.  A command may be a comment, may be empty, and may ask not to be
shown before it runs.
-/

namespace Cookbook.Justfile

/-- A line with its number. -/
structure Numbered where
  number : Nat
  text : List Char
  deriving DecidableEq

/-- Something wrong with a numbered line. -/
structure Fault where
  number : Nat
  problem : LineProblem
  deriving DecidableEq

/-- A line as the continuation of an unfinished one, which keeps its own number. -/
def Numbered.after (line : Numbered) : Option Numbered → Numbered
  | none => line
  | some front => ⟨front.number, front.text ++ ' ' :: Text.trim line.text⟩

/-- Whether a line goes on in the next one. -/
def Numbered.isUnfinished (line : Numbered) : Bool :=
  line.text.getLast? == some '\\'

/-- An unfinished line without its backslash. -/
def Numbered.withoutBackslash (line : Numbered) : Numbered :=
  ⟨line.number, Text.trimRight line.text.dropLast⟩

/-- Merges continued lines, the first of them with an unfinished line in front. -/
def mergeFrom (unfinished : Option Numbered) :
    List Numbered → Except Fault (List Numbered)
  | [] =>
    match unfinished with
    | none => .ok []
    | some front => .error ⟨front.number, .danglingContinuation⟩
  | line :: rest =>
    let merged := line.after unfinished
    if merged.isUnfinished then
      mergeFrom (some merged.withoutBackslash) rest
    else
      (merged :: ·) <$> mergeFrom none rest

def merge (body : List Numbered) : Except Fault (List Numbered) :=
  mergeFrom none body

/-- The steps of a command line of which the surrounding blanks are gone. -/
def stepsOfCommand (quiet : Bool) (command : List Char) :
    Except TemplateProblem (List Step) :=
  match command with
  | [] => .ok []
  | '#' :: _ => .ok []
  | '@' :: rest =>
    let unmarked := Text.trimLeft rest
    if unmarked.isEmpty then .ok [] else Chain.steps (String.ofList unmarked) none true
  | _ => Chain.steps (String.ofList command) none quiet

/-- The steps of merged lines, in order. -/
def stepsOfLines (quiet : Bool) : List Numbered → Except Fault (List Step)
  | [] => .ok []
  | line :: rest =>
    match stepsOfCommand quiet (Text.trim line.text) with
    | .error problem => .error ⟨line.number, .command problem⟩
    | .ok front => (front ++ ·) <$> stepsOfLines quiet rest

def stepsOfBody (quiet : Bool) (body : List Numbered) : Except Fault (List Step) :=
  match merge body with
  | .error fault => .error fault
  | .ok lines => stepsOfLines quiet lines

end Cookbook.Justfile
