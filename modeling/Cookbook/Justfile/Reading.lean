import Cookbook.Book.Draft
import Cookbook.Justfile.Body
import Cookbook.Justfile.Line
import Cookbook.Justfile.Literal
import Cookbook.Text.Line

/-!
# Reading a justfile

A justfile is read line by line.  The reader keeps the variables and aliases,
the recipes that are complete, the recipe whose body is still open, and the
comment that may document the next recipe.  Blank lines leave an open body
open; any other line that is not indented ends it.  Aliases are resolved after
the last line, so an alias may stand before its recipe.
-/

namespace Cookbook.Justfile

/-- A recipe as it is written. -/
structure Sketch where
  name : String
  needs : List String
  quiet : Bool
  doc : Option String
  body : List Numbered
  deriving DecidableEq

/-- An alias as it is written. -/
structure AliasLine where
  number : Nat
  name : String
  target : String
  deriving DecidableEq

/-- What is known after some lines. -/
structure Reading where
  definitions : List (String × String)
  aliases : List AliasLine
  complete : List Sketch
  current : Option Sketch
  doc : Option String

namespace Reading

def start : Reading :=
  ⟨[], [], [], none, none⟩

/-- All recipes, the open one last. -/
def sketches (reading : Reading) : List Sketch :=
  reading.complete ++ reading.current.toList

/-- Ends the open body and forgets the pending comment. -/
def close (reading : Reading) : Reading :=
  { reading with complete := reading.sketches, current := none, doc := none }

/-- Adds an indented line to the open body. -/
def indent (reading : Reading) (line : Numbered) : Except LineProblem Reading :=
  match reading.current with
  | none => .error .strayIndentation
  | some sketch =>
    .ok { reading with current := some { sketch with body := sketch.body ++ [line] } }

def skip (reading : Reading) : Reading :=
  match reading.current with
  | none => { reading with doc := none }
  | some _ => reading

/-- Adds a variable whose value is still to be read. -/
def define (reading : Reading) (name : String) (written : List Char) :
    Except LineProblem Reading :=
  if (reading.definitions.map Prod.fst).contains name then
    .error (.variableTaken name)
  else
    match decodeValue written with
    | .error problem => .error problem
    | .ok value =>
      .ok { reading.close with
        definitions := reading.definitions ++ [(name, String.ofList value)] }

/-- Opens a recipe, documented by the comment that stands right before it. -/
def openRecipe (reading : Reading) (quiet : Bool) (name : String) (needs : List (List Char)) :
    Except LineProblem Reading :=
  match needs.find? (!Identifier.isIdentifier ·) with
  | some need => .error (.needSyntax (String.ofList need) name)
  | none =>
    .ok { reading.close with
      current := some ⟨name, needs.map String.ofList, quiet, reading.doc, []⟩ }

/-- What is known after one more line, which has no blanks at its end. -/
def next (reading : Reading) (line : Numbered) : Except LineProblem Reading :=
  match Line.read line.text with
  | .blank => .ok reading.skip
  | .indented => reading.indent line
  | .comment doc => .ok { reading.close with doc := doc }
  | .nickname name target =>
    .ok { reading.close with
      aliases := reading.aliases ++ [⟨line.number, name, target⟩] }
  | .definition name written => reading.define name written
  | .header quiet name needs => reading.openRecipe quiet name needs
  | .unsupported => .error (.unsupported (String.ofList line.text))

/-- What is known after lines of which the first has the given number. -/
def continueFrom (reading : Reading) (number : Nat) :
    List (List Char) → Except Fault Reading
  | [] => .ok reading
  | line :: rest =>
    match reading.next ⟨number, Text.trimRight line⟩ with
    | .error problem => .error ⟨number, problem⟩
    | .ok later => later.continueFrom (number + 1) rest

/-- The first alias that stands for no recipe. -/
def danglingAlias? (reading : Reading) : Option AliasLine :=
  reading.aliases.find? fun written =>
    !(reading.sketches.map Sketch.name).contains written.target

/-- The aliases of a recipe name, in order. -/
def aliasesOf (reading : Reading) (name : String) : List String :=
  (reading.aliases.filter (·.target == name)).map AliasLine.name

/-- The recipes of sketches; of several with one name the last one has the aliases. -/
def recipesOf (reading : Reading) : List Sketch → Except Fault (List Recipe)
  | [] => .ok []
  | sketch :: rest =>
    match stepsOfBody sketch.quiet sketch.body with
    | .error fault => .error fault
    | .ok steps =>
      let aliases :=
        if (rest.map Sketch.name).contains sketch.name then []
        else reading.aliasesOf sketch.name
      (Recipe.mk sketch.name steps sketch.needs aliases sketch.doc :: ·) <$>
        reading.recipesOf rest

/-- The draft of a book, whose default recipe is the first one. -/
def draft (reading : Reading) (path : String) : Except Fault Draft :=
  match reading.danglingAlias? with
  | some written =>
    .error ⟨written.number, .unknownAliasTarget written.name written.target⟩
  | none =>
    match reading.recipesOf reading.sketches with
    | .error fault => .error fault
    | .ok recipes =>
      .ok
        { definitions := reading.definitions.map fun entry => (entry.1, Value.text entry.2)
          recipes := recipes
          default := recipes.head?.map Recipe.name
          source := path }

end Reading

/-- The failure that reports a fault of the justfile at a path. -/
def Fault.failure (fault : Fault) (path : String) : Failure :=
  .badJustfile path fault.number fault.problem

/-- Everything that a justfile says. -/
def read (text : String) : Except Fault Reading :=
  Reading.start.continueFrom 1 (Text.lines text.toList)

/-- The book that a justfile describes. -/
def book (text : String) (path : String := "justfile") : Except Failure Book :=
  match read text with
  | .error fault => .error (fault.failure path)
  | .ok reading =>
    match reading.draft path with
    | .error fault => .error (fault.failure path)
    | .ok draft => draft.book

end Cookbook.Justfile
