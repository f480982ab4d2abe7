import Cookbook.Justfile.Reading
import Cookbook.Proofs.Text.Line

/-!
# Justfiles as they are meant

A justfile is meant as a sequence of items: blank lines, comments, variables,
aliases, and recipes with their command lines.  The module says how items are
written, which of them can be, and what a book made from them holds.
-/

namespace Cookbook.Justfile

/-- A command line of a body: its indentation, whether it is marked as quiet, and the line. -/
structure Command where
  indentation : String
  quiet : Bool
  line : String
  deriving DecidableEq

/-- What justfiles are made of. -/
inductive Item
  | blank
  | comment (text : String)
  | definition (name value : String)
  | nickname (name target : String)
  | recipe (quiet : Bool) (name : String) (needs : List String) (body : List Command)

/-! ## How items are written -/

/-- The mark in front of what is quiet. -/
def mark (quiet : Bool) : List Char :=
  if quiet then ['@'] else []

def Command.written (command : Command) : List Char :=
  command.indentation.toList ++ (mark command.quiet ++ command.line.toList)

/-- How a character of a value is written between double quotes. -/
def escapedCharacter : Char → List Char
  | '\n' => ['\\', 'n']
  | '\t' => ['\\', 't']
  | '\r' => ['\\', 'r']
  | '"' => ['\\', '"']
  | '\\' => ['\\', '\\']
  | letter => [letter]

/-- The sign between a name and what it is defined as. -/
def definitionSign : List Char :=
  [' ', ':', '=', ' ']

/-- The word that starts an alias line. -/
def aliasWord : List Char :=
  ['a', 'l', 'i', 'a', 's']

def quotedValue (value : String) : List Char :=
  '"' :: (value.toList.flatMap escapedCharacter ++ ['"'])

/-- Needs with a space in front of each. -/
def spaced (needs : List String) : List Char :=
  needs.flatMap (' ' :: ·.toList)

/-- The lines that an item is written as. -/
def Item.written : Item → List (List Char)
  | .blank => [[]]
  | .comment text => ['#' :: ' ' :: text.toList]
  | .definition name value => [name.toList ++ (definitionSign ++ quotedValue value)]
  | .nickname name target =>
    [aliasWord ++ ' ' :: (name.toList ++ (definitionSign ++ target.toList))]
  | .recipe quiet name needs body =>
    (mark quiet ++ (name.toList ++ ':' :: spaced needs)) :: body.map Command.written

/-- The justfile of some items. -/
def textOf (items : List Item) : String :=
  String.ofList ((items.flatMap Item.written).flatMap (· ++ ['\n']))

/-! ## What items mean -/

/-- The steps of a command line in a recipe that is quiet or not. -/
def Command.steps (quiet : Bool) (command : Command) : List Step :=
  match Chain.steps command.line none (quiet || command.quiet) with
  | .ok found => found
  | .error _ => []

def Item.definition? : Item → Option (String × String)
  | .definition name value => some (name, value)
  | _ => none

def Item.nickname? : Item → Option (String × String)
  | .nickname name target => some (name, target)
  | _ => none

def Item.recipeName? : Item → Option String
  | .recipe _ name _ _ => some name
  | _ => none

/-- The documentation that an item gives to a recipe right behind it. -/
def Item.doc : Item → Option String
  | .comment text => docOfComment text.toList
  | _ => none

/-- The recipe of an item that stands behind some documentation. -/
def Item.recipe? (nicknames : String → List String) (doc : Option String) :
    Item → Option Recipe
  | .recipe quiet name needs body =>
    some ⟨name, body.flatMap (Command.steps quiet), needs, nicknames name, doc⟩
  | _ => none

def definitionsIn (items : List Item) : List (String × String) :=
  items.filterMap Item.definition?

/-- The aliases of items, each with the recipe it stands for. -/
def nicknamesIn (items : List Item) : List (String × String) :=
  items.filterMap Item.nickname?

def recipeNames (items : List Item) : List String :=
  items.filterMap Item.recipeName?

/-- The aliases of a recipe, in the order of the items. -/
def nicknamesOf (items : List Item) (target : String) : List String :=
  ((nicknamesIn items).filter (·.2 == target)).map Prod.fst

/-- The recipes of items, each documented by the comment right in front of it. -/
def recipesFrom (nicknames : String → List String) (doc : Option String) :
    List Item → List Recipe
  | [] => []
  | item :: rest => (item.recipe? nicknames doc).toList ++ recipesFrom nicknames item.doc rest

def recipesIn (items : List Item) : List Recipe :=
  recipesFrom (nicknamesOf items) none items

/-! ## Which items can be written -/

/-- A text that may name something. -/
def IsName (name : String) : Prop :=
  Identifier.isIdentifier name.toList = true

/--
A command line that can be cut into steps, that no mark, comment or blank is
taken for, and that does not go on in the next line.
-/
structure Command.Sound (command : Command) : Prop where
  indented : command.indentation ≠ ""
  margin : ∀ letter ∈ command.indentation.toList, letter = ' ' ∨ letter = '\t'
  unbroken : Text.Unbroken command.line.toList
  first : ∀ letter ∈ command.line.toList.head?,
    letter ≠ '#' ∧ letter ≠ '@' ∧ Text.isBlank letter = false
  last : ∀ letter ∈ command.line.toList.getLast?, letter ≠ '\\' ∧ Text.isBlank letter = false
  accepted : ∃ found, Chain.steps command.line = .ok found

/-- An item whose names are names and whose texts fit on their lines. -/
inductive Item.Sound : Item → Prop
  | blank :
      Sound .blank
  | comment {text : String}
      (unbroken : Text.Unbroken text.toList) :
      Sound (.comment text)
  | definition {name value : String}
      (named : IsName name)
      (free : name ∉ ["set", "export", "import", "mod"])
      (breaks : ∀ letter ∈ value.toList, Text.isLineBreak letter = true →
        letter = '\n' ∨ letter = '\r') :
      Sound (.definition name value)
  | nickname {name target : String}
      (named : IsName name)
      (targeted : IsName target) :
      Sound (.nickname name target)
  | recipe {quiet : Bool} {name : String} {needs : List String} {body : List Command}
      (named : IsName name)
      (needed : ∀ need ∈ needs, IsName need)
      (commands : ∀ command ∈ body, command.Sound) :
      Sound (.recipe quiet name needs body)

/--
Sound items that define no variable twice, give no key to two recipes, and have
a recipe for each alias.
-/
structure WellFormed (items : List Item) : Prop where
  sound : ∀ item ∈ items, item.Sound
  definitions : ((definitionsIn items).map Prod.fst).Nodup
  keys : (recipeNames items ++ (nicknamesIn items).map Prod.fst).Nodup
  targets : ∀ nickname ∈ nicknamesIn items, nickname.2 ∈ recipeNames items

end Cookbook.Justfile
