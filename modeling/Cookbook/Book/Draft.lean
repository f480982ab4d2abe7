import Cookbook.Book.Basic

/-!
# Drafting a book

A draft collects definitions and recipes in the order in which they are
written.  The book made from it is refused for the first key that two recipes
claim, or else for the first variable that is defined twice.
-/

namespace Cookbook

/-- The steps of a command line, each in the directory that it is run in. -/
def Step.ofLine (line : String) (directory : Option String) (quiet : Bool) :
    Except Failure (List Step) :=
  match Chain.steps line directory quiet with
  | .error problem => .error (.badTemplate line problem none)
  | .ok steps => .ok steps

/-- Commands as they may be written in a recipe: a line, a finished step, or a group. -/
inductive Entry
  | line (text : String)
  | step (step : Step)
  | group (entries : List Entry)

namespace Entry

mutual

/-- The steps that an entry stands for. -/
def steps : Entry → Except Failure (List Step)
  | .line text => Step.ofLine text none false
  | .step found => .ok [found]
  | .group entries => stepsOfAll entries

/-- The steps of entries, in order. -/
def stepsOfAll : List Entry → Except Failure (List Step)
  | [] => .ok []
  | entry :: rest =>
    match entry.steps with
    | .error failure => .error failure
    | .ok front => (front ++ ·) <$> stepsOfAll rest

end

end Entry

/-- A recipe with the steps that its entries stand for. -/
def Recipe.ofEntries (name : String) (entries : List Entry) (needs aliases : List String)
    (doc : Option String) : Except Failure Recipe :=
  (Recipe.mk name · needs aliases doc) <$> Entry.stepsOfAll entries

/-- A recipe as it is stated, where one more alias may stand by itself. -/
def Recipe.stated (name : String) (entries : List Entry) (needs aliases : List String)
    (nickname doc : Option String) : Except Failure Recipe :=
  Recipe.ofEntries name entries needs (aliases ++ nickname.toList) doc

/-- Where a book comes from when its maker does not say. -/
def builtinSource : String :=
  "<builtin>"

/-- The material of a book, in the order of writing. -/
structure Draft where
  definitions : List (String × Value)
  recipes : List Recipe
  default : Option String
  source : String

namespace Draft

def blank (source : String) : Draft :=
  ⟨[], [], none, source⟩

def define (draft : Draft) (name : String) (value : Value) : Draft :=
  { draft with definitions := draft.definitions ++ [(name, value)] }

def add (draft : Draft) (recipes : List Recipe) : Draft :=
  { draft with recipes := draft.recipes ++ recipes }

/-- States the default recipe, in place of an earlier statement. -/
def setDefault (draft : Draft) (name : String) : Draft :=
  { draft with default := some name }

/-- The book of a draft. -/
def book (draft : Draft) : Except Failure Book :=
  match Catalog.ofList draft.recipes with
  | .error failure => .error failure
  | .ok catalog =>
    match Bindings.ofList draft.definitions with
    | .error failure => .error failure
    | .ok bindings => .ok ⟨bindings, catalog, draft.default, draft.source⟩

end Draft

/-- The book of some recipes and variables, stated all at once. -/
def Book.ofRecipes (recipes : List Recipe) (definitions : List (String × Value))
    (default : Option String) (source : String) : Except Failure Book :=
  Draft.book ⟨definitions, recipes, default, source⟩

end Cookbook
