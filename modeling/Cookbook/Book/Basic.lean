import Cookbook.Catalog.Search
import Cookbook.Substitution

/-!
# Recipe books

A book holds variables and a catalog, says where it comes from, and may name
the recipe to run by default.  Checking a book looks for every failure that
planning or substituting variables could meet, without running anything.
-/

namespace Cookbook

/-- A catalog with the variables that its templates use. -/
structure Book where
  bindings : Bindings
  catalog : Catalog
  default : Option String
  source : String

namespace Book

/--
The target that is run when none is given: the stated default, else a recipe
called `default`, else the first recipe.
-/
def implicitTarget (book : Book) : Except Failure String :=
  match book.default with
  | some target => .ok target
  | none =>
    if book.catalog.contains "default" then
      .ok "default"
    else
      match book.catalog.names with
      | [] => .error (.unusableBook book.source .noRecipes)
      | name :: _ => .ok name

/-- Looks for a malformed placeholder or an undefined variable in one template. -/
def checkTemplate (book : Book) (recipe template : String) : Except Failure Unit :=
  match Template.variableNames template with
  | .error column => .error (.badTemplate template (.malformedPlaceholder column) none)
  | .ok names =>
    match names.find? (!book.bindings.contains ·) with
    | some name => .error (.undefinedVariable name (some template) (some recipe))
    | none => .ok ()

/-- The templates of a step: its line, then its directory. -/
def templates (step : Step) : List String :=
  step.line :: step.directory.toList

/-- The templates of all recipes, each with the name of its recipe. -/
def allTemplates (book : Book) : List (String × String) :=
  book.catalog.recipes.flatMap fun recipe =>
    (recipe.steps.flatMap templates).map fun template => (recipe.name, template)

/-- Checks templates one after the other. -/
def checkTemplates (book : Book) : List (String × String) → Except Failure Unit
  | [] => .ok ()
  | (recipe, template) :: rest =>
    match book.checkTemplate recipe template with
    | .error failure => .error failure
    | .ok () => book.checkTemplates rest

/-- Checks the needs of every recipe, then every template. -/
def check (book : Book) : Except Failure Unit :=
  match book.catalog.checkNeeds with
  | .error failure => .error failure
  | .ok () => book.checkTemplates book.allTemplates

/-- The recipes that a target, or the default target, runs. -/
def plan (book : Book) (target : Option String) : Except Failure (List Recipe) :=
  match target with
  | some name => book.catalog.plan name
  | none =>
    match book.implicitTarget with
    | .error failure => .error failure
    | .ok name => book.catalog.plan name

end Book

end Cookbook
