/-!
# Recipes

A recipe is a named unit of work: the steps it takes, the recipes it needs
first, the other names it answers to, and a line of documentation.  A step is
one command line, still a template, with the directory it runs in.
-/

namespace Cookbook

/-- One command line of a recipe. -/
structure Step where
  line : String
  directory : Option String := none
  quiet : Bool := false
  deriving DecidableEq

/-- A named unit of work. -/
structure Recipe where
  name : String
  steps : List Step := []
  needs : List String := []
  aliases : List String := []
  doc : Option String := none
  deriving DecidableEq

/-- The names a recipe answers to, its own name first. -/
def Recipe.keys (recipe : Recipe) : List String :=
  recipe.name :: recipe.aliases

@[simp]
theorem Recipe.name_mem_keys
    (recipe : Recipe) :
    recipe.name ∈ recipe.keys :=
  List.mem_cons_self

end Cookbook
