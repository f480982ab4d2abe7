import Cookbook.Proofs.Catalog.Lookup

/-!
# The recursive walk

The plain way to put recipes into order is to visit the needs of a recipe from
left to right, each of them with its own needs first.  The walk carries the
names on the current path and the recipes that are finished.  It descends only
into recipes that are not on the path, so the path is what bounds its depth.
-/

namespace Cookbook.Catalog

/-- The recipes that are not on a path. -/
def beyond (catalog : Catalog) (path : List String) : List Recipe :=
  catalog.recipes.filter fun recipe => !path.contains recipe.name

/-- A path that grows by a recipe leaves fewer recipes beyond it. -/
theorem length_beyond_lt
    {catalog : Catalog}
    {path : List String}
    {recipe : Recipe}
    (member : recipe ∈ catalog.recipes)
    (notOnPath : recipe.name ∉ path) :
    (catalog.beyond (path ++ [recipe.name])).length < (catalog.beyond path).length := by
  have fewer :
      catalog.beyond (path ++ [recipe.name]) =
        (catalog.beyond path).filter fun other => other.name != recipe.name := by
    unfold beyond
    rw [List.filter_filter]
    refine List.filter_congr fun other _ => ?_
    by_cases same : other.name = recipe.name <;> simp [same]
  have present : recipe ∈ catalog.beyond path := by
    simp [beyond, member, notOnPath]
  rw [fewer]
  exact List.length_filter_lt_length_iff_exists.mpr ⟨recipe, present, by simp⟩

/-- The names of some recipes, in order. -/
def namesOf (recipes : List Recipe) : List String :=
  recipes.map Recipe.name

@[simp]
theorem mem_namesOf
    {recipes : List Recipe}
    {name : String} :
    name ∈ namesOf recipes ↔ ∃ recipe ∈ recipes, recipe.name = name :=
  List.mem_map

@[simp]
theorem namesOf_append
    (front back : List Recipe) :
    namesOf (front ++ back) = namesOf front ++ namesOf back :=
  List.map_append

@[simp]
theorem namesOf_cons
    (recipe : Recipe)
    (rest : List Recipe) :
    namesOf (recipe :: rest) = recipe.name :: namesOf rest :=
  rfl

@[simp]
theorem namesOf_nil :
    namesOf [] = [] :=
  rfl

/--
Visits needs of a recipe that is the last one on the path, and puts what they
need behind the finished recipes.
-/
def walkNeeds (catalog : Catalog) (path : List String) (finished : List Recipe)
    (recipe : Recipe) : List String → Except Failure (List Recipe)
  | [] => .ok finished
  | need :: rest =>
    match _resolved : catalog.require need (some recipe.name) with
    | .error failure => .error failure
    | .ok needed =>
      if needed.name ∈ namesOf finished then
        catalog.walkNeeds path finished recipe rest
      else if _onPath : needed.name ∈ path then
        .error (.cyclicNeeds (path.dropWhile (· != needed.name) ++ [needed.name]))
      else
        match catalog.walkNeeds (path ++ [needed.name]) finished needed needed.needs with
        | .error failure => .error failure
        | .ok below => catalog.walkNeeds path (below ++ [needed]) recipe rest
termination_by needs => ((catalog.beyond path).length, needs.length)
decreasing_by
  · exact Prod.Lex.right _ (Nat.lt_succ_self _)
  · exact Prod.Lex.left _ _ (length_beyond_lt (mem_of_require _resolved) _onPath)
  · exact Prod.Lex.right _ (Nat.lt_succ_self _)

/-! ## Visiting one need -/

section

variable
    {catalog : Catalog}
    {path rest : List String}
    {finished : List Recipe}
    {recipe needed : Recipe}
    {need : String}

theorem walkNeeds_nil :
    catalog.walkNeeds path finished recipe [] = .ok finished := by
  rw [walkNeeds]

theorem walkNeeds_of_absent
    (absent : catalog.find? need = none) :
    catalog.walkNeeds path finished recipe (need :: rest) =
      .error (.unknownRecipe need catalog.names (some recipe.name)) := by
  rw [walkNeeds]
  split
  · rename_i failure unresolved
    rw [(require_eq_error_iff.mp unresolved).2]
  · rename_i other resolved
    rw [require_eq_ok_iff, absent] at resolved
    cases resolved

/-- What the walk does about a need depends on where the recipe of the need stands. -/
theorem walkNeeds_of_find?
    (found : catalog.find? need = some needed) :
    catalog.walkNeeds path finished recipe (need :: rest) =
      if needed.name ∈ namesOf finished then
        catalog.walkNeeds path finished recipe rest
      else if needed.name ∈ path then
        .error (.cyclicNeeds (path.dropWhile (· != needed.name) ++ [needed.name]))
      else
        (catalog.walkNeeds (path ++ [needed.name]) finished needed needed.needs).bind
          fun below => catalog.walkNeeds path (below ++ [needed]) recipe rest := by
  rw [walkNeeds]
  split
  · rename_i failure unresolved
    rw [(require_eq_error_iff.mp unresolved).1] at found
    cases found
  · rename_i other resolved
    rw [require_eq_ok_iff, found] at resolved
    cases resolved
    split
    · rfl
    · split
      · rfl
      · cases catalog.walkNeeds (path ++ [needed.name]) finished needed needed.needs <;> rfl

end

/-- Visits a recipe after all it needs. -/
def walk (catalog : Catalog) (recipe : Recipe) : Except Failure (List Recipe) :=
  match catalog.walkNeeds [recipe.name] [] recipe recipe.needs with
  | .error failure => .error failure
  | .ok below => .ok (below ++ [recipe])

theorem walk_eq_bind
    (catalog : Catalog)
    (recipe : Recipe) :
    catalog.walk recipe =
      (catalog.walkNeeds [recipe.name] [] recipe recipe.needs).bind
        fun below => .ok (below ++ [recipe]) := by
  rw [walk]
  cases catalog.walkNeeds [recipe.name] [] recipe recipe.needs <;> rfl

/-- Visits the recipe that a target stands for. -/
def walkTarget (catalog : Catalog) (target : String) : Except Failure (List Recipe) :=
  match catalog.require target none with
  | .error failure => .error failure
  | .ok recipe => catalog.walk recipe

end Cookbook.Catalog
