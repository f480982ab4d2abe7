import Cookbook.Failure
import Cookbook.Recipe

/-!
# Catalogs of recipes

A catalog keeps recipes in the order in which they were accepted and finds one
by any of its keys, its name or an alias.  A key belongs to one recipe and
occurs in it once; a recipe that would break this is refused whole.
-/

namespace Cookbook

/-- Recipes with pairwise distinct keys, in the order of acceptance. -/
structure Catalog where
  recipes : List Recipe
  distinct : (recipes.flatMap Recipe.keys).Nodup

namespace Catalog

def empty : Catalog :=
  ⟨[], List.nodup_nil⟩

theorem eq_of_recipes_eq
    {catalog other : Catalog}
    (same : catalog.recipes = other.recipes) :
    catalog = other := by
  cases catalog
  cases other
  cases same
  rfl

def names (catalog : Catalog) : List String :=
  catalog.recipes.map Recipe.name

def keys (catalog : Catalog) : List String :=
  catalog.recipes.flatMap Recipe.keys

theorem names_sublist_keys
    (catalog : Catalog) :
    catalog.names.Sublist catalog.keys := by
  unfold names keys
  induction catalog.recipes with
  | nil => exact .slnil
  | cons recipe rest ih =>
    rw [List.map_cons, List.flatMap_cons]
    exact .cons_cons recipe.name (ih.trans (List.sublist_append_right _ _))

theorem nodup_names
    (catalog : Catalog) :
    catalog.names.Nodup :=
  catalog.distinct.sublist catalog.names_sublist_keys

/-- The recipe that has a key. -/
def find? (catalog : Catalog) (key : String) : Option Recipe :=
  catalog.recipes.find? (·.keys.contains key)

def contains (catalog : Catalog) (key : String) : Bool :=
  (catalog.find? key).isSome

/-- The recipe that has a key, when a recipe asks for it or, with `none`, the user does. -/
def require (catalog : Catalog) (key : String) (neededBy : Option String) :
    Except Failure Recipe :=
  match catalog.find? key with
  | some recipe => .ok recipe
  | none => .error (.unknownRecipe key catalog.names neededBy)

theorem mem_of_find?
    {catalog : Catalog}
    {key : String}
    {recipe : Recipe}
    (found : catalog.find? key = some recipe) :
    recipe ∈ catalog.recipes :=
  List.mem_of_find?_eq_some found

theorem key_mem_of_find?
    {catalog : Catalog}
    {key : String}
    {recipe : Recipe}
    (found : catalog.find? key = some recipe) :
    key ∈ recipe.keys := by
  have holds := List.find?_some found
  simpa using holds

theorem find?_eq_none_iff
    (catalog : Catalog)
    (key : String) :
    catalog.find? key = none ↔ key ∉ catalog.keys := by
  simp [find?, keys, List.find?_eq_none]

theorem contains_iff
    (catalog : Catalog)
    (key : String) :
    catalog.contains key = true ↔ key ∈ catalog.keys := by
  rw [contains, Option.isSome_iff_ne_none, ne_eq, find?_eq_none_iff, Decidable.not_not]

/--
The first key that a recipe of the given name may not claim, with the name of
the recipe that holds it.  Keys that the recipe itself claimed before are held
by it.
-/
def firstTaken (catalog : Catalog) (name : String) (claimed : List String) :
    List String → Option (String × String)
  | [] => none
  | key :: rest =>
    match catalog.find? key with
    | some holder => some (key, holder.name)
    | none =>
      if key ∈ claimed then
        some (key, name)
      else
        catalog.firstTaken name (key :: claimed) rest

/-- Keys of which none is taken are fresh and pairwise distinct. -/
theorem fresh_of_firstTaken
    {catalog : Catalog}
    {name : String}
    {claimed candidates : List String}
    (free : catalog.firstTaken name claimed candidates = none) :
    candidates.Nodup ∧ ∀ key ∈ candidates, key ∉ catalog.keys ∧ key ∉ claimed := by
  induction candidates generalizing claimed with
  | nil => simp
  | cons key rest hypothesis =>
    unfold firstTaken at free
    split at free
    · simp at free
    · rename_i absent
      split at free
      · simp at free
      · rename_i unclaimed
        obtain ⟨nodup, fresh⟩ := hypothesis free
        refine ⟨List.nodup_cons.mpr ⟨?_, nodup⟩, ?_⟩
        · intro member
          exact (fresh key member).2 List.mem_cons_self
        · intro other member
          rcases List.mem_cons.mp member with rfl | later
          · exact ⟨(find?_eq_none_iff catalog other).mp absent, unclaimed⟩
          · exact ⟨(fresh other later).1,
              fun already => (fresh other later).2 (List.mem_cons_of_mem key already)⟩

/-- Accepts one more recipe, or refuses it for the first key that is taken. -/
def insert (catalog : Catalog) (recipe : Recipe) : Except Failure Catalog :=
  match free : catalog.firstTaken recipe.name [] recipe.keys with
  | some (key, holder) => .error (.nameTaken key holder)
  | none =>
    .ok ⟨catalog.recipes ++ [recipe], by
      obtain ⟨nodup, fresh⟩ := fresh_of_firstTaken free
      rw [List.flatMap_append]
      refine List.nodup_append.mpr ⟨catalog.distinct, by simpa using nodup, ?_⟩
      intro left member right same equal
      subst equal
      exact (fresh left (by simpa using same)).1 member⟩

theorem insert_of_taken
    {catalog : Catalog}
    {recipe : Recipe}
    {key holder : String}
    (taken : catalog.firstTaken recipe.name [] recipe.keys = some (key, holder)) :
    catalog.insert recipe = .error (.nameTaken key holder) := by
  unfold insert
  split
  · rename_i other again
    rw [taken] at again
    cases again
    rfl
  · rename_i free
    rw [taken] at free
    cases free

theorem exists_insert_of_free
    {catalog : Catalog}
    {recipe : Recipe}
    (free : catalog.firstTaken recipe.name [] recipe.keys = none) :
    ∃ extended, catalog.insert recipe = .ok extended ∧
      extended.recipes = catalog.recipes ++ [recipe] := by
  unfold insert
  split
  · rename_i taken
    rw [free] at taken
    cases taken
  · exact ⟨_, rfl, rfl⟩

/-- Accepts recipes one after the other. -/
def insertAll (catalog : Catalog) : List Recipe → Except Failure Catalog
  | [] => .ok catalog
  | recipe :: rest =>
    match catalog.insert recipe with
    | .ok extended => extended.insertAll rest
    | .error failure => .error failure

def ofList (recipes : List Recipe) : Except Failure Catalog :=
  empty.insertAll recipes

end Catalog

end Cookbook
