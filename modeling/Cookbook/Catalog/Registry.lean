import Cookbook.Catalog.Basic
import Cookbook.Program
import Cookbook.Table

/-!
# Registering recipes

Recipes are kept in two tables: one leads from a name to its recipe, the other
from every key, name or alias, to the name of its recipe.  The tables are
changed in place, and a recipe that is refused is refused on the way, with the
tables as they are at that moment.

The tables of a catalog hold the same recipes as the catalog.  Registering a
recipe in them does what inserting it into the catalog does, and a refused
recipe leaves nothing behind.
-/

namespace Cookbook

/-- Recipes by name, and the name behind every key. -/
structure Registry where
  recipes : Table Recipe
  lookup : Table String

namespace Registry

def empty : Registry :=
  ⟨.empty, .empty⟩

/-- What works on the tables. -/
abbrev Edit :=
  Program Failure Registry

/-! ## Registering -/

/-- Looks for a key that is registered, or that the recipe of this name has claimed before. -/
def checkKeys (name : String) (claimed : List String) : List String → Edit Unit
  | [] => pure ()
  | key :: rest => do
    match (← get).lookup.get? key with
    | some holder => throw (.nameTaken key holder)
    | none =>
      if key ∈ claimed then
        throw (.nameTaken key name)
      checkKeys name (key :: claimed) rest

def enterRecipe (recipe : Recipe) : Edit Unit :=
  modify fun registry => { registry with recipes := registry.recipes.set recipe.name recipe }

def enterKey (name key : String) : Edit Unit :=
  modify fun registry => { registry with lookup := registry.lookup.set key name }

def enterKeys (name : String) : List String → Edit Unit
  | [] => pure ()
  | key :: rest => do
    enterKey name key
    enterKeys name rest

/-- Registers a recipe under its keys, once all of them are known to be free. -/
def add (recipe : Recipe) : Edit Recipe := do
  checkKeys recipe.name [] recipe.keys
  enterRecipe recipe
  enterKeys recipe.name recipe.keys
  return recipe

/-! ## Looking into the tables -/

/-- The names of the recipes, in the order of registration. -/
def names (registry : Registry) : List String :=
  registry.recipes.keys

/-- The recipes, in the order of registration. -/
def inOrder (registry : Registry) : List Recipe :=
  registry.recipes.values

def size (registry : Registry) : Nat :=
  registry.recipes.entries.length

def contains (registry : Registry) (key : String) : Bool :=
  registry.lookup.contains key

/-- The recipe behind a key; both tables have to lead on. -/
def resolve (registry : Registry) (key : String) (neededBy : Option String) :
    Except Failure Recipe :=
  match registry.lookup.get? key with
  | none => .error (.unknownRecipe key registry.names neededBy)
  | some name =>
    match registry.recipes.get? name with
    | none => .error (.unknownRecipe key registry.names neededBy)
    | some recipe => .ok recipe

end Registry

/-! ## The tables of a catalog -/

namespace Catalog

variable
    {catalog extended : Catalog}
    {recipe : Recipe}
    {recipes : List Recipe}
    {key name : String}
    {keys claimed : List String}

/-- Recipes under their names. -/
def byName (recipes : List Recipe) : List (String × Recipe) :=
  recipes.map fun recipe => (recipe.name, recipe)

/-- The name of a recipe under each of its keys. -/
def byKey (recipes : List Recipe) : List (String × String) :=
  recipes.flatMap fun recipe => recipe.keys.map fun key => (key, recipe.name)

theorem keys_byName :
    (byName recipes).map Prod.fst = recipes.map Recipe.name := by
  rw [byName, List.map_map]
  rfl

theorem values_byName :
    (byName recipes).map Prod.snd = recipes := by
  rw [byName, List.map_map]
  exact List.map_id recipes

theorem keys_byKey :
    (byKey recipes).map Prod.fst = recipes.flatMap Recipe.keys := by
  rw [byKey, List.map_flatMap]
  simp only [List.map_map, Function.comp_def, List.map_id']

/-- The tables that hold the recipes of a catalog. -/
def registry (catalog : Catalog) : Registry where
  recipes := ⟨byName catalog.recipes, keys_byName ▸ catalog.nodup_names⟩
  lookup := ⟨byKey catalog.recipes, keys_byKey ▸ catalog.distinct⟩

theorem names_registry :
    catalog.registry.names = catalog.names :=
  keys_byName

theorem inOrder_registry :
    catalog.registry.inOrder = catalog.recipes :=
  values_byName

theorem size_registry :
    catalog.registry.size = catalog.recipes.length :=
  List.length_map _

/-! ## Looking up -/

theorem lookup_keys :
    (keys.map fun key => (key, name)).lookup key =
      if key ∈ keys then some name else none := by
  induction keys with
  | nil => rfl
  | cons first rest ih =>
    rw [List.map_cons, List.lookup_cons, ih]
    by_cases same : key = first
    · simp [same]
    · rw [beq_eq_false_iff_ne.mpr same]
      simp [same]

/-- The second table leads from a key to the name of the recipe that has it. -/
theorem get?_lookup :
    catalog.registry.lookup.get? key = (catalog.find? key).map Recipe.name := by
  show (byKey catalog.recipes).lookup key = _
  rw [byKey, find?]
  induction catalog.recipes with
  | nil => rfl
  | cons recipe rest ih =>
    rw [List.flatMap_cons, List.lookup_append, ih, lookup_keys, List.find?_cons]
    by_cases held : key ∈ recipe.keys
    · simp [held]
    · simp [held]

theorem lookup_byName
    (once : (recipes.map Recipe.name).Nodup)
    (member : recipe ∈ recipes) :
    (byName recipes).lookup recipe.name = some recipe := by
  induction recipes with
  | nil => cases member
  | cons first rest ih =>
    rw [List.map_cons, List.nodup_cons] at once
    rw [byName, List.map_cons, List.lookup_cons]
    rcases List.mem_cons.mp member with rfl | later
    · simp
    · have other : recipe.name ≠ first.name := fun same =>
        once.1 (same ▸ List.mem_map_of_mem later)
      rw [beq_eq_false_iff_ne.mpr other]
      exact ih once.2 later

/-- The first table leads from a name to its recipe. -/
theorem get?_recipes
    (member : recipe ∈ catalog.recipes) :
    catalog.registry.recipes.get? recipe.name = some recipe :=
  lookup_byName catalog.nodup_names member

theorem contains_registry :
    catalog.registry.contains key = catalog.contains key := by
  rw [Registry.contains, Table.contains, get?_lookup, Option.isSome_map, contains]

/-- The tables resolve a key to what the catalog finds under it. -/
theorem resolve_registry
    (neededBy : Option String) :
    catalog.registry.resolve key neededBy = catalog.require key neededBy := by
  rw [Registry.resolve, get?_lookup, names_registry, require]
  cases found : catalog.find? key with
  | none => rfl
  | some recipe =>
    simp only [Option.map_some, get?_recipes (mem_of_find? found)]

/-! ## Registering -/

theorem checkKeys_registry :
    Registry.checkKeys name claimed keys catalog.registry =
      match catalog.firstTaken name claimed keys with
      | some (key, holder) => .error (.nameTaken key holder) catalog.registry
      | none => .ok () catalog.registry := by
  induction keys generalizing claimed with
  | nil => rfl
  | cons key rest ih =>
    rw [Registry.checkKeys, firstTaken]
    show (match catalog.registry.lookup.get? key with
      | some holder => throw (.nameTaken key holder)
      | none => _ : Registry.Edit Unit) catalog.registry = _
    rw [get?_lookup]
    cases catalog.find? key with
    | some holder => rfl
    | none =>
      by_cases again : key ∈ claimed
      · simp only [Option.map_none, if_pos again]
        rfl
      · simp only [Option.map_none, if_neg again]
        exact ih

theorem enterKeys_of_fresh
    {registry : Registry}
    (once : keys.Nodup)
    (fresh : ∀ key ∈ keys, key ∉ registry.lookup.keys) :
    ∃ lookup : Table String,
      lookup.entries = registry.lookup.entries ++ keys.map (fun key => (key, name)) ∧
        Registry.enterKeys name keys registry = .ok () { registry with lookup := lookup } := by
  induction keys generalizing registry with
  | nil => exact ⟨registry.lookup, (List.append_nil _).symm, rfl⟩
  | cons key rest ih =>
    rw [List.nodup_cons] at once
    have entered : (registry.lookup.set key name).entries =
        registry.lookup.entries ++ [(key, name)] :=
      Table.entries_set_of_not_mem (fresh key List.mem_cons_self)
    have later : ∀ other ∈ rest, other ∉ (registry.lookup.set key name).keys := by
      intro other member known
      rw [Table.keys, entered, List.map_append, List.mem_append] at known
      rcases known with old | new
      · exact fresh other (List.mem_cons_of_mem key member) old
      · rw [List.map_cons, List.map_nil, List.mem_singleton] at new
        rw [new] at member
        exact once.1 member
    rcases @ih { registry with lookup := registry.lookup.set key name } once.2 later with
      ⟨lookup, entries, ran⟩
    refine ⟨lookup, ?_, ran⟩
    rw [entries, entered, List.append_assoc]
    rfl

theorem enterKeys_registry
    (same : extended.recipes = catalog.recipes ++ [recipe]) :
    Registry.enterKeys recipe.name recipe.keys
        ⟨catalog.registry.recipes.set recipe.name recipe, catalog.registry.lookup⟩ =
      .ok () extended.registry := by
  have distinct := extended.distinct
  rw [same, List.flatMap_append, List.flatMap_singleton] at distinct
  rcases List.nodup_append.mp distinct with ⟨_, once, apart⟩
  have fresh : ∀ key ∈ recipe.keys, key ∉ catalog.registry.lookup.keys := by
    intro key member known
    rw [Table.keys, registry, keys_byKey] at known
    exact apart key known key member rfl
  have unnamed : recipe.name ∉ catalog.registry.recipes.keys := by
    intro known
    rw [Table.keys, registry, keys_byName] at known
    exact apart recipe.name (catalog.names_sublist_keys.subset known) recipe.name
      recipe.name_mem_keys rfl
  rcases @enterKeys_of_fresh recipe.name recipe.keys
      ⟨catalog.registry.recipes.set recipe.name recipe, catalog.registry.lookup⟩ once fresh with
    ⟨lookup, entries, ran⟩
  have recipes : catalog.registry.recipes.set recipe.name recipe = extended.registry.recipes := by
    apply Table.eq_of_entries_eq
    rw [Table.entries_set_of_not_mem unnamed]
    show byName catalog.recipes ++ byName [recipe] = byName extended.recipes
    rw [same, byName, byName, byName, List.map_append]
  have keys : lookup = extended.registry.lookup := by
    apply Table.eq_of_entries_eq
    rw [entries]
    show byKey catalog.recipes ++ _ = byKey extended.recipes
    rw [same, byKey, byKey, List.flatMap_append, List.flatMap_singleton]
  rw [ran, recipes, keys]

/--
Registering a recipe in the tables of a catalog leads to the tables of the
catalog that has accepted it.  If the catalog refuses it, so do the tables, and
they are left as they were.
-/
theorem add_registry
    (catalog : Catalog)
    (recipe : Recipe) :
    Registry.add recipe catalog.registry =
      match catalog.insert recipe with
      | .ok extended => .ok recipe extended.registry
      | .error failure => .error failure catalog.registry := by
  have checked := @checkKeys_registry catalog recipe.name recipe.keys []
  cases free : catalog.firstTaken recipe.name [] recipe.keys with
  | some taken =>
    rw [free] at checked
    rw [insert_of_taken free]
    exact Program.bind_of_error checked
  | none =>
    rw [free] at checked
    rcases exists_insert_of_free free with ⟨extended, inserted, same⟩
    rw [inserted]
    have entered := enterKeys_registry same
    rw [Registry.add, Program.bind_of_ok checked]
    exact Program.bind_of_ok entered

end Catalog

end Cookbook
