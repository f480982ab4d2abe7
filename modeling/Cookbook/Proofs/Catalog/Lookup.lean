import Cookbook.Catalog.Search
import Mathlib.Data.List.Nodup
import Mathlib.Logic.Relation

/-!
# Looking up keys

No two recipes of a catalog share a key, so a key determines its recipe, and a
recipe is found under each of its keys.  A recipe needs another one when one
of its needs is a key of the other; what a target needs is whatever can be
reached from its recipe through needs.
-/

namespace Cookbook.Catalog

variable {catalog : Catalog} {key : String} {recipe other : Recipe}

/-! ## Keys determine recipes -/

/-- A recipe of the catalog is found under each of its keys. -/
theorem find?_of_mem_keys
    (member : recipe ∈ catalog.recipes)
    (holds : key ∈ recipe.keys) :
    catalog.find? key = some recipe := by
  rcases List.append_of_mem member with ⟨front, back, split⟩
  have disjoint := (List.nodup_flatMap.mp catalog.distinct).2
  rw [split] at disjoint
  refine List.find?_eq_some_iff_append.mpr ⟨by simpa using holds, front, back, split, ?_⟩
  intro earlier inFront
  have apart := (List.pairwise_append.mp disjoint).2.2 earlier inFront recipe List.mem_cons_self
  have notThere : key ∉ earlier.keys := fun shared => apart shared holds
  simpa using notThere

theorem find?_eq_some_iff :
    catalog.find? key = some recipe ↔ recipe ∈ catalog.recipes ∧ key ∈ recipe.keys :=
  ⟨fun found => ⟨mem_of_find? found, key_mem_of_find? found⟩,
    fun holds => find?_of_mem_keys holds.1 holds.2⟩

theorem find?_name
    (member : recipe ∈ catalog.recipes) :
    catalog.find? recipe.name = some recipe :=
  find?_of_mem_keys member recipe.name_mem_keys

/-- Recipes of one catalog that have the same name are the same. -/
theorem eq_of_name_eq
    (member : recipe ∈ catalog.recipes)
    (otherMember : other ∈ catalog.recipes)
    (same : recipe.name = other.name) :
    recipe = other := by
  have found := find?_name member
  rw [same, find?_name otherMember] at found
  exact (Option.some.inj found).symm

theorem mem_keys_iff :
    key ∈ catalog.keys ↔ ∃ recipe, catalog.find? key = some recipe := by
  rw [← contains_iff, contains, Option.isSome_iff_exists]

theorem names_subset_keys
    (catalog : Catalog) :
    catalog.names ⊆ catalog.keys :=
  catalog.names_sublist_keys.subset

/-! ## Resolving a key -/

@[simp]
theorem require_eq_ok_iff
    {neededBy : Option String} :
    catalog.require key neededBy = .ok recipe ↔ catalog.find? key = some recipe := by
  unfold require
  cases catalog.find? key <;> simp

@[simp]
theorem require_eq_error_iff
    {neededBy : Option String}
    {failure : Failure} :
    catalog.require key neededBy = .error failure ↔
      catalog.find? key = none ∧ failure = .unknownRecipe key catalog.names neededBy := by
  unfold require
  cases catalog.find? key <;> simp [eq_comm]

/-! ## Needing another recipe -/

/-- One of the needs of a recipe is a key of another recipe. -/
def Needs (catalog : Catalog) (recipe other : Recipe) : Prop :=
  ∃ need ∈ recipe.needs, catalog.find? need = some other

theorem Needs.mem
    (needed : catalog.Needs recipe other) :
    other ∈ catalog.recipes := by
  rcases needed with ⟨need, _, found⟩
  exact mem_of_find? found

/-- A recipe is reached from another one through needs, in any number of steps. -/
def Reaches (catalog : Catalog) : Recipe → Recipe → Prop :=
  Relation.ReflTransGen catalog.Needs

/-- A recipe is reached from another one through needs, in at least one step. -/
def ReachesAfresh (catalog : Catalog) : Recipe → Recipe → Prop :=
  Relation.TransGen catalog.Needs

/-- A recipe belongs to what a target needs. -/
def NeededFor (catalog : Catalog) (target : String) (recipe : Recipe) : Prop :=
  ∃ root, catalog.find? target = some root ∧ catalog.Reaches root recipe

end Cookbook.Catalog
