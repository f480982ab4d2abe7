import Cookbook.Proofs.Catalog.Correspondence
import Cookbook.Proofs.Catalog.Insert
import Mathlib.Data.List.Perm.Basic

/-!
# Plans and the rest of a catalog

A plan depends on the recipes that its target reaches, and not on what else a
catalog holds or in which order.  Recipes that are added later leave every plan
and every cycle as they are; they can only supply what was missing before.  The
same recipes in another order have the same plans and the same failures, and a
failure differs at most in the names that it lists as known.
-/

namespace Cookbook.Catalog

variable
    {catalog other : Catalog}
    {richer : Prop}
    {key target : String}
    {recipe : Recipe}

/-! ## Catalogs that share recipes -/

theorem find?_of_subset
    (inside : catalog.recipes ⊆ other.recipes)
    (found : catalog.find? key = some recipe) :
    other.find? key = some recipe :=
  find?_of_mem_keys (inside (mem_of_find? found)) (key_mem_of_find? found)

/-- Every key of a catalog is answered alike by a catalog that holds all its recipes. -/
theorem answers_of_subset
    (inside : catalog.recipes ⊆ other.recipes)
    (lacking : catalog.find? key = none → richer ∨ other.find? key = none) :
    catalog.Answers other richer Eq key key where
  found := fun recipe found => ⟨recipe, find?_of_subset inside found, rfl⟩
  absent := fun absent => (lacking absent).imp_right fun none => ⟨rfl, none⟩

theorem corresponds_of_answers
    (answers : ∀ key, catalog.Answers other richer Eq key key) :
    catalog.Corresponds other richer Eq where
  name := fun _ _ same => congrArg Recipe.name same.symm
  needs := by
    rintro recipe _ rfl
    exact List.forall₂_same.mpr fun need _ => answers need

theorem find?_eq_none_of_perm
    (same : other.recipes.Perm catalog.recipes)
    (absent : catalog.find? key = none) :
    other.find? key = none := by
  rw [find?_eq_none_iff] at absent ⊢
  intro known
  exact absent ((same.flatMap_right Recipe.keys).subset known)

/-- Accepted recipes are accepted in any order. -/
theorem exists_ofList_of_perm
    {recipes : List Recipe}
    (same : recipes.Perm catalog.recipes) :
    ∃ shuffled, ofList recipes = .ok shuffled ∧ shuffled.recipes = recipes := by
  apply exists_ofList_of_nodup
  exact (same.flatMap_right Recipe.keys).nodup_iff.mpr catalog.distinct

/-! ## Plans that stay -/

/-- The plan that one catalog has for a target, or the cycle that it meets, another one has as well. -/
structure KeepsPlan (catalog other : Catalog) (target : String) : Prop where
  planned : ∀ plan, catalog.plan target = .ok plan → other.plan target = .ok plan
  cyclic :
    ∀ cycle, catalog.plan target = .error (.cyclicNeeds cycle) →
      other.plan target = .error (.cyclicNeeds cycle)

theorem keepsPlan_of_foretells
    (told : catalog.Foretells other richer Eq (catalog.plan target) (other.plan target)) :
    catalog.KeepsPlan other target := by
  constructor
  case planned =>
    intro plan planned
    rw [planned] at told
    generalize other.plan target = outcome at told ⊢
    cases told with
    | planned same =>
      rw [List.forall₂_eq_eq_eq] at same
      rw [same]
  case cyclic =>
    intro cycle failed
    rw [failed] at told
    generalize other.plan target = outcome at told ⊢
    cases told with
    | cyclic => rfl

/--
A plan, and a cycle that is met in its place, is the same in every catalog that
holds further recipes behind those of the first one.  It is the same as well in
the catalog of the same recipes in any other order, and there a missing recipe
is reported for the same name and the same user too.
-/
theorem plan_ignores_the_rest
    (catalog : Catalog)
    (target : String) :
    (∀ added larger, catalog.insertAll added = .ok larger → catalog.KeepsPlan larger target) ∧
      ∀ recipes, recipes.Perm catalog.recipes →
        ∃ shuffled, ofList recipes = .ok shuffled ∧
          catalog.KeepsPlan shuffled target ∧
            ∀ name known neededBy,
              catalog.plan target = .error (.unknownRecipe name known neededBy) →
                shuffled.plan target =
                  .error (.unknownRecipe name shuffled.names neededBy) := by
  constructor
  · intro added larger accepted
    have inside : catalog.recipes ⊆ larger.recipes := by
      rw [insertAll_eq_ok_iff.mp accepted]
      exact List.subset_append_left _ _
    have answers : ∀ key, catalog.Answers larger True Eq key key := fun key =>
      answers_of_subset inside fun _ => Or.inl trivial
    exact keepsPlan_of_foretells
      ((corresponds_of_answers answers).foretells_plan (answers target))
  · intro recipes same
    rcases exists_ofList_of_perm same with ⟨shuffled, made, rfl⟩
    have answers : ∀ key, catalog.Answers shuffled False Eq key key := fun key =>
      answers_of_subset same.symm.subset fun absent => Or.inr (find?_eq_none_of_perm same absent)
    have told := (corresponds_of_answers answers).foretells_plan (answers target)
    refine ⟨shuffled, made, keepsPlan_of_foretells told, ?_⟩
    intro name known neededBy failed
    rw [failed] at told
    generalize shuffled.plan target = outcome at told ⊢
    cases told with
    | unknown => rfl
    | gained more => exact more.elim

end Cookbook.Catalog
