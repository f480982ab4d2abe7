import Cookbook.Proofs.Catalog.Correspondence
import Cookbook.Proofs.Catalog.Insert

/-!
# Needs spelled by other keys

A recipe answers to its name and to its aliases, and it makes no difference by
which of them it is asked for.  Needs that are spelled by other keys of the same
recipes leave all keys of the catalog in place, so every walk finds recipes of
the same names, and meets the same failures, as before.
-/

namespace Cookbook.Catalog

variable
    {catalog respelled : Catalog}
    {key asked target : String}
    {recipe twin : Recipe}
    {recipes : List Recipe}

/-- A key that is written for another one: the same, or one of the same recipe. -/
def SpelledAs (catalog : Catalog) (key asked : String) : Prop :=
  asked = key ∨ ∃ recipe, catalog.find? key = some recipe ∧ asked ∈ recipe.keys

/-- A recipe that differs from another one at most in how its needs are spelled. -/
structure Respells (catalog : Catalog) (recipe twin : Recipe) : Prop where
  rest : twin = { recipe with needs := twin.needs }
  needs : List.Forall₂ catalog.SpelledAs recipe.needs twin.needs

theorem Respells.name_eq
    (same : catalog.Respells recipe twin) :
    twin.name = recipe.name := by
  rw [same.rest]

theorem Respells.keys_eq
    (same : catalog.Respells recipe twin) :
    twin.keys = recipe.keys := by
  rw [same.rest]
  rfl

theorem Respells.steps_eq
    (same : catalog.Respells recipe twin) :
    twin.steps = recipe.steps := by
  rw [same.rest]

/-! ## Catalogs with respelled needs -/

theorem flatMap_keys_of_respelled
    {front : List Recipe}
    (same : List.Forall₂ catalog.Respells front recipes) :
    recipes.flatMap Recipe.keys = front.flatMap Recipe.keys := by
  induction same with
  | nil => rfl
  | cons first _ ih => rw [List.flatMap_cons, List.flatMap_cons, first.keys_eq, ih]

/-- Recipes whose needs are respelled are accepted as the recipes are. -/
theorem exists_ofList_of_respelled
    (same : List.Forall₂ catalog.Respells catalog.recipes recipes) :
    ∃ respelled, ofList recipes = .ok respelled ∧ respelled.recipes = recipes := by
  apply exists_ofList_of_nodup
  rw [flatMap_keys_of_respelled same]
  exact catalog.distinct

theorem exists_respelled_of_mem
    {front : List Recipe}
    (same : List.Forall₂ catalog.Respells front recipes)
    (member : recipe ∈ front) :
    ∃ twin ∈ recipes, catalog.Respells recipe twin := by
  rcases List.get_of_mem member with ⟨place, rfl⟩
  have bound : place.val < recipes.length := by
    rw [← same.length_eq]
    exact place.isLt
  exact ⟨recipes.get ⟨place, bound⟩, List.get_mem recipes ⟨place, bound⟩,
    same.get place.isLt bound⟩

/-- A key is answered as the key is that it is written for. -/
theorem answers_of_respelled
    (same : List.Forall₂ catalog.Respells catalog.recipes respelled.recipes)
    (spelled : catalog.SpelledAs key asked) :
    catalog.Answers respelled False catalog.Respells key asked where
  found := by
    intro recipe found
    rcases exists_respelled_of_mem same (mem_of_find? found) with ⟨twin, present, matching⟩
    have holds : asked ∈ recipe.keys := by
      rcases spelled with rfl | ⟨_, again, holds⟩
      · exact key_mem_of_find? found
      · cases Option.some.inj (found.symm.trans again)
        exact holds
    rw [← matching.keys_eq] at holds
    exact ⟨twin, find?_of_mem_keys present holds, matching⟩
  absent := by
    intro absent
    rcases spelled with rfl | ⟨recipe, found, _⟩
    · refine Or.inr ⟨rfl, ?_⟩
      rw [find?_eq_none_iff, keys, flatMap_keys_of_respelled same]
      exact (find?_eq_none_iff catalog asked).mp absent
    · rw [absent] at found
      cases found

theorem corresponds_of_respelled
    (same : List.Forall₂ catalog.Respells catalog.recipes respelled.recipes) :
    catalog.Corresponds respelled False catalog.Respells where
  name := fun _ _ matching => matching.name_eq
  needs := fun _ _ matching => matching.needs.imp fun _ _ => answers_of_respelled same

/-- Plans with respelled needs fail with the same failure, or hold respelled recipes. -/
theorem plan_of_respelled
    (same : List.Forall₂ catalog.Respells catalog.recipes respelled.recipes)
    (spelled : catalog.SpelledAs target asked) :
    (∃ failure, catalog.plan target = .error failure ∧
        respelled.plan asked = .error failure) ∨
      ∃ plan twins, catalog.plan target = .ok plan ∧ respelled.plan asked = .ok twins ∧
        List.Forall₂ catalog.Respells plan twins := by
  have told := (corresponds_of_respelled same).foretells_plan (answers_of_respelled same spelled)
  generalize catalog.plan target = outcome at told ⊢
  generalize respelled.plan asked = outcomeThere at told ⊢
  cases told with
  | @planned plan twins corresponding => exact Or.inr ⟨plan, twins, rfl, rfl, corresponding⟩
  | cyclic => exact Or.inl ⟨_, rfl, rfl⟩
  | unknown =>
    refine Or.inl ⟨_, rfl, ?_⟩
    have sameNames : respelled.names = catalog.names :=
      namesOf_eq_of_forall₂ (fun _ _ matching => matching.name_eq) same
    rw [sameNames]
  | gained more => exact more.elim

end Cookbook.Catalog
