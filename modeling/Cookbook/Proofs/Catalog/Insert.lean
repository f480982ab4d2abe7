import Cookbook.Catalog.Basic

/-!
# Accepting recipes

A catalog accepts recipes exactly as long as their keys are distinct from each
other and from those of the recipes before them, and keeps them in order.  As
every catalog has distinct keys, the catalog of some recipes is the one that
holds them, if there is one.
-/

namespace Cookbook.Catalog

variable
    {catalog extended : Catalog}
    {recipe : Recipe}
    {recipes : List Recipe}
    {name : String}
    {claimed candidates : List String}

/-- No key is taken exactly if all are fresh and pairwise distinct. -/
theorem firstTaken_eq_none_iff :
    catalog.firstTaken name claimed candidates = none ↔
      candidates.Nodup ∧ ∀ key ∈ candidates, key ∉ catalog.keys ∧ key ∉ claimed := by
  constructor
  · exact fresh_of_firstTaken
  · rintro ⟨nodup, fresh⟩
    induction candidates generalizing claimed with
    | nil => rfl
    | cons key rest ih =>
      rcases List.nodup_cons.mp nodup with ⟨once, later⟩
      rcases List.forall_mem_cons.mp fresh with ⟨⟨unknown, unclaimed⟩, others⟩
      have absent := (find?_eq_none_iff catalog key).mpr unknown
      rw [firstTaken, absent]
      simp only [if_neg unclaimed]
      apply ih later
      intro other member
      rcases others other member with ⟨new, free⟩
      refine ⟨new, List.not_mem_cons_of_ne_of_not_mem ?_ free⟩
      rintro rfl
      exact once member

theorem insert_eq_ok_iff :
    catalog.insert recipe = .ok extended ↔
      extended.recipes = catalog.recipes ++ [recipe] := by
  constructor
  · intro accepted
    cases taken : catalog.firstTaken recipe.name [] recipe.keys with
    | some found =>
      rw [insert_of_taken taken] at accepted
      cases accepted
    | none =>
      rcases exists_insert_of_free taken with ⟨other, inserted, same⟩
      rw [inserted] at accepted
      cases accepted
      exact same
  · intro same
    have distinct := extended.distinct
    rw [same, List.flatMap_append, List.flatMap_singleton] at distinct
    rcases List.nodup_append.mp distinct with ⟨_, once, apart⟩
    have free : catalog.firstTaken recipe.name [] recipe.keys = none :=
      firstTaken_eq_none_iff.mpr ⟨once, fun key member =>
        ⟨fun known => apart key known key member rfl, List.not_mem_nil⟩⟩
    rcases exists_insert_of_free free with ⟨other, inserted, also⟩
    rw [inserted, eq_of_recipes_eq (also.trans same.symm)]

/-- Recipes are accepted exactly if a catalog can hold them behind those it has. -/
theorem insertAll_eq_ok_iff :
    catalog.insertAll recipes = .ok extended ↔
      extended.recipes = catalog.recipes ++ recipes := by
  induction recipes generalizing catalog with
  | nil =>
    rw [insertAll, List.append_nil, Except.ok.injEq]
    constructor
    · rintro rfl
      rfl
    · intro same
      exact eq_of_recipes_eq same.symm
  | cons recipe rest ih =>
    rw [insertAll]
    constructor
    · intro accepted
      split at accepted
      · rename_i next inserted
        rw [ih.mp accepted, insert_eq_ok_iff.mp inserted, List.append_assoc]
        rfl
      · cases accepted
    · intro same
      -- the catalog in between holds the keys of the first recipe as well
      have between : ((catalog.recipes ++ [recipe]).flatMap Recipe.keys).Nodup := by
        have distinct := extended.distinct
        rw [same, List.append_cons, List.flatMap_append] at distinct
        exact (List.nodup_append.mp distinct).1
      have inserted : catalog.insert recipe = .ok ⟨catalog.recipes ++ [recipe], between⟩ :=
        insert_eq_ok_iff.mpr rfl
      rw [inserted]
      apply ih.mpr
      rw [same, List.append_cons]

/-- The catalog of some recipes is the one that holds just them. -/
theorem ofList_eq_ok_iff :
    ofList recipes = .ok catalog ↔ catalog.recipes = recipes :=
  insertAll_eq_ok_iff

/-- Recipes with distinct keys are accepted. -/
theorem exists_ofList_of_nodup
    (distinct : (recipes.flatMap Recipe.keys).Nodup) :
    ∃ catalog, ofList recipes = .ok catalog ∧ catalog.recipes = recipes :=
  ⟨⟨recipes, distinct⟩, ofList_eq_ok_iff.mpr rfl, rfl⟩

end Cookbook.Catalog
