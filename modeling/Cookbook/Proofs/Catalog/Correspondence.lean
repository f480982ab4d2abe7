import Cookbook.Proofs.Catalog.Plan
import Mathlib.Data.List.Forall2

/-!
# Plans of corresponding catalogs

All that a walk learns from a catalog is which recipes its needs stand for.  So
two catalogs whose recipes correspond, by name and need by need, are walked
over in step: as long as the first one has what is needed, both walks pass over,
descend into and refuse the same recipes.  Where the first catalog lacks a
recipe, the second one lacks it too, unless it is allowed to be richer.
-/

namespace Cookbook.Catalog

variable
    {catalog other : Catalog}
    {richer : Prop}
    {twins : Recipe → Recipe → Prop}
    {path needs askedNeeds : List String}
    {target asked : String}
    {recipe twin : Recipe}
    {recipes found before finished : List Recipe}

/-! ## Corresponding catalogs -/

/-- A key of one catalog and a key of another one that stand for corresponding recipes. -/
structure Answers (catalog other : Catalog) (richer : Prop) (twins : Recipe → Recipe → Prop)
    (key asked : String) : Prop where
  found :
    ∀ recipe, catalog.find? key = some recipe →
      ∃ twin, other.find? asked = some twin ∧ twins recipe twin
  absent : catalog.find? key = none → richer ∨ asked = key ∧ other.find? key = none

/-- Recipes of two catalogs that have the same name and corresponding needs. -/
structure Corresponds (catalog other : Catalog) (richer : Prop)
    (twins : Recipe → Recipe → Prop) : Prop where
  name : ∀ recipe twin, twins recipe twin → twin.name = recipe.name
  needs :
    ∀ recipe twin, twins recipe twin →
      List.Forall₂ (catalog.Answers other richer twins) recipe.needs twin.needs

/-- The outcome for one catalog, and what it tells about the outcome for a corresponding one. -/
inductive Foretells (catalog other : Catalog) (richer : Prop) (twins : Recipe → Recipe → Prop) :
    Except Failure (List Recipe) → Except Failure (List Recipe) → Prop
  | planned {recipes found : List Recipe}
      (corresponding : List.Forall₂ twins recipes found) :
      Foretells catalog other richer twins (.ok recipes) (.ok found)
  | cyclic {cycle : List String} :
      Foretells catalog other richer twins (.error (.cyclicNeeds cycle))
        (.error (.cyclicNeeds cycle))
  | unknown {name : String} {neededBy : Option String} :
      Foretells catalog other richer twins
        (.error (.unknownRecipe name catalog.names neededBy))
        (.error (.unknownRecipe name other.names neededBy))
  | gained {name : String} {known : List String} {neededBy : Option String}
      {outcome : Except Failure (List Recipe)}
      (more : richer) :
      Foretells catalog other richer twins (.error (.unknownRecipe name known neededBy)) outcome

/-- Outcomes that go on alike when they are plans tell as much afterwards. -/
theorem Foretells.bind
    {first second : Except Failure (List Recipe)}
    {more moreFound : List Recipe → Except Failure (List Recipe)}
    (told : catalog.Foretells other richer twins first second)
    (later :
      ∀ recipes found, first = .ok recipes → List.Forall₂ twins recipes found →
        catalog.Foretells other richer twins (more recipes) (moreFound found)) :
    catalog.Foretells other richer twins (first.bind more) (second.bind moreFound) := by
  cases told with
  | planned corresponding => exact later _ _ rfl corresponding
  | cyclic => exact .cyclic
  | unknown => exact .unknown
  | gained allowed => exact .gained allowed

/-! ## Walks in step -/

theorem namesOf_eq_of_forall₂
    (name : ∀ recipe twin, twins recipe twin → twin.name = recipe.name)
    (same : List.Forall₂ twins recipes found) :
    namesOf found = namesOf recipes := by
  induction same with
  | nil => rfl
  | @cons recipe twin _ _ first _ ih => rw [namesOf_cons, namesOf_cons, name recipe twin first, ih]

/-- Walks over corresponding needs, with corresponding recipes finished, are in step. -/
theorem Corresponds.foretells_walkNeeds
    (corresponds : catalog.Corresponds other richer twins)
    (answers : List.Forall₂ (catalog.Answers other richer twins) needs askedNeeds)
    (same : List.Forall₂ twins before finished)
    (pair : twins recipe twin) :
    catalog.Foretells other richer twins (catalog.walkNeeds path before recipe needs)
      (other.walkNeeds path finished twin askedNeeds) := by
  have sameNames := namesOf_eq_of_forall₂ corresponds.name same
  fun_induction walkNeeds catalog path before recipe needs
      generalizing finished twin askedNeeds with
  | case1 path before recipe =>
    cases answers
    rw [walkNeeds_nil]
    exact .planned same
  | case2 path before recipe need rest failure unresolved =>
    rcases require_eq_error_iff.mp unresolved with ⟨absent, rfl⟩
    cases answers with
    | cons first others =>
      rcases first.absent absent with more | ⟨rfl, lacking⟩
      · exact .gained more
      · rw [walkNeeds_of_absent lacking, corresponds.name recipe twin pair]
        exact .unknown
  | case3 path before recipe need rest needed resolved named ih =>
    cases answers with
    | cons first others =>
      rcases first.found needed (require_eq_ok_iff.mp resolved) with ⟨partner, found, twinned⟩
      rw [← corresponds.name needed partner twinned, ← sameNames] at named
      rw [walkNeeds_of_find? found, if_pos named]
      exact ih others same pair sameNames
  | case4 path before recipe need rest needed resolved unnamed onPath =>
    cases answers with
    | cons first others =>
      rcases first.found needed (require_eq_ok_iff.mp resolved) with ⟨partner, found, twinned⟩
      rw [← corresponds.name needed partner twinned] at unnamed onPath ⊢
      rw [← sameNames] at unnamed
      rw [walkNeeds_of_find? found, if_neg unnamed, if_pos onPath]
      exact .cyclic
  | case5 path before recipe need rest needed resolved unnamed notOnPath failure failed ih =>
    cases answers with
    | cons first others =>
      rcases first.found needed (require_eq_ok_iff.mp resolved) with ⟨partner, found, twinned⟩
      have told := ih (corresponds.needs needed partner twinned) same twinned sameNames
      rw [← corresponds.name needed partner twinned] at unnamed notOnPath told failed
      rw [← sameNames] at unnamed
      rw [walkNeeds_of_find? found, if_neg unnamed, if_neg notOnPath]
      rw [failed] at told
      generalize other.walkNeeds (path ++ [partner.name]) finished partner partner.needs =
        outcome at told ⊢
      cases told with
      | cyclic => exact .cyclic
      | unknown => exact .unknown
      | gained more => exact .gained more
  | case6 path before recipe need rest needed resolved unnamed notOnPath below walked
      ihNeeded ih =>
    cases answers with
    | cons first others =>
      rcases first.found needed (require_eq_ok_iff.mp resolved) with ⟨partner, found, twinned⟩
      have told := ihNeeded (corresponds.needs needed partner twinned) same twinned sameNames
      rw [← corresponds.name needed partner twinned] at unnamed notOnPath told walked
      rw [← sameNames] at unnamed
      rw [walkNeeds_of_find? found, if_neg unnamed, if_neg notOnPath]
      rw [walked] at told
      generalize other.walkNeeds (path ++ [partner.name]) finished partner partner.needs =
        outcome at told ⊢
      cases told with
      | planned inner =>
        have longer := List.rel_append inner (.cons twinned .nil)
        exact ih others longer pair (namesOf_eq_of_forall₂ corresponds.name longer)

theorem Corresponds.foretells_walk
    (corresponds : catalog.Corresponds other richer twins)
    (pair : twins recipe twin) :
    catalog.Foretells other richer twins (catalog.walk recipe) (other.walk twin) := by
  have told := @foretells_walkNeeds _ _ _ _ [recipe.name] _ _ _ _ _ _ corresponds
    (corresponds.needs recipe twin pair) .nil pair
  rw [walk_eq_bind, walk_eq_bind, corresponds.name recipe twin pair]
  apply told.bind
  intro below found _ inner
  exact .planned (List.rel_append inner (.cons pair .nil))

/-- Corresponding keys have corresponding plans, or plans that fail alike. -/
theorem Corresponds.foretells_plan
    (corresponds : catalog.Corresponds other richer twins)
    (answers : catalog.Answers other richer twins target asked) :
    catalog.Foretells other richer twins (catalog.plan target) (other.plan asked) := by
  cases found : catalog.find? target with
  | none =>
    rw [plan_of_absent found]
    rcases answers.absent found with more | ⟨rfl, lacking⟩
    · exact .gained more
    · rw [plan_of_absent lacking]
      exact .unknown
  | some recipe =>
    rcases answers.found recipe found with ⟨twin, foundTwin, pair⟩
    rw [plan_of_find? found, plan_of_find? foundTwin]
    exact corresponds.foretells_walk pair

end Cookbook.Catalog
