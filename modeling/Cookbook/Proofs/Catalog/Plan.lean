import Cookbook.Proofs.Catalog.Fault
import Cookbook.Proofs.Catalog.Finished
import Cookbook.Proofs.Catalog.Simulation

/-!
# Plans

A target can be planned exactly when everything it needs is there and nothing
among it needs itself, and a plan holds what the target needs, once each, in
an order in which every recipe stands behind its own needs.  The search finds
the plan, and reports the failure, of the recursive walk.
-/

namespace Cookbook.Catalog

variable
    {catalog : Catalog}
    {target : String}
    {root recipe : Recipe}

/-! ## Planning by walking -/

/-- The plan of a target is what the search from the recipe of the target ends with. -/
theorem plan_eq_finish
    (found : catalog.find? target = some recipe) :
    catalog.plan target = catalog.finish (Search.start recipe) := by
  have resolved : catalog.require target none = .ok recipe := require_eq_ok_iff.mpr found
  simp only [plan, resolved]

theorem plan_of_find?
    (found : catalog.find? target = some recipe) :
    catalog.plan target = catalog.walk recipe := by
  rw [plan_eq_finish found, finish_start]

theorem plan_of_absent
    (absent : catalog.find? target = none) :
    catalog.plan target = .error (.unknownRecipe target catalog.names none) := by
  have unresolved :
      catalog.require target none = .error (.unknownRecipe target catalog.names none) :=
    require_eq_error_iff.mpr ⟨absent, rfl⟩
  simp only [plan, unresolved]

/--
The search has the outcome of the recursive walk from left to right, which
carries the current path and the finished recipes: the same plan, or the
failure that the walk meets first.
-/
theorem plan_eq_walkTarget
    (catalog : Catalog)
    (target : String) :
    catalog.plan target = catalog.walkTarget target := by
  cases resolved : catalog.require target none with
  | error failure =>
    rcases require_eq_error_iff.mp resolved with ⟨absent, rfl⟩
    rw [plan_of_absent absent, walkTarget, resolved]
  | ok recipe =>
    rw [plan_of_find? (require_eq_ok_iff.mp resolved), walkTarget, resolved]

/-! ## Which targets have a plan -/

theorem neededFor_iff
    (found : catalog.find? target = some root) :
    catalog.NeededFor target recipe ↔ catalog.Reaches root recipe := by
  constructor
  · rintro ⟨other, otherFound, steps⟩
    rw [found] at otherFound
    exact Option.some.inj otherFound ▸ steps
  · intro steps
    exact ⟨root, found, steps⟩

/-- All that a target needs is there, and nothing among it needs itself. -/
structure Plannable (catalog : Catalog) (target : String) : Prop where
  known : target ∈ catalog.keys
  complete :
    ∀ recipe, catalog.NeededFor target recipe → ∀ need ∈ recipe.needs, need ∈ catalog.keys
  acyclic :
    ∀ recipe, catalog.NeededFor target recipe → ¬catalog.ReachesAfresh recipe recipe

/-- What a target needs, once each, each behind its own needs, and the target's recipe last. -/
structure IsPlan (catalog : Catalog) (target : String) (plan : List Recipe) : Prop where
  exact : ∀ recipe, recipe ∈ plan ↔ catalog.NeededFor target recipe
  once : (namesOf plan).Nodup
  ordered :
    ∀ front recipe back,
      plan = front ++ recipe :: back →
        ∀ needed, catalog.Needs recipe needed → needed ∈ front
  last : plan.getLast? = catalog.find? target

theorem isPlan_of_plan
    {plan : List Recipe}
    (planned : catalog.plan target = .ok plan) :
    catalog.IsPlan target plan := by
  cases found : catalog.find? target with
  | none =>
    rw [plan_of_absent found] at planned
    cases planned
  | some root =>
    rw [plan_of_find? found] at planned
    have member := mem_of_find? found
    rcases growth_of_walk member planned with ⟨growth, ends⟩
    exact {
      exact := fun recipe => (mem_iff_of_walk member planned).trans (neededFor_iff found).symm
      once := growth.finished.distinct
      ordered := fun _ _ _ split _ edge => growth.finished.mem_front split edge
      last := ends.trans found.symm }

theorem plannable_of_plan
    {plan : List Recipe}
    (planned : catalog.plan target = .ok plan) :
    catalog.Plannable target := by
  have isPlan := isPlan_of_plan planned
  cases found : catalog.find? target with
  | none =>
    rw [plan_of_absent found] at planned
    cases planned
  | some root =>
    rw [plan_of_find? found] at planned
    have finished := (growth_of_walk (mem_of_find? found) planned).1.finished
    exact {
      known := mem_keys_iff.mpr ⟨root, found⟩
      complete := by
        intro recipe needed need listed
        have present := (isPlan.exact recipe).mpr needed
        rcases List.append_of_mem present with ⟨front, back, split⟩
        rcases finished.ordered front recipe back split need listed with ⟨other, _, holds⟩
        exact mem_keys_iff.mpr ⟨other, holds⟩
      acyclic := fun recipe needed =>
        finished.not_reachesAfresh_self ((isPlan.exact recipe).mpr needed) }

theorem exists_plan_of_plannable
    (plannable : catalog.Plannable target) :
    ∃ plan, catalog.plan target = .ok plan := by
  rcases mem_keys_iff.mp plannable.known with ⟨root, found⟩
  rw [plan_of_find? found]
  cases walked : catalog.walk root with
  | ok plan => exact ⟨plan, rfl⟩
  | error failure =>
    have fault := fault_of_walk (mem_of_find? found) walked
    rcases fault.unmet_or_cyclic with ⟨user, reached, need, listed, unmet⟩ | ⟨first, reached, cycle⟩
    · have needed := (neededFor_iff found).mpr reached
      exact absurd (plannable.complete user needed need listed) unmet
    · have needed := (neededFor_iff found).mpr reached
      exact absurd cycle (plannable.acyclic first needed)

/--
A target has a plan exactly when all it needs is there and nothing among it
needs itself; and every plan is an order of just what the target needs.
-/
theorem plan_correct
    (catalog : Catalog)
    (target : String) :
    ((∃ plan, catalog.plan target = .ok plan) ↔ catalog.Plannable target) ∧
      ∀ plan, catalog.plan target = .ok plan → catalog.IsPlan target plan := by
  refine ⟨⟨?_, exists_plan_of_plannable⟩, fun plan planned => isPlan_of_plan planned⟩
  rintro ⟨plan, planned⟩
  exact plannable_of_plan planned

end Cookbook.Catalog
