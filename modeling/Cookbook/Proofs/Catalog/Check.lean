import Cookbook.Proofs.Catalog.Plan
import Cookbook.Proofs.Catalog.Reason

/-!
# Checking needs

Checking the needs of a catalog plans its names in turn and passes over those
that an earlier plan holds.  What a plan holds can itself be planned, so nothing
is lost: the outcome is that of planning every name.
-/

namespace Cookbook.Catalog

variable
    {catalog : Catalog}
    {target : String}
    {recipe : Recipe}
    {plan : List Recipe}
    {checked names : List String}
    {failure : Failure}

/-- Whatever a plan holds belongs to the catalog. -/
theorem mem_recipes_of_mem_plan
    (planned : catalog.plan target = .ok plan)
    (member : recipe ∈ plan) :
    recipe ∈ catalog.recipes := by
  rcases ((isPlan_of_plan planned).exact recipe).mp member with ⟨root, found, steps⟩
  exact steps.mem (mem_of_find? found)

/-- What a recipe below a target needs, the target needs as well. -/
theorem NeededFor.of_mem_plan
    (planned : catalog.plan target = .ok plan)
    (member : recipe ∈ plan)
    {other : Recipe}
    (needed : catalog.NeededFor recipe.name other) :
    catalog.NeededFor target other := by
  rcases ((isPlan_of_plan planned).exact recipe).mp member with ⟨root, found, steps⟩
  have named := find?_name (mem_recipes_of_mem_plan planned member)
  exact ⟨root, found, steps.trans ((neededFor_iff named).mp needed)⟩

/-- Whatever a plan holds has a plan of its own. -/
theorem exists_plan_of_mem_plan
    (planned : catalog.plan target = .ok plan)
    (member : recipe ∈ plan) :
    ∃ inner, catalog.plan recipe.name = .ok inner := by
  have plannable := plannable_of_plan planned
  apply exists_plan_of_plannable
  constructor
  case known =>
    exact mem_keys_iff.mpr ⟨recipe, find?_name (mem_recipes_of_mem_plan planned member)⟩
  case complete =>
    intro other needed
    exact plannable.complete other (needed.of_mem_plan planned member)
  case acyclic =>
    intro other needed
    exact plannable.acyclic other (needed.of_mem_plan planned member)

/-- A key has the plan of the recipe that it stands for. -/
theorem plan_eq_plan_name
    (found : catalog.find? target = some recipe) :
    catalog.plan target = catalog.plan recipe.name := by
  rw [plan_of_find? found, plan_of_find? (find?_name (mem_of_find? found))]

/-- Plans names in turn, without passing over any. -/
def planEach (catalog : Catalog) : List String → Except Failure Unit
  | [] => .ok ()
  | name :: rest =>
    match catalog.plan name with
    | .error failure => .error failure
    | .ok _ => catalog.planEach rest

/-- Names that an earlier plan holds are passed over for good reason. -/
theorem checkNeedsFrom_eq_planEach
    (known : ∀ name ∈ checked, ∃ plan, catalog.plan name = .ok plan)
    (names : List String) :
    catalog.checkNeedsFrom checked names = catalog.planEach names := by
  induction names generalizing checked with
  | nil => rfl
  | cons name rest ih =>
    rw [checkNeedsFrom, planEach]
    by_cases held : name ∈ checked
    · rcases known name held with ⟨plan, planned⟩
      rw [if_pos held, planned]
      exact ih known
    · rw [if_neg held]
      cases planned : catalog.plan name with
      | error failure => rfl
      | ok plan =>
        apply ih
        intro other member
        rcases List.mem_append.mp member with earlier | now
        · exact known other earlier
        · rcases List.mem_map.mp now with ⟨recipe, inPlan, rfl⟩
          exact exists_plan_of_mem_plan planned inPlan

theorem checkNeeds_eq_planEach
    (catalog : Catalog) :
    catalog.checkNeeds = catalog.planEach catalog.names :=
  checkNeedsFrom_eq_planEach (List.forall_mem_nil _) catalog.names

theorem planEach_eq_ok_iff :
    catalog.planEach names = .ok () ↔
      ∀ name ∈ names, ∃ plan, catalog.plan name = .ok plan := by
  induction names with
  | nil => simp [planEach]
  | cons name rest ih =>
    rw [planEach, List.forall_mem_cons]
    cases planned : catalog.plan name with
    | error failure => simp
    | ok plan => simp [ih]

/-- Planning names in turn fails as the first name does that has no plan. -/
theorem planEach_eq_error_iff :
    catalog.planEach names = .error failure ↔
      ∃ front name back, names = front ++ name :: back ∧
        (∀ earlier ∈ front, ∃ plan, catalog.plan earlier = .ok plan) ∧
          catalog.plan name = .error failure := by
  constructor
  · intro failed
    induction names with
    | nil => cases failed
    | cons name rest ih =>
      rw [planEach] at failed
      cases planned : catalog.plan name with
      | error problem =>
        rw [planned] at failed
        cases failed
        exact ⟨[], name, rest, rfl, List.forall_mem_nil _, planned⟩
      | ok plan =>
        rw [planned] at failed
        rcases ih failed with ⟨front, other, back, rfl, earlier, unplanned⟩
        exact ⟨name :: front, other, back, rfl,
          List.forall_mem_cons.mpr ⟨⟨plan, planned⟩, earlier⟩, unplanned⟩
  · rintro ⟨front, name, back, rfl, earlier, unplanned⟩
    induction front with
    | nil => rw [List.nil_append, planEach, unplanned]
    | cons first front ih =>
      rcases List.forall_mem_cons.mp earlier with ⟨⟨plan, planned⟩, others⟩
      rw [List.cons_append, planEach, planned]
      exact ih others

theorem exists_of_planEach_eq_error
    (failed : catalog.planEach names = .error failure) :
    ∃ name ∈ names, catalog.plan name = .error failure := by
  rcases planEach_eq_error_iff.mp failed with ⟨front, name, back, rfl, _, unplanned⟩
  exact ⟨name, List.mem_append_right front List.mem_cons_self, unplanned⟩

/-- After a check without failure every key has a plan. -/
theorem exists_plan_of_checkNeeds
    (checked : catalog.checkNeeds = .ok ())
    (known : target ∈ catalog.keys) :
    ∃ plan, catalog.plan target = .ok plan := by
  rw [checkNeeds_eq_planEach, planEach_eq_ok_iff] at checked
  rcases mem_keys_iff.mp known with ⟨recipe, found⟩
  rw [plan_eq_plan_name found]
  exact checked recipe.name (List.mem_map_of_mem (mem_of_find? found))

/-! ## What a check without failure says -/

/-- Every need of every recipe is a key of the catalog, and no recipe needs itself. -/
structure Orderly (catalog : Catalog) : Prop where
  complete : ∀ recipe ∈ catalog.recipes, ∀ need ∈ recipe.needs, need ∈ catalog.keys
  acyclic : ∀ recipe ∈ catalog.recipes, ¬catalog.ReachesAfresh recipe recipe

/-- In an orderly catalog every key can be planned. -/
theorem Orderly.plannable
    (orderly : catalog.Orderly)
    (known : target ∈ catalog.keys) :
    catalog.Plannable target := by
  have members : ∀ recipe, catalog.NeededFor target recipe → recipe ∈ catalog.recipes := by
    rintro recipe ⟨root, found, steps⟩
    exact steps.mem (mem_of_find? found)
  exact {
    known := known
    complete := fun recipe needed => orderly.complete recipe (members recipe needed)
    acyclic := fun recipe needed => orderly.acyclic recipe (members recipe needed) }

theorem orderly_iff :
    catalog.Orderly ↔ ∀ name ∈ catalog.names, ∃ plan, catalog.plan name = .ok plan := by
  constructor
  · intro orderly name listed
    exact exists_plan_of_plannable (orderly.plannable (names_subset_keys catalog listed))
  · intro planned
    have plannable : ∀ recipe ∈ catalog.recipes,
        catalog.Plannable recipe.name ∧ catalog.NeededFor recipe.name recipe := by
      intro recipe member
      rcases planned recipe.name (List.mem_map_of_mem member) with ⟨plan, found⟩
      exact ⟨plannable_of_plan found, recipe, find?_name member, .refl⟩
    constructor
    case complete =>
      intro recipe member
      rcases plannable recipe member with ⟨sound, itself⟩
      exact sound.complete recipe itself
    case acyclic =>
      intro recipe member
      rcases plannable recipe member with ⟨sound, itself⟩
      exact sound.acyclic recipe itself

/--
Names that an earlier plan holds can be passed over: the check ends as if every
name was planned in the order of acceptance, with the failure of the first name
that has no plan.  It ends without failure exactly if every need is a key and no
recipe needs itself.
-/
theorem checkNeeds_passes_over_nothing
    (catalog : Catalog) :
    catalog.checkNeeds = catalog.planEach catalog.names ∧
      (∀ failure, catalog.checkNeeds = .error failure ↔
        ∃ front name back, catalog.names = front ++ name :: back ∧
          (∀ earlier ∈ front, ∃ plan, catalog.plan earlier = .ok plan) ∧
            catalog.plan name = .error failure) ∧
        (catalog.checkNeeds = .ok () ↔ catalog.Orderly) := by
  have same := catalog.checkNeeds_eq_planEach
  rw [same, orderly_iff]
  exact ⟨rfl, fun failure => planEach_eq_error_iff, planEach_eq_ok_iff⟩

end Cookbook.Catalog
