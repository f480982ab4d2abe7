import Cookbook.Proofs.Catalog.Plan

/-!
# What a failed plan reports

The failure of a plan speaks of names only, and what it says can be checked
against the catalog.  A reported cycle can be walked name by name through
needs, comes back to where it starts and meets no other name twice.  A
reported name is a key of no recipe, and if a recipe is said to ask for it,
that recipe does and is needed for the target.
-/

namespace Cookbook.Catalog

variable
    {catalog : Catalog}
    {target : String}
    {root recipe : Recipe}
    {failure : Failure}

/-! ## Reasons told by names -/

/-- The recipe of the first name asks, by any key, for the recipe of the second name. -/
def NeedsByName (catalog : Catalog) (user needed : String) : Prop :=
  ∃ recipe ∈ catalog.recipes, recipe.name = user ∧
    ∃ other, other.name = needed ∧ catalog.Needs recipe other

/-- Names that lead from one recipe below a target through needs back to it. -/
structure IsCycle (catalog : Catalog) (target : String) (cycle : List String) : Prop where
  long : 2 ≤ cycle.length
  closed : cycle.head? = cycle.getLast?
  simple : cycle.dropLast.Nodup
  linked : cycle.IsChain catalog.NeedsByName
  below :
    ∀ name ∈ cycle,
      ∃ recipe ∈ catalog.recipes, recipe.name = name ∧ catalog.NeededFor target recipe

/-- A name that is no key: the target itself, or a need of a recipe below the target. -/
structure IsMissing (catalog : Catalog) (target name : String) (known : List String)
    (neededBy : Option String) : Prop where
  known : known = catalog.names
  absent : name ∉ catalog.keys
  asked :
    neededBy = none ∧ name = target ∨
      ∃ user ∈ catalog.recipes, neededBy = some user.name ∧
        catalog.NeededFor target user ∧ name ∈ user.needs

/-- A failure gives a true reason why a target has no plan. -/
def Justifies (catalog : Catalog) (target : String) : Failure → Prop
  | .cyclicNeeds cycle => catalog.IsCycle target cycle
  | .unknownRecipe name known neededBy => catalog.IsMissing target name known neededBy
  | _ => False

/-! ## From recipes to their names -/

theorem Reaches.mem
    (member : root ∈ catalog.recipes)
    (steps : catalog.Reaches root recipe) :
    recipe ∈ catalog.recipes := by
  cases steps with
  | refl => exact member
  | tail _ edge => exact edge.mem

/-- Recipes that are linked behind a reached one are reached as well. -/
theorem reaches_of_isChain
    {first : Recipe}
    {rest : List Recipe}
    (reached : catalog.Reaches root first)
    (linked : (first :: rest).IsChain catalog.Needs) :
    ∀ recipe ∈ first :: rest, catalog.Reaches root recipe := by
  intro recipe present
  rcases List.mem_cons.mp present with rfl | behind
  · exact reached
  · apply linked.cons_induction (catalog.Reaches root) rest
    · intro user needed edge steps
      exact steps.tail edge
    · exact reached
    · exact behind

/-- Linked recipes of the catalog have linked names. -/
theorem isChain_namesOf
    {recipes : List Recipe}
    (members : ∀ recipe ∈ recipes, recipe ∈ catalog.recipes)
    (linked : recipes.IsChain catalog.Needs) :
    (namesOf recipes).IsChain catalog.NeedsByName := by
  apply (List.isChain_map Recipe.name).mpr
  apply linked.imp_of_mem_imp
  intro user needed present _ edge
  exact ⟨user, members user present, rfl, needed, rfl, edge⟩

/-- A cycle of recipes below the target is a cycle of names. -/
theorem isCycle_namesOf
    {first : Recipe}
    {rest : List Recipe}
    (found : catalog.find? target = some root)
    (reached : catalog.Reaches root first)
    (linked : (first :: rest ++ [first]).IsChain catalog.Needs)
    (simple : (namesOf (first :: rest)).Nodup) :
    catalog.IsCycle target (namesOf (first :: rest ++ [first])) := by
  have below := reaches_of_isChain reached linked
  have members : ∀ recipe ∈ first :: rest ++ [first], recipe ∈ catalog.recipes := by
    intro recipe present
    exact (below recipe present).mem (mem_of_find? found)
  have spelled :
      namesOf (first :: rest ++ [first]) = namesOf (first :: rest) ++ [first.name] :=
    namesOf_append (first :: rest) [first]
  constructor
  case long => simp
  case closed =>
    rw [spelled, List.getLast?_concat]
    rfl
  case simple =>
    rw [spelled, List.dropLast_concat]
    exact simple
  case linked => exact isChain_namesOf members linked
  case below =>
    intro name named
    rcases mem_namesOf.mp named with ⟨recipe, present, rfl⟩
    exact ⟨recipe, members recipe present, rfl,
      (neededFor_iff found).mpr (below recipe present)⟩

/-- What is wrong below the recipe of a target justifies that the target has no plan. -/
theorem Fault.justifies
    (found : catalog.find? target = some root)
    (fault : catalog.Fault root failure) :
    catalog.Justifies target failure := by
  cases fault with
  | @unknown user need reached listed absent =>
    constructor
    case known => rfl
    case absent => exact (find?_eq_none_iff catalog need).mp absent
    case asked =>
      exact Or.inr ⟨user, reached.mem (mem_of_find? found), rfl,
        (neededFor_iff found).mpr reached, listed⟩
  | cyclic reached linked simple => exact isCycle_namesOf found reached linked simple

/--
A plan fails for a true reason only.  The failure is either a cycle of names
below the target, or a name that is no key, with the names of all recipes in
the order of their acceptance and the recipe that asks for the missing one.
-/
theorem plan_failure_justified
    (planned : catalog.plan target = .error failure) :
    catalog.Justifies target failure := by
  cases found : catalog.find? target with
  | none =>
    rw [plan_of_absent found] at planned
    cases planned
    constructor
    case known => rfl
    case absent => exact (find?_eq_none_iff catalog target).mp found
    case asked => exact Or.inl ⟨rfl, rfl⟩
  | some root =>
    rw [plan_of_find? found] at planned
    exact (fault_of_walk (mem_of_find? found) planned).justifies found

/-- A cycle strictly below the target, closed through nicknames, is told by proper names. -/
theorem plan_failure_justified_nicknames :
    let recipes : List Recipe :=
      [ { name := "all", needs := ["b"] },
        { name := "build", needs := ["l"], aliases := ["b"] },
        { name := "lint", needs := ["b"], aliases := ["l"] } ]
    let catalog : Catalog := ⟨recipes, by decide⟩
    catalog.plan "all" = .error (.cyclicNeeds ["build", "lint", "build"]) ∧
      catalog.IsCycle "all" ["build", "lint", "build"] := by
  intro recipes catalog
  have planned : catalog.plan "all" = .error (.cyclicNeeds ["build", "lint", "build"]) := by
    with_unfolding_all rfl
  exact ⟨planned, plan_failure_justified planned⟩

end Cookbook.Catalog
