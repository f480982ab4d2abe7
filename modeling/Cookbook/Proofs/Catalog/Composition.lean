import Cookbook.Proofs.Catalog.Check
import Cookbook.Proofs.Except
import Mathlib.Data.List.Forall2

/-!
# Plans made of plans

A walk that goes on behind finished recipes visits what it would visit on its
own, and leaves out what is finished already.  So the plan of a target is made
of the plans of its needs: these stand one behind the other, each recipe where
it occurs first, and the recipe of the target stands last.
-/

namespace Cookbook.Catalog

variable
    {catalog : Catalog}
    {path other needs : List String}
    {target need : String}
    {root recipe needed : Recipe}
    {kept before below after later inner front back : List Recipe}

/-! ## First occurrences -/

theorem removeAll_eq_nil_of_subset
    (inside : back ⊆ front) :
    back.removeAll front = [] := by
  rw [List.removeAll, List.filter_eq_nil_iff]
  intro recipe member
  simpa using inside member

theorem removeAll_of_disjoint
    (apart : ∀ recipe ∈ back, recipe ∉ front) :
    back.removeAll front = back := by
  rw [List.removeAll, List.filter_eq_self]
  intro recipe member
  simpa using apart recipe member

theorem removeAll_eraseDups
    (front back : List Recipe) :
    back.removeAll front.eraseDups = back.removeAll front := by
  rw [List.removeAll, List.removeAll]
  apply List.filter_congr
  intro recipe _
  simp [List.mem_eraseDups]

/-- Nothing new occurs first behind what holds it already. -/
theorem eraseDups_append_of_subset
    (inside : back ⊆ front) :
    (front ++ back).eraseDups = front.eraseDups := by
  rw [List.eraseDups_append, removeAll_eq_nil_of_subset inside, List.eraseDups_nil,
    List.append_nil]

theorem eraseDups_append_one
    (fresh : recipe ∉ front) :
    (front ++ [recipe]).eraseDups = front.eraseDups ++ [recipe] := by
  rw [List.eraseDups_append, removeAll_of_disjoint (List.forall_mem_singleton.mpr fresh),
    List.eraseDups_cons, List.filter_nil, List.eraseDups_nil]

theorem eraseDups_of_nodup
    (distinct : front.Nodup) :
    front.eraseDups = front := by
  induction front using List.reverseRecOn with
  | nil => rfl
  | append_singleton front recipe ih =>
    rcases List.nodup_append'.mp distinct with ⟨earlier, _, apart⟩
    rw [eraseDups_append_one (List.disjoint_singleton.mp apart), ih earlier]

theorem eraseDups_eraseDups_append
    (front back : List Recipe)
    (distinct : front.eraseDups.Nodup) :
    (front.eraseDups ++ back).eraseDups = (front ++ back).eraseDups := by
  rw [List.eraseDups_append, List.eraseDups_append, removeAll_eraseDups,
    eraseDups_of_nodup distinct]

theorem Finished.nodup
    (finished : catalog.Finished after) :
    after.Nodup :=
  finished.distinct.of_map Recipe.name

/-! ## One need of a walk -/

/-- A need that a walk gets past is finished already, or is visited with its own needs first. -/
theorem walkNeeds_cons_eq_ok
    (walked : catalog.walkNeeds path before recipe (need :: needs) = .ok after) :
    ∃ needed, catalog.find? need = some needed ∧
      (needed.name ∈ namesOf before ∧
          catalog.walkNeeds path before recipe needs = .ok after ∨
        needed.name ∉ namesOf before ∧ needed.name ∉ path ∧
          ∃ below,
            catalog.walkNeeds (path ++ [needed.name]) before needed needed.needs = .ok below ∧
              catalog.walkNeeds path (below ++ [needed]) recipe needs = .ok after) := by
  cases found : catalog.find? need with
  | none =>
    rw [walkNeeds_of_absent found] at walked
    cases walked
  | some needed =>
    refine ⟨needed, rfl, ?_⟩
    rw [walkNeeds_of_find? found] at walked
    split at walked
    · exact Or.inl ⟨‹_›, walked⟩
    · split at walked
      · cases walked
      · rcases exists_of_bind_eq_ok walked with ⟨below, inner, passed⟩
        exact Or.inr ⟨‹_›, ‹_›, below, inner, passed⟩

/-- A recipe is walked over by its needs and then stands last. -/
theorem walk_eq_ok
    (walked : catalog.walk recipe = .ok after) :
    ∃ below, catalog.walkNeeds [recipe.name] [] recipe recipe.needs = .ok below ∧
      after = below ++ [recipe] := by
  rw [walk_eq_bind] at walked
  rcases exists_of_bind_eq_ok walked with ⟨below, inner, last⟩
  exact ⟨below, inner, (Except.ok.inj last).symm⟩

/-! ## Walks behind finished recipes -/

/-- Finished recipes behind finished recipes are recognised by their names. -/
theorem Finished.name_mem_append_iff
    (finished : catalog.Finished kept)
    (start : catalog.Finished before)
    (member : needed ∈ catalog.recipes) :
    needed.name ∈ namesOf (kept ++ before).eraseDups ↔ needed ∈ kept ++ before := by
  constructor
  · intro named
    rcases mem_namesOf.mp named with ⟨twin, present, same⟩
    have inside := List.mem_eraseDups.mp present
    have known : twin ∈ catalog.recipes :=
      (List.mem_append.mp inside).elim (finished.members twin) (start.members twin)
    exact eq_of_name_eq known member same ▸ inside
  · intro present
    exact mem_namesOf.mpr ⟨needed, List.mem_eraseDups.mpr present, rfl⟩

/-- All that a walk adds for a need is reached from it, so it is finished if the need is. -/
theorem Growth.eraseDups_eq
    (growth : catalog.Growth path [need] before after)
    (finished : catalog.Finished kept)
    (found : catalog.find? need = some needed)
    (present : needed ∈ kept) :
    (kept ++ after).eraseDups = (kept ++ before).eraseDups := by
  rcases growth.kept with ⟨added, rfl⟩
  rw [← List.append_assoc]
  apply eraseDups_append_of_subset
  intro recipe member
  rcases growth.reached recipe (List.mem_append_right before member) with
    old | ⟨asked, listed, reached, foundAsked, steps⟩
  · exact List.mem_append_right kept old
  · rw [List.mem_singleton.mp listed, found] at foundAsked
    cases foundAsked
    exact List.mem_append_left before (finished.mem_of_reaches present steps)

/--
Two walks over the same needs, of which the second has more recipes finished in
front: it finishes what the first one finishes, unless it is there already.
-/
theorem walkNeeds_behind
    (finished : catalog.Finished kept)
    (start : catalog.Finished before)
    (alone : catalog.walkNeeds path before recipe needs = .ok after)
    (walked : catalog.walkNeeds other (kept ++ before).eraseDups recipe needs = .ok later) :
    later = (kept ++ after).eraseDups := by
  fun_induction walkNeeds catalog path before recipe needs generalizing other after later with
  | case1 =>
    cases alone
    rw [walkNeeds] at walked
    cases walked
    rfl
  | case2 => cases alone
  | case3 path before recipe need rest needed resolved named ih =>
    have found := require_eq_ok_iff.mp resolved
    have member := mem_of_find? found
    rcases walkNeeds_cons_eq_ok walked with ⟨same, again, ⟨_, passed⟩ | ⟨unnamed, _⟩⟩
    · exact ih start alone passed
    · cases Option.some.inj (found.symm.trans again)
      rw [finished.name_mem_append_iff start member] at unnamed
      exact absurd (List.mem_append_right kept (start.mem_of_name_mem member named)) unnamed
  | case4 => cases alone
  | case5 => cases alone
  | case6 path before recipe need rest needed resolved unnamed notOnPath below inner ihBelow ih =>
    have found := require_eq_ok_iff.mp resolved
    have member := mem_of_find? found
    have growth := Growth.finish found unnamed notOnPath (growth_of_walkNeeds start inner)
    rcases walkNeeds_cons_eq_ok walked with
      ⟨same, again, ⟨named, passed⟩ | ⟨unnamedAgain, _, deeper, innerAgain, passed⟩⟩
    · -- the second walk passes over the need, and with it over all that the first one adds
      cases Option.some.inj (found.symm.trans again)
      rw [finished.name_mem_append_iff start member] at named
      have absent : needed ∉ before := fun present =>
        unnamed (mem_namesOf.mpr ⟨needed, present, rfl⟩)
      have present := (List.mem_append.mp named).resolve_right absent
      rw [← growth.eraseDups_eq finished found present] at passed
      exact ih growth.finished alone passed
    · cases Option.some.inj (found.symm.trans again)
      rw [finished.name_mem_append_iff start member] at unnamedAgain
      have fresh : needed ∉ kept ++ below := by
        intro present
        rcases List.mem_append.mp present with inKept | inBelow
        · exact unnamedAgain (List.mem_append_left before inKept)
        · exact (List.nodup_append'.mp growth.finished.nodup).2.2 inBelow
            (List.mem_singleton_self needed)
      rw [ihBelow start inner innerAgain, ← eraseDups_append_one fresh, List.append_assoc] at passed
      exact ih growth.finished alone passed

/-! ## Plans one behind the other -/

/-- A walk gets past a need by adding the plan of the need. -/
theorem walkNeeds_past
    (finished : catalog.Finished kept)
    (planned : catalog.plan need = .ok inner)
    (walked : catalog.walkNeeds path kept recipe (need :: needs) = .ok after) :
    catalog.Finished (kept ++ inner).eraseDups ∧
      catalog.walkNeeds path (kept ++ inner).eraseDups recipe needs = .ok after := by
  have same : kept.eraseDups = kept := eraseDups_of_nodup finished.nodup
  rcases walkNeeds_cons_eq_ok walked with ⟨needed, found, visited⟩
  have member := mem_of_find? found
  rw [plan_of_find? found] at planned
  have alone := (growth_of_walk member planned).1
  rcases visited with ⟨named, passed⟩ | ⟨unnamed, notOnPath, below, deeper, passed⟩
  · have present := finished.mem_of_name_mem member named
    rw [alone.eraseDups_eq finished (find?_name member) present, List.append_nil, same]
    exact ⟨finished, passed⟩
  · rcases walk_eq_ok planned with ⟨belowAlone, deeperAlone, rfl⟩
    have growth := Growth.finish found unnamed notOnPath (growth_of_walkNeeds finished deeper)
    have fresh : needed ∉ kept ++ belowAlone := by
      intro present
      rcases List.mem_append.mp present with inKept | inBelow
      · exact unnamed (mem_namesOf.mpr ⟨needed, inKept, rfl⟩)
      · exact (List.nodup_append'.mp alone.finished.nodup).2.2 inBelow
          (List.mem_singleton_self needed)
    have behind : catalog.walkNeeds (path ++ [needed.name]) (kept ++ []).eraseDups needed
        needed.needs = .ok below := by
      rw [List.append_nil, same]
      exact deeper
    rw [← List.append_assoc, eraseDups_append_one fresh,
      ← walkNeeds_behind finished .nil deeperAlone behind]
    exact ⟨growth.finished, passed⟩

/-- A walk over needs puts their plans one behind the other. -/
theorem walkNeeds_eq_plans
    {plans : List (List Recipe)}
    (planned : List.Forall₂ (fun need inner => catalog.plan need = .ok inner) needs plans)
    (finished : catalog.Finished front.eraseDups)
    (walked : catalog.walkNeeds path front.eraseDups recipe needs = .ok after) :
    after = (front ++ plans.flatten).eraseDups := by
  induction planned generalizing front with
  | nil =>
    rw [walkNeeds] at walked
    cases walked
    rw [List.flatten_nil, List.append_nil]
  | @cons need inner needs plans first others ih =>
    rcases walkNeeds_past finished first walked with ⟨longer, passed⟩
    rw [eraseDups_eraseDups_append front inner finished.nodup] at longer passed
    rw [ih longer passed, List.flatten_cons, List.append_assoc]

/-- All needs of a planned recipe have plans. -/
theorem exists_plans
    (planned : ∀ need ∈ needs, ∃ inner, catalog.plan need = .ok inner) :
    ∃ plans, List.Forall₂ (fun need inner => catalog.plan need = .ok inner) needs plans := by
  induction needs with
  | nil => exact ⟨[], .nil⟩
  | cons need needs ih =>
    rcases List.forall_mem_cons.mp planned with ⟨⟨inner, first⟩, others⟩
    rcases ih others with ⟨plans, later⟩
    exact ⟨inner :: plans, .cons first later⟩

/-- What a planned target needs can be planned as well. -/
theorem exists_plan_of_need
    (planned : catalog.plan target = .ok after)
    (found : catalog.find? target = some root)
    (listed : need ∈ root.needs) :
    ∃ inner, catalog.plan need = .ok inner := by
  have asked : catalog.NeededFor target root := (neededFor_iff found).mpr .refl
  rcases mem_keys_iff.mp ((plannable_of_plan planned).complete root asked need listed) with
    ⟨needed, foundNeed⟩
  have edge : catalog.Needs root needed := ⟨need, listed, foundNeed⟩
  have present := ((isPlan_of_plan planned).exact needed).mpr
    ((neededFor_iff found).mpr (.single edge))
  rw [plan_eq_plan_name foundNeed]
  exact exists_plan_of_mem_plan planned present

/--
If a target has a plan, so has each of its needs, and the plan consists of the
plans of the needs in their order, each recipe where it occurs first, and the
recipe of the target behind them.
-/
theorem plan_made_of_plans
    (planned : catalog.plan target = .ok after) :
    ∃ root plans, catalog.find? target = some root ∧
      List.Forall₂ (fun need inner => catalog.plan need = .ok inner) root.needs plans ∧
      after = plans.flatten.eraseDups ++ [root] := by
  cases found : catalog.find? target with
  | none =>
    rw [plan_of_absent found] at planned
    cases planned
  | some root =>
    rcases exists_plans fun need listed => exists_plan_of_need planned found listed with
      ⟨plans, plannedNeeds⟩
    rw [plan_of_find? found] at planned
    rcases walk_eq_ok planned with ⟨below, walked, rfl⟩
    have start : catalog.Finished (List.eraseDups []) := .nil
    refine ⟨root, plans, rfl, plannedNeeds, ?_⟩
    rw [walkNeeds_eq_plans plannedNeeds start walked, List.nil_append]

/-- Two needs that share all of their own, one of them asked for by a nickname. -/
theorem plan_made_of_plans_shared :
    let all : Recipe := { name := "all", needs := ["b", "lint"] }
    let build : Recipe := { name := "build", needs := ["gen"], aliases := ["b"] }
    let lint : Recipe := { name := "lint", needs := ["g", "build"] }
    let gen : Recipe := { name := "gen", aliases := ["g"] }
    let catalog : Catalog := ⟨[all, build, lint, gen], by decide⟩
    catalog.plan "all" = .ok [gen, build, lint, all] ∧
      ∃ root plans, catalog.find? "all" = some root ∧
        List.Forall₂ (fun need inner => catalog.plan need = .ok inner) root.needs plans ∧
        [gen, build, lint, all] = plans.flatten.eraseDups ++ [root] := by
  intro all build lint gen catalog
  have planned : catalog.plan "all" = .ok [gen, build, lint, all] := by
    with_unfolding_all rfl
  exact ⟨planned, plan_made_of_plans planned⟩

end Cookbook.Catalog
