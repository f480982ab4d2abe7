import Cookbook.Proofs.Catalog.Walk
import Mathlib.Data.List.Chain

/-!
# Why a walk fails

A walk fails for one of two reasons.  Some recipe that can be reached has a
need that is no key of the catalog, or some recipe that can be reached lies on
a cycle of needs.  The failure names the need or spells the cycle out.
-/

namespace Cookbook.Catalog

variable
    {catalog : Catalog}
    {root recipe needed : Recipe}
    {trail : List Recipe}

/-- A genuine reason why what a recipe needs cannot be put into order. -/
inductive Fault (catalog : Catalog) (root : Recipe) : Failure → Prop
  | unknown {user : Recipe} {need : String}
      (reached : catalog.Reaches root user)
      (listed : need ∈ user.needs)
      (absent : catalog.find? need = none) :
      Fault catalog root (.unknownRecipe need catalog.names (some user.name))
  | cyclic {first : Recipe} {rest : List Recipe}
      (reached : catalog.Reaches root first)
      (linked : (first :: rest ++ [first]).IsChain catalog.Needs)
      (simple : (namesOf (first :: rest)).Nodup) :
      Fault catalog root (.cyclicNeeds (namesOf (first :: rest ++ [first])))

/-- What the current path of a walk is made of, from the root to the last recipe. -/
structure Trail (catalog : Catalog) (root : Recipe) (trail : List Recipe)
    (last : Recipe) : Prop where
  linked : trail.IsChain catalog.Needs
  ends : trail.getLast? = some last
  reached : ∀ recipe ∈ trail, catalog.Reaches root recipe
  members : ∀ recipe ∈ trail, recipe ∈ catalog.recipes
  simple : (namesOf trail).Nodup

theorem Trail.singleton
    (member : recipe ∈ catalog.recipes) :
    catalog.Trail recipe [recipe] recipe where
  linked := List.isChain_singleton recipe
  ends := rfl
  reached := by
    intro other present
    rw [List.mem_singleton.mp present]
    exact .refl
  members := by
    intro other present
    rw [List.mem_singleton.mp present]
    exact member
  simple := List.nodup_singleton _

theorem Trail.reaches_last
    (path : catalog.Trail root trail recipe) :
    catalog.Reaches root recipe :=
  path.reached recipe (List.mem_of_getLast? path.ends)

/-- One more recipe can be linked to the end of a trail. -/
theorem Trail.linked_append_one
    (path : catalog.Trail root trail recipe)
    (edge : catalog.Needs recipe needed) :
    (trail ++ [needed]).IsChain catalog.Needs := by
  refine List.isChain_append.mpr ⟨path.linked, List.isChain_singleton needed, ?_⟩
  intro last isLast next isNext
  rw [path.ends] at isLast
  rw [← Option.some.inj isLast, ← Option.some.inj isNext]
  exact edge

theorem Trail.append_one
    (path : catalog.Trail root trail recipe)
    (edge : catalog.Needs recipe needed)
    (fresh : needed.name ∉ namesOf trail) :
    catalog.Trail root (trail ++ [needed]) needed where
  linked := path.linked_append_one edge
  ends := List.getLast?_concat
  reached := by
    intro other present
    rcases List.mem_append.mp present with old | new
    · exact path.reached other old
    · rw [List.mem_singleton.mp new]
      exact path.reaches_last.tail edge
  members := by
    intro other present
    rcases List.mem_append.mp present with old | new
    · exact path.members other old
    · rw [List.mem_singleton.mp new]
      exact edge.mem
  simple := by
    rw [namesOf_append]
    exact List.nodup_append'.mpr
      ⟨path.simple, List.nodup_singleton _, List.disjoint_singleton.mpr fresh⟩

/-- A need that stands on the trail closes a cycle, cut out of the trail by name. -/
theorem Trail.fault_of_name_mem
    (path : catalog.Trail root trail recipe)
    (edge : catalog.Needs recipe needed)
    (onPath : needed.name ∈ namesOf trail) :
    catalog.Fault root
      (.cyclicNeeds ((namesOf trail).dropWhile (· != needed.name) ++ [needed.name])) := by
  rcases mem_namesOf.mp onPath with ⟨again, present, same⟩
  have equal : again = needed := eq_of_name_eq (path.members again present) edge.mem same
  subst equal
  rcases List.append_of_mem present with ⟨front, rest, rfl⟩
  have simple := path.simple
  rw [namesOf_append, List.nodup_append'] at simple
  have cut :
      (namesOf (front ++ again :: rest)).dropWhile (· != again.name) =
        namesOf (again :: rest) := by
    rw [namesOf_append, List.dropWhile_append_of_pos]
    · simp
    · intro name inFront
      have different : name ≠ again.name := by
        rintro rfl
        exact simple.2.2 inFront List.mem_cons_self
      simpa using different
  have linked := path.linked_append_one edge
  rw [List.append_assoc] at linked
  have closed : catalog.Fault root (.cyclicNeeds (namesOf (again :: rest ++ [again]))) :=
    .cyclic (path.reached again present) (List.isChain_append.mp linked).2.1 simple.2.1
  rw [namesOf_append] at closed
  rw [cut]
  exact closed

/-- A walk over needs of the last recipe of a trail fails for a genuine reason only. -/
theorem fault_of_walkNeeds
    {finished : List Recipe}
    {needs : List String}
    {failure : Failure}
    (path : catalog.Trail root trail recipe)
    (listed : needs ⊆ recipe.needs)
    (walked : catalog.walkNeeds (namesOf trail) finished recipe needs = .error failure) :
    catalog.Fault root failure := by
  generalize spelled : namesOf trail = names at walked
  fun_induction walkNeeds catalog names finished recipe needs generalizing trail with
  | case1 => cases walked
  | case2 names finished recipe need rest problem unresolved =>
    cases walked
    rcases require_eq_error_iff.mp unresolved with ⟨absent, rfl⟩
    exact .unknown path.reaches_last (listed List.mem_cons_self) absent
  | case3 names finished recipe need rest needed resolved named ih =>
    exact ih path (List.subset_of_cons_subset listed) spelled walked
  | case4 names finished recipe need rest needed resolved unnamed onPath =>
    cases walked
    subst spelled
    have edge : catalog.Needs recipe needed :=
      ⟨need, listed List.mem_cons_self, require_eq_ok_iff.mp resolved⟩
    exact path.fault_of_name_mem edge onPath
  | case5 names finished recipe need rest needed resolved unnamed notOnPath problem failed ih =>
    cases walked
    subst spelled
    have edge : catalog.Needs recipe needed :=
      ⟨need, listed List.mem_cons_self, require_eq_ok_iff.mp resolved⟩
    exact ih (path.append_one edge notOnPath) (List.Subset.refl _)
      (namesOf_append trail [needed]) failed
  | case6 names finished recipe need rest needed resolved unnamed notOnPath below _ _ ih =>
    exact ih path (List.subset_of_cons_subset listed) spelled walked

/-- A walk fails for a genuine reason only. -/
theorem fault_of_walk
    {failure : Failure}
    (member : recipe ∈ catalog.recipes)
    (walked : catalog.walk recipe = .error failure) :
    catalog.Fault recipe failure := by
  simp only [walk] at walked
  split at walked
  · rename_i problem failed
    cases walked
    exact fault_of_walkNeeds (.singleton member) (List.Subset.refl _) failed
  · cases walked

/-! ## What a fault says about the catalog -/

/-- What is linked to a recipe at the end of a chain is reached from its front. -/
theorem reachesAfresh_of_isChain
    {first last : Recipe}
    {rest : List Recipe}
    (linked : (first :: rest ++ [last]).IsChain catalog.Needs) :
    catalog.ReachesAfresh first last := by
  induction rest generalizing first with
  | nil => exact .single (List.isChain_pair.mp linked)
  | cons next rest ih =>
    rcases List.isChain_cons_cons.mp linked with ⟨edge, later⟩
    exact .head edge (ih later)

/-- A fault is a need that nothing has, or a recipe that reaches itself. -/
theorem Fault.unmet_or_cyclic
    {failure : Failure}
    (fault : catalog.Fault root failure) :
    (∃ user, catalog.Reaches root user ∧ ∃ need ∈ user.needs, need ∉ catalog.keys) ∨
      ∃ first, catalog.Reaches root first ∧ catalog.ReachesAfresh first first := by
  cases fault with
  | @unknown user need reached listed absent =>
    exact Or.inl ⟨user, reached, need, listed, (find?_eq_none_iff catalog need).mp absent⟩
  | @cyclic first rest reached linked simple =>
    exact Or.inr ⟨first, reached, reachesAfresh_of_isChain linked⟩

end Cookbook.Catalog
