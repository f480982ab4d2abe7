import Cookbook.Proofs.Catalog.Walk

/-!
# What a walk finishes

The recipes that a walk has finished are distinct, and each of them stands
behind everything it needs.  A walk over needs keeps this, covers the needs it
was given, adds nothing that they do not reach, and stays off the path.
-/

namespace Cookbook.Catalog

variable
    {catalog : Catalog}
    {path rest : List String}
    {need : String}
    {recipe needed : Recipe}
    {before below after : List Recipe}

/-! ## Lists of finished recipes -/

/-- Distinct recipes of the catalog, each of them behind all that it needs. -/
structure Finished (catalog : Catalog) (recipes : List Recipe) : Prop where
  members : ∀ recipe ∈ recipes, recipe ∈ catalog.recipes
  distinct : (namesOf recipes).Nodup
  ordered :
    ∀ front recipe back,
      recipes = front ++ recipe :: back →
        ∀ need ∈ recipe.needs, ∃ other ∈ front, catalog.find? need = some other

theorem Finished.nil :
    catalog.Finished [] where
  members := by simp
  distinct := by simp
  ordered := by
    intro front recipe back split
    simp at split

/-- A finished recipe is recognised by its name. -/
theorem Finished.mem_of_name_mem
    (finished : catalog.Finished before)
    (member : recipe ∈ catalog.recipes)
    (named : recipe.name ∈ namesOf before) :
    recipe ∈ before := by
  rcases mem_namesOf.mp named with ⟨other, present, same⟩
  have equal := eq_of_name_eq (finished.members other present) member same
  exact equal ▸ present

/-- A recipe may be finished once everything it needs is. -/
theorem Finished.append_one
    (finished : catalog.Finished before)
    (member : recipe ∈ catalog.recipes)
    (fresh : recipe.name ∉ namesOf before)
    (ready : ∀ need ∈ recipe.needs, ∃ other ∈ before, catalog.find? need = some other) :
    catalog.Finished (before ++ [recipe]) where
  members := by
    intro other present
    rcases List.mem_append.mp present with old | new
    · exact finished.members other old
    · rw [List.mem_singleton.mp new]
      exact member
  distinct := by
    rw [namesOf_append]
    exact List.nodup_append'.mpr
      ⟨finished.distinct, List.nodup_singleton _, List.disjoint_singleton.mpr fresh⟩
  ordered := by
    intro front other back split
    rcases List.eq_nil_or_concat back with rfl | ⟨shorter, last, rfl⟩
    · rcases List.append_inj' split rfl with ⟨rfl, sameLast⟩
      rw [← List.head_eq_of_cons_eq sameLast]
      exact ready
    · rw [List.concat_eq_append, ← List.cons_append, ← List.append_assoc] at split
      exact finished.ordered front other shorter (List.append_inj' split rfl).1

/-! ## What a walk over needs adds -/

/-- How the finished recipes grow when needs are visited below a path. -/
structure Growth (catalog : Catalog) (path needs : List String)
    (before after : List Recipe) : Prop where
  kept : before <+: after
  offPath : ∀ recipe ∈ after, recipe ∈ before ∨ recipe.name ∉ path
  reached :
    ∀ recipe ∈ after,
      recipe ∈ before ∨
        ∃ need ∈ needs, ∃ needed, catalog.find? need = some needed ∧
          catalog.Reaches needed recipe
  covered : ∀ need ∈ needs, ∃ needed ∈ after, catalog.find? need = some needed
  finished : catalog.Finished after

theorem Growth.nil
    (finished : catalog.Finished before) :
    catalog.Growth path [] before before where
  kept := List.prefix_rfl
  offPath := fun _ present => Or.inl present
  reached := fun _ present => Or.inl present
  covered := by simp
  finished := finished

/-- A need that is already finished is passed over. -/
theorem Growth.skip
    (found : catalog.find? need = some needed)
    (present : needed ∈ before)
    (growth : catalog.Growth path rest before after) :
    catalog.Growth path (need :: rest) before after where
  kept := growth.kept
  offPath := growth.offPath
  reached := by
    intro recipe member
    rcases growth.reached recipe member with old | ⟨later, listed, new⟩
    · exact Or.inl old
    · exact Or.inr ⟨later, List.mem_cons_of_mem need listed, new⟩
  covered := by
    intro asked listed
    rcases List.mem_cons.mp listed with rfl | later
    · exact ⟨needed, growth.kept.subset present, found⟩
    · exact growth.covered asked later
  finished := growth.finished

/-- What a need stands for is finished behind its own needs. -/
theorem Growth.finish
    (found : catalog.find? need = some needed)
    (notFinished : needed.name ∉ namesOf before)
    (notOnPath : needed.name ∉ path)
    (growth : catalog.Growth (path ++ [needed.name]) needed.needs before below) :
    catalog.Growth path [need] before (below ++ [needed]) where
  kept := growth.kept.trans (List.prefix_append below [needed])
  offPath := by
    intro recipe member
    rcases List.mem_append.mp member with deeper | last
    · rcases growth.offPath recipe deeper with old | new
      · exact Or.inl old
      · exact Or.inr fun onPath => new (List.mem_append_left _ onPath)
    · rw [List.mem_singleton.mp last]
      exact Or.inr notOnPath
  reached := by
    intro recipe member
    rcases List.mem_append.mp member with deeper | last
    · rcases growth.reached recipe deeper with old | ⟨asked, listed, inner, innerFound, steps⟩
      · exact Or.inl old
      · have edge : catalog.Needs needed inner := ⟨asked, listed, innerFound⟩
        exact Or.inr ⟨need, List.mem_singleton_self need, needed, found, steps.head edge⟩
    · rw [List.mem_singleton.mp last]
      exact Or.inr ⟨need, List.mem_singleton_self need, needed, found, .refl⟩
  covered := by
    intro asked listed
    rw [List.mem_singleton.mp listed]
    exact ⟨needed, List.mem_append_right below (List.mem_singleton_self needed), found⟩
  finished := by
    refine growth.finished.append_one (mem_of_find? found) ?_ growth.covered
    intro named
    -- the walk below stays off a path that ends in the recipe itself
    rcases mem_namesOf.mp named with ⟨other, member, same⟩
    rcases growth.offPath other member with old | new
    · exact notFinished (mem_namesOf.mpr ⟨other, old, same⟩)
    · exact new (same ▸ List.mem_append_right path (List.mem_singleton_self _))

theorem Growth.trans
    (first : catalog.Growth path [need] before below)
    (second : catalog.Growth path rest below after) :
    catalog.Growth path (need :: rest) before after where
  kept := first.kept.trans second.kept
  offPath := by
    intro recipe member
    rcases second.offPath recipe member with old | new
    · exact first.offPath recipe old
    · exact Or.inr new
  reached := by
    intro recipe member
    rcases second.reached recipe member with old | ⟨later, listed, new⟩
    · rcases first.reached recipe old with older | ⟨asked, listed, new⟩
      · exact Or.inl older
      · exact Or.inr ⟨asked, List.mem_cons.mpr (Or.inl (List.mem_singleton.mp listed)), new⟩
    · exact Or.inr ⟨later, List.mem_cons_of_mem need listed, new⟩
  covered := by
    intro asked listed
    rcases List.mem_cons.mp listed with rfl | later
    · rcases first.covered asked (List.mem_singleton_self asked) with ⟨found, member, holds⟩
      exact ⟨found, second.kept.subset member, holds⟩
    · exact second.covered asked later
  finished := second.finished

/-- A walk over needs that succeeds finishes these needs, and nothing that they do not reach. -/
theorem growth_of_walkNeeds
    (finished : catalog.Finished before)
    (walked : catalog.walkNeeds path before recipe rest = .ok after) :
    catalog.Growth path rest before after := by
  fun_induction walkNeeds catalog path before recipe rest generalizing after with
  | case1 =>
    cases walked
    exact .nil finished
  | case2 => cases walked
  | case3 path before recipe need rest needed resolved named ih =>
    have found := require_eq_ok_iff.mp resolved
    have present := finished.mem_of_name_mem (mem_of_find? found) named
    exact .skip found present (ih finished walked)
  | case4 => cases walked
  | case5 => cases walked
  | case6 path before recipe need rest needed resolved unnamed notOnPath below _ ihBelow ih =>
    have found := require_eq_ok_iff.mp resolved
    have first := Growth.finish found unnamed notOnPath (ihBelow finished ‹_›)
    exact first.trans (ih first.finished walked)

/-- A walk that succeeds finishes its recipe last. -/
theorem growth_of_walk
    (member : recipe ∈ catalog.recipes)
    (walked : catalog.walk recipe = .ok after) :
    catalog.Growth [] [recipe.name] [] after ∧ after.getLast? = some recipe := by
  simp only [walk] at walked
  split at walked
  · cases walked
  · rename_i below walkedBelow
    cases walked
    have growth := growth_of_walkNeeds .nil walkedBelow
    exact ⟨Growth.finish (find?_name member) List.not_mem_nil List.not_mem_nil growth,
      List.getLast?_concat⟩

/-! ## Finished recipes and reachability -/

/-- What a finished recipe needs stands in front of it. -/
theorem Finished.mem_front
    (finished : catalog.Finished after)
    {front back : List Recipe}
    (split : after = front ++ recipe :: back)
    (edge : catalog.Needs recipe needed) :
    needed ∈ front := by
  rcases edge with ⟨need, listed, found⟩
  rcases finished.ordered front recipe back split need listed with ⟨other, present, holds⟩
  rw [found] at holds
  exact Option.some.inj holds ▸ present

/-- What a finished recipe reaches in at least one step stands in front of it. -/
theorem Finished.mem_front_of_reachesAfresh
    (finished : catalog.Finished after)
    (steps : catalog.ReachesAfresh recipe needed)
    {front back : List Recipe}
    (split : after = front ++ recipe :: back) :
    needed ∈ front := by
  induction steps with
  | single edge => exact finished.mem_front split edge
  | @tail middle last _ edge ih =>
    rcases List.append_of_mem ih with ⟨farther, nearer, rfl⟩
    rw [List.append_assoc, List.cons_append] at split
    exact List.mem_append_left _ (finished.mem_front split edge)

/-- No finished recipe reaches itself. -/
theorem Finished.not_reachesAfresh_self
    (finished : catalog.Finished after)
    (present : recipe ∈ after) :
    ¬catalog.ReachesAfresh recipe recipe := by
  intro steps
  rcases List.append_of_mem present with ⟨front, back, split⟩
  have again := finished.mem_front_of_reachesAfresh steps split
  have distinct := finished.distinct
  rw [split, namesOf_append] at distinct
  exact (List.nodup_append'.mp distinct).2.2 (mem_namesOf.mpr ⟨recipe, again, rfl⟩)
    List.mem_cons_self

/-- Finished recipes are closed under needs. -/
theorem Finished.mem_of_reaches
    (finished : catalog.Finished after)
    (present : recipe ∈ after)
    (steps : catalog.Reaches recipe needed) :
    needed ∈ after := by
  induction steps with
  | refl => exact present
  | tail _ edge ih =>
    rcases List.append_of_mem ih with ⟨front, back, split⟩
    rw [split]
    exact List.mem_append_left _ (finished.mem_front split edge)

/-- A walk that succeeds finishes exactly what its recipe reaches. -/
theorem mem_iff_of_walk
    (member : recipe ∈ catalog.recipes)
    (walked : catalog.walk recipe = .ok after) :
    needed ∈ after ↔ catalog.Reaches recipe needed := by
  rcases growth_of_walk member walked with ⟨growth, ends⟩
  constructor
  · intro present
    rcases growth.reached needed present with nothing | ⟨name, asked, root, found, steps⟩
    · cases nothing
    · rw [List.mem_singleton.mp asked, find?_name member] at found
      exact Option.some.inj found ▸ steps
  · exact growth.finished.mem_of_reaches (List.mem_of_getLast? ends)

end Cookbook.Catalog
