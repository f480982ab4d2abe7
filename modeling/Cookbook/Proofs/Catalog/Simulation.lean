import Cookbook.Proofs.Catalog.Walk

/-!
# The search follows the walk

The search keeps its place on a stack, where the walk recurses.  All that the
search holds besides the stack and the finished recipes is determined by these
two, and every step keeps it so.  A frame that the search works off does what
a walk over the remaining needs of its recipe does.
-/

namespace Cookbook.Catalog

variable
    {catalog : Catalog}
    {recipe needed : Recipe}
    {ordered : List Recipe}
    {below : List Frame}
    {next : Nat}

/-! ## Searches in step with their stack -/

/-- The names of the recipes on a stack, the innermost first. -/
def stackNames (stack : List Frame) : List String :=
  namesOf (stack.map Frame.recipe)

@[simp]
theorem stackNames_nil :
    stackNames [] = [] :=
  rfl

@[simp]
theorem stackNames_cons
    (frame : Frame)
    (below : List Frame) :
    stackNames (frame :: below) = frame.recipe.name :: stackNames below :=
  rfl

/-- The search with a stack and finished recipes whose bookkeeping is in step with both. -/
def inStep (stack : List Frame) (ordered : List Recipe) : Search where
  stack := stack
  path := (stackNames stack).reverse
  onPath := stackNames stack
  done := (namesOf ordered).reverse
  ordered := ordered

@[simp]
theorem mem_done_inStep
    {stack : List Frame}
    {name : String} :
    name ∈ (inStep stack ordered).done ↔ name ∈ namesOf ordered :=
  List.mem_reverse

@[simp]
theorem mem_onPath_inStep
    {stack : List Frame}
    {name : String} :
    name ∈ (inStep stack ordered).onPath ↔ name ∈ (stackNames stack).reverse :=
  List.mem_reverse.symm

theorem start_eq_inStep
    (recipe : Recipe) :
    Search.start recipe = inStep [⟨recipe, 0⟩] [] :=
  rfl

theorem skip_inStep :
    (inStep (⟨recipe, next⟩ :: below) ordered).skip (⟨recipe, next + 1⟩ :: below) =
      inStep (⟨recipe, next + 1⟩ :: below) ordered :=
  rfl

theorem enter_inStep :
    (inStep (⟨recipe, next⟩ :: below) ordered).enter (⟨recipe, next + 1⟩ :: below) needed =
      inStep (⟨needed, 0⟩ :: ⟨recipe, next + 1⟩ :: below) ordered := by
  simp [inStep, Search.enter]

theorem leave_inStep
    (fresh : recipe.name ∉ stackNames below) :
    (inStep (⟨recipe, next⟩ :: below) ordered).leave below recipe =
      inStep below (ordered ++ [recipe]) := by
  have others : (stackNames below).filter (· != recipe.name) = stackNames below := by
    refine List.filter_eq_self.mpr fun name present => ?_
    have different : name ≠ recipe.name := fun same => fresh (same ▸ present)
    simpa using different
  simp [inStep, Search.leave, others]

/-! ## Running to the end -/

/-- A search ends as its first step says, or as the search that this step leads to. -/
theorem finish_eq
    (catalog : Catalog)
    (search : Search) :
    catalog.finish search =
      match catalog.advance search with
      | .finished plan => .ok plan
      | .failed failure => .error failure
      | .more next => catalog.finish next := by
  rw [finish]
  split
  · rename_i plan ended
    rw [ended]
  · rename_i failure ended
    rw [ended]
  · rename_i next moved
    rw [moved]

theorem finish_of_more
    {search later : Search}
    (moved : catalog.advance search = .more later) :
    catalog.finish search = catalog.finish later := by
  rw [finish_eq, moved]

theorem finish_of_failed
    {search : Search}
    {failure : Failure}
    (moved : catalog.advance search = .failed failure) :
    catalog.finish search = .error failure := by
  rw [finish_eq, moved]

theorem finish_inStep_nil :
    catalog.finish (inStep [] ordered) = .ok ordered := by
  have ended : catalog.advance (inStep [] ordered) = .finished ordered := rfl
  rw [finish_eq, ended]

/-! ## One step of the search -/

theorem advance_of_no_need
    (fresh : recipe.name ∉ stackNames below)
    (worked : recipe.needs.drop next = []) :
    catalog.advance (inStep (⟨recipe, next⟩ :: below) ordered) =
      .more (inStep below (ordered ++ [recipe])) := by
  have absent : recipe.needs[next]? = none :=
    List.getElem?_eq_none (List.drop_eq_nil_iff.mp worked)
  have left := @leave_inStep recipe ordered below next fresh
  rw [← left]
  simp [advance, inStep, absent]

theorem advance_of_need
    {need : String}
    {rest : List String}
    (waiting : recipe.needs.drop next = need :: rest) :
    catalog.advance (inStep (⟨recipe, next⟩ :: below) ordered) =
      catalog.visit (inStep (⟨recipe, next⟩ :: below) ordered)
        (⟨recipe, next + 1⟩ :: below) need recipe.name := by
  have present : recipe.needs[next]? = some need := by
    rw [← List.head?_drop, waiting]
    rfl
  simp [advance, inStep, present]

theorem drop_succ
    {need : String}
    {rest : List String}
    (waiting : recipe.needs.drop next = need :: rest) :
    recipe.needs.drop (next + 1) = rest := by
  rw [← List.tail_drop, waiting, List.tail_cons]

theorem advance_skip
    {need : String}
    {rest : List String}
    (waiting : recipe.needs.drop next = need :: rest)
    (resolved : catalog.require need (some recipe.name) = .ok needed)
    (named : needed.name ∈ namesOf ordered) :
    catalog.advance (inStep (⟨recipe, next⟩ :: below) ordered) =
      .more (inStep (⟨recipe, next + 1⟩ :: below) ordered) := by
  rw [advance_of_need waiting, ← skip_inStep]
  simp only [visit, resolved, mem_done_inStep]
  exact if_pos named

theorem advance_cycle
    {need : String}
    {rest : List String}
    (waiting : recipe.needs.drop next = need :: rest)
    (resolved : catalog.require need (some recipe.name) = .ok needed)
    (unnamed : needed.name ∉ namesOf ordered)
    (onPath : needed.name ∈ (stackNames (⟨recipe, next⟩ :: below)).reverse) :
    catalog.advance (inStep (⟨recipe, next⟩ :: below) ordered) =
      .failed (.cyclicNeeds
        ((stackNames (⟨recipe, next⟩ :: below)).reverse.dropWhile (· != needed.name) ++
          [needed.name])) := by
  rw [advance_of_need waiting]
  simp only [visit, resolved, mem_done_inStep, mem_onPath_inStep]
  rw [if_neg unnamed, if_pos onPath]
  rfl

theorem advance_enter
    {need : String}
    {rest : List String}
    (waiting : recipe.needs.drop next = need :: rest)
    (resolved : catalog.require need (some recipe.name) = .ok needed)
    (unnamed : needed.name ∉ namesOf ordered)
    (notOnPath : needed.name ∉ (stackNames (⟨recipe, next⟩ :: below)).reverse) :
    catalog.advance (inStep (⟨recipe, next⟩ :: below) ordered) =
      .more (inStep (⟨needed, 0⟩ :: ⟨recipe, next + 1⟩ :: below) ordered) := by
  rw [advance_of_need waiting, ← enter_inStep]
  simp only [visit, resolved, mem_done_inStep, mem_onPath_inStep]
  rw [if_neg unnamed, if_neg notOnPath]

/-- A stack without repetition stays so when a recipe is entered that is not on the path. -/
theorem nodup_stackNames_enter
    (distinct : (stackNames (⟨recipe, next⟩ :: below)).Nodup)
    (notOnPath : needed.name ∉ (stackNames (⟨recipe, next⟩ :: below)).reverse) :
    (stackNames (⟨needed, 0⟩ :: ⟨recipe, next + 1⟩ :: below)).Nodup :=
  List.nodup_cons.mpr ⟨fun present => notOnPath (List.mem_reverse.mpr present), distinct⟩

/-- The search works off a frame as the walk works off the needs that the frame waits for. -/
theorem finish_inStep_cons
    (distinct : (stackNames (⟨recipe, next⟩ :: below)).Nodup) :
    catalog.finish (inStep (⟨recipe, next⟩ :: below) ordered) =
      (catalog.walkNeeds (stackNames (⟨recipe, next⟩ :: below)).reverse ordered recipe
        (recipe.needs.drop next)).bind
        fun finished => catalog.finish (inStep below (finished ++ [recipe])) := by
  generalize spelled : (stackNames (⟨recipe, next⟩ :: below)).reverse = path
  generalize waiting : recipe.needs.drop next = needs
  fun_induction walkNeeds catalog path ordered recipe needs generalizing next below with
  | case1 =>
    exact finish_of_more (advance_of_no_need (List.nodup_cons.mp distinct).1 waiting)
  | case2 path ordered recipe need rest failure unresolved =>
    refine finish_of_failed ?_
    rw [advance_of_need waiting]
    simp [visit, unresolved]
  | case3 path ordered recipe need rest needed resolved named ih =>
    rw [finish_of_more (advance_skip waiting resolved named)]
    exact ih distinct spelled (drop_succ waiting)
  | case4 path ordered recipe need rest needed resolved unnamed onPath =>
    subst spelled
    exact finish_of_failed (advance_cycle waiting resolved unnamed onPath)
  | case5 path ordered recipe need rest needed resolved unnamed notOnPath failure failed ih =>
    subst spelled
    have wider := nodup_stackNames_enter distinct notOnPath
    rw [finish_of_more (advance_enter waiting resolved unnamed notOnPath),
      ih wider List.reverse_cons rfl, failed]
    rfl
  | case6 path ordered recipe need rest needed resolved unnamed notOnPath deeper walked
      ihNeeded ih =>
    subst spelled
    have wider := nodup_stackNames_enter distinct notOnPath
    rw [finish_of_more (advance_enter waiting resolved unnamed notOnPath),
      ihNeeded wider List.reverse_cons rfl, walked]
    exact ih distinct rfl (drop_succ waiting)

/-- The search that starts with a recipe ends as the walk from this recipe does. -/
theorem finish_start
    (catalog : Catalog)
    (recipe : Recipe) :
    catalog.finish (Search.start recipe) = catalog.walk recipe := by
  have distinct : (stackNames [⟨recipe, 0⟩]).Nodup := List.nodup_singleton _
  rw [start_eq_inStep, finish_inStep_cons distinct]
  simp only [walk, finish_inStep_nil]
  change (catalog.walkNeeds [recipe.name] [] recipe recipe.needs).bind _ = _
  cases catalog.walkNeeds [recipe.name] [] recipe recipe.needs <;> rfl

end Cookbook.Catalog
