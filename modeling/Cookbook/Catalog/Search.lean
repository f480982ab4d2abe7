import Cookbook.Catalog.Basic

/-!
# Ordering a recipe and its needs

The recipes that a target needs are put into an order in which each one comes
after its own needs.  The search keeps an explicit stack of half-finished
recipes, each with the position of the next need to look at, and moves by
single steps.  A step looks at one need or finishes the innermost recipe.

The search ends on every catalog, cyclic or not: a step that starts a recipe
takes it out of the untouched recipes for good, and every other step uses up a
need or a frame.
-/

namespace Cookbook

/-- A half-finished recipe with the position of its next need. -/
structure Frame where
  recipe : Recipe
  next : Nat

/-- How much is left to do in frames: the needs to look at, and leaving each of them. -/
def Frame.work : List Frame → Nat
  | [] => 0
  | frame :: below => frame.recipe.needs.length - frame.next + 1 + Frame.work below

/--
The state of the ordering: the stack, innermost frame first; the names on the
stack, outermost first; the same names as a set; the names that are finished;
and the finished recipes in order.
-/
structure Search where
  stack : List Frame
  path : List String
  onPath : List String
  done : List String
  ordered : List Recipe

/-- What one step leads to. -/
inductive Progress
  | more (search : Search)
  | finished (plan : List Recipe)
  | failed (failure : Failure)

namespace Search

def start (recipe : Recipe) : Search :=
  ⟨[⟨recipe, 0⟩], [recipe.name], [recipe.name], [], []⟩

/-- Moves the innermost frame on, after a need that is already finished. -/
def skip (search : Search) (waiting : List Frame) : Search :=
  { search with stack := waiting }

/-- Starts a recipe above the waiting frames. -/
def enter (search : Search) (waiting : List Frame) (recipe : Recipe) : Search :=
  { search with
    stack := ⟨recipe, 0⟩ :: waiting
    path := search.path ++ [recipe.name]
    onPath := recipe.name :: search.onPath }

/-- Finishes a recipe and goes back to the frames below it. -/
def leave (search : Search) (below : List Frame) (recipe : Recipe) : Search :=
  { stack := below
    path := search.path.dropLast
    onPath := search.onPath.filter (· != recipe.name)
    done := recipe.name :: search.done
    ordered := search.ordered ++ [recipe] }

/-- The cycle that a need closes: the path from its first occurrence on, and the need again. -/
def cycle (search : Search) (name : String) : List String :=
  search.path.dropWhile (· != name) ++ [name]

/-- Recipes that are neither finished nor on the stack. -/
def isUntouched (search : Search) (recipe : Recipe) : Bool :=
  !search.done.contains recipe.name && !search.onPath.contains recipe.name

theorem isUntouched_iff
    {search : Search}
    {recipe : Recipe} :
    search.isUntouched recipe = true ↔
      recipe.name ∉ search.done ∧ recipe.name ∉ search.onPath := by
  simp [isUntouched]

/-- A recipe that a search has not touched once another one is finished was untouched before. -/
theorem isUntouched_of_leave
    {search : Search}
    {below : List Frame}
    {recipe other : Recipe}
    (untouched : (search.leave below recipe).isUntouched other = true) :
    search.isUntouched other = true := by
  simp only [isUntouched_iff, leave, List.mem_cons, List.mem_filter, bne_iff_ne, ne_eq, not_or,
    not_and, Decidable.not_not] at untouched ⊢
  rcases untouched with ⟨⟨different, notDone⟩, notOnPath⟩
  exact ⟨notDone, fun onPath => different (notOnPath onPath)⟩

/-- The recipes that are untouched once a recipe is started are the others that were before. -/
theorem isUntouched_enter_iff
    {search : Search}
    {waiting : List Frame}
    {recipe other : Recipe} :
    (search.enter waiting recipe).isUntouched other = true ↔
      other.name ≠ recipe.name ∧ search.isUntouched other = true := by
  simp only [isUntouched_iff, enter, List.mem_cons, not_or]
  exact and_left_comm

end Search

namespace Catalog

/-- What a need of a recipe leads to, with the frames that wait for it. -/
def visit (catalog : Catalog) (search : Search) (waiting : List Frame)
    (need : String) (neededBy : String) : Progress :=
  match catalog.require need (some neededBy) with
  | .error failure => .failed failure
  | .ok recipe =>
    if recipe.name ∈ search.done then
      .more (search.skip waiting)
    else if recipe.name ∈ search.onPath then
      .failed (.cyclicNeeds (search.cycle recipe.name))
    else
      .more (search.enter waiting recipe)

/-- One step of the search. -/
def advance (catalog : Catalog) (search : Search) : Progress :=
  match search.stack with
  | [] => .finished search.ordered
  | frame :: below =>
    match frame.recipe.needs[frame.next]? with
    | none => .more (search.leave below frame.recipe)
    | some need =>
      catalog.visit search (⟨frame.recipe, frame.next + 1⟩ :: below) need frame.recipe.name

/-- The size of some recipes: one for each of them and one for each of their needs. -/
def size : List Recipe → Nat
  | [] => 0
  | recipe :: rest => recipe.needs.length + 1 + size rest

/-- How much is left to do: in the frames of the stack and in the untouched recipes. -/
def work (catalog : Catalog) (search : Search) : Nat :=
  Frame.work search.stack + size (catalog.recipes.filter search.isUntouched)

/-- A smaller selection has a smaller size. -/
theorem size_filter_le
    {small large : Recipe → Bool}
    (recipes : List Recipe)
    (below : ∀ recipe, small recipe = true → large recipe = true) :
    size (recipes.filter small) ≤ size (recipes.filter large) := by
  induction recipes with
  | nil => exact Nat.le_refl 0
  | cons recipe rest hypothesis =>
    by_cases inSmall : small recipe = true
    · rw [List.filter_cons_of_pos inSmall, List.filter_cons_of_pos (below recipe inSmall)]
      exact Nat.add_le_add_left hypothesis _
    · rw [List.filter_cons_of_neg inSmall]
      by_cases inLarge : large recipe = true
      · rw [List.filter_cons_of_pos inLarge]
        exact Nat.le_trans hypothesis (Nat.le_add_left _ _)
      · rw [List.filter_cons_of_neg inLarge]
        exact hypothesis

/-- A selection that loses a recipe loses the size of that recipe. -/
theorem size_filter_add_le
    {small large : Recipe → Bool}
    {recipes : List Recipe}
    {lost : Recipe}
    (below : ∀ recipe, small recipe = true → large recipe = true)
    (member : lost ∈ recipes)
    (inLarge : large lost = true)
    (notSmall : ¬small lost = true) :
    size (recipes.filter small) + (lost.needs.length + 1) ≤ size (recipes.filter large) := by
  induction recipes with
  | nil => cases member
  | cons recipe rest hypothesis =>
    rcases List.mem_cons.mp member with rfl | later
    · rw [List.filter_cons_of_neg notSmall, List.filter_cons_of_pos inLarge, Nat.add_comm]
      exact Nat.add_le_add_left (size_filter_le rest below) _
    · by_cases inSmall : small recipe = true
      · rw [List.filter_cons_of_pos inSmall, List.filter_cons_of_pos (below recipe inSmall),
          size, size, Nat.add_assoc]
        exact Nat.add_le_add_left (hypothesis later) _
      · rw [List.filter_cons_of_neg inSmall]
        by_cases inLargeToo : large recipe = true
        · rw [List.filter_cons_of_pos inLargeToo]
          exact Nat.le_trans (hypothesis later) (Nat.le_add_left _ _)
        · rw [List.filter_cons_of_neg inLargeToo]
          exact hypothesis later

/-- A recipe that a key is resolved to belongs to the catalog. -/
theorem mem_of_require
    {catalog : Catalog}
    {key : String}
    {neededBy : Option String}
    {recipe : Recipe}
    (resolved : catalog.require key neededBy = .ok recipe) :
    recipe ∈ catalog.recipes := by
  unfold require at resolved
  split at resolved
  · rename_i other found
    cases resolved
    exact mem_of_find? found
  · cases resolved

/-- Finishing a recipe leaves less to do. -/
theorem work_leave_lt
    (catalog : Catalog)
    {search : Search}
    {frame : Frame}
    {below : List Frame}
    (stacked : search.stack = frame :: below) :
    catalog.work (search.leave below frame.recipe) < catalog.work search := by
  have smaller :
      size (catalog.recipes.filter (search.leave below frame.recipe).isUntouched) ≤
        size (catalog.recipes.filter search.isUntouched) :=
    size_filter_le catalog.recipes fun _ => Search.isUntouched_of_leave
  unfold work
  rw [stacked, Frame.work]
  simp only [Search.leave] at smaller ⊢
  omega

/-- Passing over a finished need leaves less to do. -/
theorem work_skip_lt
    (catalog : Catalog)
    {search : Search}
    {frame : Frame}
    {below : List Frame}
    (stacked : search.stack = frame :: below)
    (inRange : frame.next < frame.recipe.needs.length) :
    catalog.work (search.skip (⟨frame.recipe, frame.next + 1⟩ :: below)) <
      catalog.work search := by
  have same :
      (search.skip (⟨frame.recipe, frame.next + 1⟩ :: below)).isUntouched =
        search.isUntouched := rfl
  unfold work
  rw [same, stacked]
  simp only [Search.skip, Frame.work]
  omega

/-- Starting an untouched recipe leaves less to do. -/
theorem work_enter_lt
    {catalog : Catalog}
    {search : Search}
    {frame : Frame}
    {below : List Frame}
    {recipe : Recipe}
    (stacked : search.stack = frame :: below)
    (inRange : frame.next < frame.recipe.needs.length)
    (member : recipe ∈ catalog.recipes)
    (untouched : search.isUntouched recipe = true) :
    catalog.work (search.enter (⟨frame.recipe, frame.next + 1⟩ :: below) recipe) <
      catalog.work search := by
  have fewer : ∀ other,
      (search.enter (⟨frame.recipe, frame.next + 1⟩ :: below) recipe).isUntouched other =
          true →
        search.isUntouched other = true :=
    fun _ still => (Search.isUntouched_enter_iff.mp still).2
  have touched :
      ¬(search.enter (⟨frame.recipe, frame.next + 1⟩ :: below) recipe).isUntouched recipe =
        true :=
    fun still => (Search.isUntouched_enter_iff.mp still).1 rfl
  have smaller := size_filter_add_le fewer member untouched touched
  unfold work
  rw [stacked]
  simp only [Search.enter, Frame.work] at smaller ⊢
  omega

/--
What a step makes of a search that it does not end.  A need of the innermost
recipe is passed over if it is finished and started if it is untouched, and
when no need is left, the recipe is finished.
-/
inductive Moves (catalog : Catalog) (search : Search) : Search → Prop
  | skip {frame : Frame} {below : List Frame} {need : String} {needed : Recipe}
      (stacked : search.stack = frame :: below)
      (listed : frame.recipe.needs[frame.next]? = some need)
      (resolved : catalog.require need (some frame.recipe.name) = .ok needed)
      (finished : needed.name ∈ search.done) :
      Moves catalog search (search.skip (⟨frame.recipe, frame.next + 1⟩ :: below))
  | enter {frame : Frame} {below : List Frame} {need : String} {needed : Recipe}
      (stacked : search.stack = frame :: below)
      (listed : frame.recipe.needs[frame.next]? = some need)
      (resolved : catalog.require need (some frame.recipe.name) = .ok needed)
      (untouched : search.isUntouched needed = true) :
      Moves catalog search (search.enter (⟨frame.recipe, frame.next + 1⟩ :: below) needed)
  | leave {frame : Frame} {below : List Frame}
      (stacked : search.stack = frame :: below)
      (worked : frame.recipe.needs[frame.next]? = none) :
      Moves catalog search (search.leave below frame.recipe)

theorem moves_of_advance
    {catalog : Catalog}
    {search next : Search}
    (moved : catalog.advance search = .more next) :
    catalog.Moves search next := by
  unfold advance at moved
  split at moved
  · cases moved
  · rename_i frame below stacked
    split at moved
    · rename_i worked
      cases moved
      exact .leave stacked worked
    · rename_i need listed
      unfold visit at moved
      split at moved
      · cases moved
      · rename_i needed resolved
        split at moved
        · rename_i finished
          cases moved
          exact .skip stacked listed resolved finished
        · rename_i notDone
          split at moved
          · cases moved
          · rename_i notOnPath
            cases moved
            exact .enter stacked listed resolved
              (Search.isUntouched_iff.mpr ⟨notDone, notOnPath⟩)

/-- Every step that does not end the search leaves less to do. -/
theorem work_lt_of_advance
    {catalog : Catalog}
    {search next : Search}
    (moved : catalog.advance search = .more next) :
    catalog.work next < catalog.work search := by
  cases moves_of_advance moved with
  | skip stacked listed =>
    exact work_skip_lt catalog stacked (List.getElem?_eq_some_iff.mp listed).1
  | enter stacked listed resolved untouched =>
    exact work_enter_lt stacked (List.getElem?_eq_some_iff.mp listed).1
      (mem_of_require resolved) untouched
  | leave stacked _ => exact work_leave_lt catalog stacked

/-- Runs a search to its end. -/
def finish (catalog : Catalog) (search : Search) : Except Failure (List Recipe) :=
  match _moved : catalog.advance search with
  | .finished plan => .ok plan
  | .failed failure => .error failure
  | .more next => catalog.finish next
termination_by catalog.work search
decreasing_by exact work_lt_of_advance _moved

/-- The recipes a target needs, each after its own needs, with the target's recipe last. -/
def plan (catalog : Catalog) (target : String) : Except Failure (List Recipe) :=
  match catalog.require target none with
  | .error failure => .error failure
  | .ok recipe => catalog.finish (Search.start recipe)

/-- Plans every name that no earlier plan holds. -/
def checkNeedsFrom (catalog : Catalog) (checked : List String) :
    List String → Except Failure Unit
  | [] => .ok ()
  | name :: rest =>
    if name ∈ checked then
      catalog.checkNeedsFrom checked rest
    else
      match catalog.plan name with
      | .error failure => .error failure
      | .ok planned => catalog.checkNeedsFrom (checked ++ planned.map Recipe.name) rest

/-- Whether every recipe of the catalog can be planned; the first failure if not. -/
def checkNeeds (catalog : Catalog) : Except Failure Unit :=
  catalog.checkNeedsFrom [] catalog.names

end Catalog

end Cookbook
