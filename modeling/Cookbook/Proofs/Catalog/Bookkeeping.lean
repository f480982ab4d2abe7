import Cookbook.Proofs.Catalog.Plan

/-!
# The bookkeeping of the search

A search keeps the names on its stack as a path and as a set, and the finished
recipes as a list and as a set.  Whenever a step begins, these are in step with
the stack and with each other, no recipe is both on the stack and finished, and
the needs that a frame is past are finished, save that a frame below another
one waits for the recipe above it.

The search ends on every catalog.  It takes at most one step for each recipe
and for each of the needs, as a recipe that was started stays on the stack or
among the finished recipes and is not started again.
-/

namespace Cookbook

/-- The recipes by which a stack is higher than a given height, the innermost first. -/
def Search.risenAbove (search : Search) (height : Nat) : List Recipe :=
  (search.stack.take (search.stack.length - height)).map Frame.recipe

namespace Catalog

variable
    {catalog : Catalog}
    {search next : Search}
    {later : List Search}
    {outcome : Except Failure (List Recipe)}
    {done wider : List String}
    {frame : Frame}
    {below : List Frame}
    {recipe needed : Recipe}
    {position : Nat}
    {need : String}

/-! ## What a frame is past -/

/-- A need stands for a recipe that has one of some names. -/
def MetBy (catalog : Catalog) (names : List String) (need : String) : Prop :=
  ∃ recipe, catalog.find? need = some recipe ∧ recipe.name ∈ names

/-- All needs that a frame is past are finished. -/
structure CaughtUp (catalog : Catalog) (done : List String) (frame : Frame) : Prop where
  inRange : frame.next ≤ frame.recipe.needs.length
  met : ∀ need ∈ frame.recipe.needs.take frame.next, catalog.MetBy done need

/-- The last need that a frame is past stands for a recipe, and those before it are finished. -/
def WaitsFor (catalog : Catalog) (done : List String) (needed : Recipe) (frame : Frame) : Prop :=
  ∃ position need,
    frame.next = position + 1 ∧
      frame.recipe.needs[position]? = some need ∧
        catalog.find? need = some needed ∧
          catalog.CaughtUp done ⟨frame.recipe, position⟩

theorem MetBy.mono
    (included : done ⊆ wider)
    (met : catalog.MetBy done need) :
    catalog.MetBy wider need := by
  rcases met with ⟨recipe, found, finished⟩
  exact ⟨recipe, found, included finished⟩

theorem CaughtUp.mono
    (included : done ⊆ wider)
    (caughtUp : catalog.CaughtUp done frame) :
    catalog.CaughtUp wider frame where
  inRange := caughtUp.inRange
  met := fun need past => (caughtUp.met need past).mono included

theorem WaitsFor.mono
    (included : done ⊆ wider)
    (waits : catalog.WaitsFor done needed frame) :
    catalog.WaitsFor wider needed frame := by
  rcases waits with ⟨position, need, moved, listed, found, caughtUp⟩
  exact ⟨position, need, moved, listed, found, caughtUp.mono included⟩

theorem caughtUp_zero :
    catalog.CaughtUp done ⟨recipe, 0⟩ where
  inRange := Nat.zero_le _
  met := by simp

/-- A frame may move past a finished need. -/
theorem CaughtUp.succ
    (caughtUp : catalog.CaughtUp done ⟨recipe, position⟩)
    (listed : recipe.needs[position]? = some need)
    (met : catalog.MetBy done need) :
    catalog.CaughtUp done ⟨recipe, position + 1⟩ where
  inRange := (List.getElem?_eq_some_iff.mp listed).1
  met := by
    intro other past
    rw [List.take_add_one, listed, Option.toList_some] at past
    rcases List.mem_append.mp past with earlier | last
    · exact caughtUp.met other earlier
    · rw [List.mem_singleton.mp last]
      exact met

/-- A frame that has caught up and has no need left is past all its needs. -/
theorem CaughtUp.met_of_worked
    (caughtUp : catalog.CaughtUp done frame)
    (worked : frame.recipe.needs[frame.next]? = none) :
    ∀ need ∈ frame.recipe.needs, catalog.MetBy done need := by
  have all := caughtUp.met
  rw [List.take_of_length_le (List.getElem?_eq_none_iff.mp worked)] at all
  exact all

/-- A frame that waited for a recipe has caught up once this recipe is finished. -/
theorem WaitsFor.caughtUp
    (waits : catalog.WaitsFor done needed frame) :
    catalog.CaughtUp (needed.name :: done) frame := by
  rcases waits with ⟨position, need, moved, listed, found, caughtUp⟩
  have met : catalog.MetBy (needed.name :: done) need := ⟨needed, found, List.mem_cons_self⟩
  have reached := (caughtUp.mono (List.subset_cons_self needed.name done)).succ listed met
  rw [← moved] at reached
  exact reached

/-! ## What holds whenever a step begins -/

/--
The bookkeeping of a search when a step begins.  The path spells the names on
the stack, outermost first and without repetition.  The sets hold the names on
the path and those of the finished recipes, which have none in common.  The
innermost frame is past finished needs only, and every other frame waits for
the recipe above it.
-/
structure WellKept (catalog : Catalog) (search : Search) : Prop where
  members : ∀ frame ∈ search.stack, frame.recipe ∈ catalog.recipes
  path : search.path = (stackNames search.stack).reverse
  onPath : ∀ name, name ∈ search.onPath ↔ name ∈ search.path
  done : ∀ name, name ∈ search.done ↔ name ∈ namesOf search.ordered
  simple : search.path.Nodup
  apart : search.path.Disjoint (namesOf search.ordered)
  finished : catalog.Finished search.ordered
  innermost : ∀ frame ∈ search.stack.head?, catalog.CaughtUp search.done frame
  waiting :
    search.stack.IsChain fun inner frame => catalog.WaitsFor search.done inner.recipe frame

theorem wellKept_start
    (member : recipe ∈ catalog.recipes) :
    catalog.WellKept (Search.start recipe) where
  members := by simpa [Search.start] using member
  path := rfl
  onPath := fun _ => Iff.rfl
  done := fun _ => Iff.rfl
  simple := List.nodup_singleton _
  apart := List.disjoint_nil_right _
  finished := .nil
  innermost := by simpa [Search.start] using caughtUp_zero
  waiting := List.isChain_singleton _

/-- What is kept of the innermost frame and of those below it. -/
theorem WellKept.uncons
    (kept : catalog.WellKept search)
    (stacked : search.stack = frame :: below) :
    (frame.recipe ∈ catalog.recipes ∧ ∀ outer ∈ below, outer.recipe ∈ catalog.recipes) ∧
      search.path = (stackNames below).reverse ++ [frame.recipe.name] ∧
      catalog.CaughtUp search.done frame ∧
      (∀ outer ∈ below.head?, catalog.WaitsFor search.done frame.recipe outer) ∧
      below.IsChain fun inner frame => catalog.WaitsFor search.done inner.recipe frame := by
  have members := kept.members
  have path := kept.path
  have waiting := kept.waiting
  rw [stacked] at members path waiting
  rw [stackNames_cons, List.reverse_cons] at path
  have caughtUp := kept.innermost frame (by rw [stacked]; rfl)
  exact ⟨List.forall_mem_cons.mp members, path, caughtUp, List.isChain_cons.mp waiting⟩

/-- A need that is met is met by a finished recipe. -/
theorem WellKept.exists_finished
    (kept : catalog.WellKept search)
    (met : catalog.MetBy search.done need) :
    ∃ other ∈ search.ordered, catalog.find? need = some other := by
  rcases met with ⟨other, found, named⟩
  have present := (kept.done other.name).mp named
  exact ⟨other, kept.finished.mem_of_name_mem (mem_of_find? found) present, found⟩

/-! ## What a step keeps -/

theorem WellKept.skip
    (kept : catalog.WellKept search)
    (stacked : search.stack = frame :: below)
    (listed : frame.recipe.needs[frame.next]? = some need)
    (found : catalog.find? need = some needed)
    (finished : needed.name ∈ search.done) :
    catalog.WellKept (search.skip (⟨frame.recipe, frame.next + 1⟩ :: below)) := by
  rcases kept.uncons stacked with ⟨members, spelled, caughtUp, first, rest⟩
  exact {
    members := List.forall_mem_cons.mpr members
    path := spelled.trans List.reverse_cons.symm
    onPath := kept.onPath
    done := kept.done
    simple := kept.simple
    apart := kept.apart
    finished := kept.finished
    innermost := by
      rintro _ ⟨⟩
      exact caughtUp.succ listed ⟨needed, found, finished⟩
    waiting := List.isChain_cons.mpr ⟨first, rest⟩ }

theorem WellKept.enter
    (kept : catalog.WellKept search)
    (stacked : search.stack = frame :: below)
    (listed : frame.recipe.needs[frame.next]? = some need)
    (found : catalog.find? need = some needed)
    (untouched : search.isUntouched needed = true) :
    catalog.WellKept (search.enter (⟨frame.recipe, frame.next + 1⟩ :: below) needed) := by
  rcases kept.uncons stacked with ⟨members, spelled, caughtUp, first, rest⟩
  rcases Search.isUntouched_iff.mp untouched with ⟨notDone, notOnPath⟩
  rw [kept.done] at notDone
  rw [kept.onPath] at notOnPath
  have waits : catalog.WaitsFor search.done needed ⟨frame.recipe, frame.next + 1⟩ :=
    ⟨frame.next, need, rfl, listed, found, caughtUp⟩
  exact {
    members := List.forall_mem_cons.mpr ⟨mem_of_find? found, List.forall_mem_cons.mpr members⟩
    path := by simp [Search.enter, spelled]
    onPath := by
      intro name
      simp [Search.enter, kept.onPath name, or_comm]
    done := kept.done
    simple := List.nodup_append'.mpr
      ⟨kept.simple, List.nodup_singleton _, List.disjoint_singleton.mpr notOnPath⟩
    apart := List.disjoint_append_left.mpr ⟨kept.apart, List.singleton_disjoint.mpr notDone⟩
    finished := kept.finished
    innermost := by
      rintro _ ⟨⟩
      exact caughtUp_zero
    waiting := List.isChain_cons_cons.mpr ⟨waits, List.isChain_cons.mpr ⟨first, rest⟩⟩ }

theorem WellKept.leave
    (kept : catalog.WellKept search)
    (stacked : search.stack = frame :: below)
    (worked : frame.recipe.needs[frame.next]? = none) :
    catalog.WellKept (search.leave below frame.recipe) := by
  rcases kept.uncons stacked with ⟨⟨member, others⟩, spelled, caughtUp, first, rest⟩
  -- the frames below have the path without the name that is finished
  have shorter : search.path.dropLast = (stackNames below).reverse := by
    rw [spelled, List.dropLast_concat]
  rw [← shorter] at spelled
  have simple := kept.simple
  have apart := kept.apart
  rw [spelled] at simple apart
  rcases List.nodup_append'.mp simple with ⟨simpleBelow, _, once⟩
  rcases List.disjoint_append_left.mp apart with ⟨apartBelow, fresh⟩
  have ready : ∀ need ∈ frame.recipe.needs,
      ∃ other ∈ search.ordered, catalog.find? need = some other :=
    fun need listed => kept.exists_finished (caughtUp.met_of_worked worked need listed)
  exact {
    members := others
    path := shorter
    onPath := by
      intro name
      have named := kept.onPath name
      rw [spelled, List.mem_append, List.mem_singleton] at named
      rw [Search.leave, List.mem_filter, named, bne_iff_ne]
      constructor
      · rintro ⟨present | last, different⟩
        · exact present
        · exact absurd last different
      · intro present
        exact ⟨Or.inl present, fun same => List.disjoint_singleton.mp once (same ▸ present)⟩
    done := by
      intro name
      simp [Search.leave, kept.done name, or_comm]
    simple := simpleBelow
    apart := by
      rw [Search.leave, namesOf_append]
      exact List.disjoint_append_right.mpr ⟨apartBelow, once⟩
    finished := kept.finished.append_one member (List.singleton_disjoint.mp fresh) ready
    innermost := fun outer outermost => (first outer outermost).caughtUp
    waiting := rest.imp fun _ _ waits => waits.mono (List.subset_cons_self _ _) }

/-- A step leaves a search as well kept as it was. -/
theorem WellKept.of_advance
    (kept : catalog.WellKept search)
    (moved : catalog.advance search = .more next) :
    catalog.WellKept next := by
  cases moves_of_advance moved with
  | skip stacked listed resolved finished =>
    exact kept.skip stacked listed (require_eq_ok_iff.mp resolved) finished
  | enter stacked listed resolved untouched =>
    exact kept.enter stacked listed (require_eq_ok_iff.mp resolved) untouched
  | leave stacked worked => exact kept.leave stacked worked

/-! ## From the first search to the last -/

/-- The searches that come after a search, step by step, and what the last of them leads to. -/
inductive Unrolled (catalog : Catalog) :
    Search → List Search → Except Failure (List Recipe) → Prop
  | finished {search : Search} {plan : List Recipe}
      (ended : catalog.advance search = .finished plan) :
      Unrolled catalog search [] (.ok plan)
  | failed {search : Search} {failure : Failure}
      (ended : catalog.advance search = .failed failure) :
      Unrolled catalog search [] (.error failure)
  | more {search next : Search} {later : List Search}
      {outcome : Except Failure (List Recipe)}
      (moved : catalog.advance search = .more next)
      (rest : Unrolled catalog next later outcome) :
      Unrolled catalog search (next :: later) outcome

/-- Every search comes to an end, which is the outcome of running it. -/
theorem exists_unrolled
    (catalog : Catalog)
    (search : Search) :
    ∃ later, catalog.Unrolled search later (catalog.finish search) := by
  fun_induction finish catalog search with
  | case1 search plan ended => exact ⟨[], .finished ended⟩
  | case2 search failure ended => exact ⟨[], .failed ended⟩
  | case3 search next moved ih =>
    rcases ih with ⟨later, rest⟩
    exact ⟨next :: later, .more moved rest⟩

/-- A search takes no more steps than there is to do. -/
theorem Unrolled.length_le
    (unrolled : catalog.Unrolled search later outcome) :
    later.length ≤ catalog.work search := by
  induction unrolled with
  | finished ended => exact Nat.zero_le _
  | failed ended => exact Nat.zero_le _
  | more moved _ ih => exact Nat.succ_le_of_lt (Nat.lt_of_le_of_lt ih (work_lt_of_advance moved))

theorem Unrolled.wellKept
    (unrolled : catalog.Unrolled search later outcome)
    (kept : catalog.WellKept search) :
    ∀ reached ∈ search :: later, catalog.WellKept reached := by
  induction unrolled with
  | finished ended => exact List.forall_mem_singleton.mpr kept
  | failed ended => exact List.forall_mem_singleton.mpr kept
  | more moved _ ih => exact List.forall_mem_cons.mpr ⟨kept, ih (kept.of_advance moved)⟩

/-! ## What is started on the way -/

/-- The recipes that are put on a stack of some height from search to search. -/
def startedFrom (height : Nat) : List Search → List Recipe
  | [] => []
  | search :: later => search.risenAbove height ++ startedFrom search.stack.length later

/-- A step starts nothing, or one recipe that is untouched before it and touched after it. -/
theorem Moves.risen
    (moves : catalog.Moves search next) :
    next.risenAbove search.stack.length = [] ∧
        (∀ other, next.isUntouched other = true → search.isUntouched other = true) ∨
      ∃ needed,
        next.risenAbove search.stack.length = [needed] ∧
          search.isUntouched needed = true ∧
            ∀ other, next.isUntouched other = true →
              other.name ≠ needed.name ∧ search.isUntouched other = true := by
  cases moves with
  | skip stacked =>
    left
    refine ⟨?_, fun other untouched => untouched⟩
    simp [Search.risenAbove, Search.skip, stacked]
  | @enter frame below need needed stacked _ _ untouched =>
    right
    refine ⟨needed, ?_, untouched, fun other => Search.isUntouched_enter_iff.mp⟩
    simp [Search.risenAbove, Search.enter, stacked]
  | leave stacked =>
    left
    refine ⟨?_, fun other => Search.isUntouched_of_leave⟩
    simp [Search.risenAbove, Search.leave, stacked]

/-- No recipe is started twice, nor is one that a search has touched before. -/
theorem Unrolled.started_once
    (unrolled : catalog.Unrolled search later outcome) :
    (namesOf (startedFrom search.stack.length later)).Nodup ∧
      ∀ recipe ∈ startedFrom search.stack.length later, search.isUntouched recipe = true := by
  induction unrolled with
  | finished ended => simp [startedFrom]
  | failed ended => simp [startedFrom]
  | more moved _ ih =>
    rcases ih with ⟨once, untouched⟩
    rw [startedFrom]
    rcases (moves_of_advance moved).risen with ⟨nothing, before⟩ | ⟨needed, one, fresh, before⟩
    · rw [nothing, List.nil_append]
      exact ⟨once, fun recipe started => before recipe (untouched recipe started)⟩
    · rw [one, List.singleton_append, namesOf_cons]
      constructor
      · refine List.nodup_cons.mpr ⟨?_, once⟩
        intro again
        -- what is started later is untouched after this step, and so is none of what it starts
        rcases mem_namesOf.mp again with ⟨recipe, started, same⟩
        exact (before recipe (untouched recipe started)).1 same
      · refine List.forall_mem_cons.mpr ⟨fresh, ?_⟩
        intro recipe started
        exact (before recipe (untouched recipe started)).2

theorem startedFrom_start
    (recipe : Recipe)
    (later : List Search) :
    startedFrom 0 (Search.start recipe :: later) =
      recipe :: startedFrom (Search.start recipe).stack.length later :=
  rfl

theorem Unrolled.nodup_started
    (unrolled : catalog.Unrolled (Search.start recipe) later outcome) :
    (namesOf (startedFrom 0 (Search.start recipe :: later))).Nodup := by
  rcases unrolled.started_once with ⟨once, untouched⟩
  rw [startedFrom_start, namesOf_cons]
  refine List.nodup_cons.mpr ⟨?_, once⟩
  intro again
  rcases mem_namesOf.mp again with ⟨other, started, same⟩
  have notOnPath := (Search.isUntouched_iff.mp (untouched other started)).2
  exact notOnPath (List.mem_singleton.mpr same)

/-- What a search has to do at first is bounded by the size of its catalog. -/
theorem work_start_le
    (member : recipe ∈ catalog.recipes) :
    catalog.work (Search.start recipe) ≤ size catalog.recipes := by
  have touched : ¬(Search.start recipe).isUntouched recipe = true := by
    simp [Search.isUntouched_iff, Search.start]
  have smaller :
      size (catalog.recipes.filter (Search.start recipe).isUntouched) +
          (recipe.needs.length + 1) ≤
        size (catalog.recipes.filter fun _ => true) :=
    size_filter_add_le (fun _ _ => rfl) member rfl touched
  rw [List.filter_true] at smaller
  rw [work, Nat.add_comm]
  exact smaller

/--
The search for a target ends, or does not begin because the target is no key.
It takes at most one step for each recipe and for each of the needs, it starts
no recipe twice, and it is well kept whenever a step begins.
-/
theorem search_ends_well_kept
    (catalog : Catalog)
    (target : String) :
    catalog.find? target = none ∧
        catalog.plan target = .error (.unknownRecipe target catalog.names none) ∨
      ∃ root later,
        catalog.find? target = some root ∧
          catalog.Unrolled (Search.start root) later (catalog.plan target) ∧
          later.length ≤ size catalog.recipes ∧
          (namesOf (startedFrom 0 (Search.start root :: later))).Nodup ∧
          ∀ search ∈ Search.start root :: later, catalog.WellKept search := by
  cases found : catalog.find? target with
  | none => exact Or.inl ⟨rfl, plan_of_absent found⟩
  | some root =>
    have member := mem_of_find? found
    rcases exists_unrolled catalog (Search.start root) with ⟨later, unrolled⟩
    have short := unrolled.length_le.trans (work_start_le member)
    have once := unrolled.nodup_started
    have kept := unrolled.wellKept (wellKept_start member)
    rw [plan_eq_finish found]
    exact Or.inr ⟨root, later, rfl, unrolled, short, once, kept⟩

end Catalog

end Cookbook
