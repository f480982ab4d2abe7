import Cookbook.Proofs.Catalog.Graph
import Cookbook.Proofs.Catalog.Insert

/-!
# Offering recipes

Recipes are offered to a graph one after the other.  An offer is accepted
exactly if the keys of the recipe are free, and it is refused for the first key
that is not.  A refused offer does not end the offers and leaves nothing behind
in either table, so a graph tells only of the recipes that it accepted.
-/

namespace Cookbook

namespace Catalog

variable
    {catalog extended : Catalog}
    {recipe : Recipe}
    {name key holder : String}
    {claimed candidates : List String}
    {failure : Failure}

/-! ## Free keys -/

/-- Distinct keys of which some recipes hold none. -/
structure Free (held : List Recipe) (keys : List String) : Prop where
  distinct : keys.Nodup
  unheld : ∀ key ∈ keys, ∀ other ∈ held, key ∉ other.keys

/--
The first key of a recipe that is not free beside other recipes, its name
before its aliases, with the name of the recipe that holds it.  A key that the
recipe has twice is held by the recipe itself.
-/
inductive Clash (held : List Recipe) (recipe : Recipe) : String → String → Prop
  | taken {front back : List String} {key : String} {holder : Recipe}
      (split : recipe.keys = front ++ key :: back)
      (free : Free held front)
      (member : holder ∈ held)
      (holds : key ∈ holder.keys) :
      Clash held recipe key holder.name
  | repeated {front back : List String} {key : String}
      (split : recipe.keys = front ++ key :: back)
      (free : Free held front)
      (unheld : ∀ other ∈ held, key ∉ other.keys)
      (again : key ∈ front) :
      Clash held recipe key recipe.name

theorem not_mem_keys_iff :
    key ∉ catalog.keys ↔ ∀ other ∈ catalog.recipes, key ∉ other.keys := by
  simp [keys]

theorem free_iff :
    Free catalog.recipes candidates ↔ catalog.firstTaken name [] candidates = none := by
  rw [firstTaken_eq_none_iff]
  constructor
  · intro free
    exact ⟨free.distinct, fun key member =>
      ⟨not_mem_keys_iff.mpr (free.unheld key member), List.not_mem_nil⟩⟩
  · rintro ⟨distinct, fresh⟩
    exact ⟨distinct, fun key member => not_mem_keys_iff.mp (fresh key member).1⟩

/-! ## The first key that is taken -/

/-- A key that may not be claimed behind other keys, with the name of its holder. -/
def Unclaimable (catalog : Catalog) (name : String) (claimed : List String)
    (key holder : String) : Prop :=
  (∃ found, catalog.find? key = some found ∧ found.name = holder) ∨
    catalog.find? key = none ∧ key ∈ claimed ∧ name = holder

theorem firstTaken_cons_of_fresh
    (unknown : catalog.find? key = none)
    (unclaimed : key ∉ claimed) :
    catalog.firstTaken name claimed (key :: candidates) =
      catalog.firstTaken name (key :: claimed) candidates := by
  rw [firstTaken, unknown]
  exact if_neg unclaimed

/-- Of keys behind a key that is not free, the key itself is the first. -/
theorem firstTaken_cons_of_unclaimable
    (unclaimable : catalog.Unclaimable name claimed key holder) :
    catalog.firstTaken name claimed (key :: candidates) = some (key, holder) := by
  rw [firstTaken]
  rcases unclaimable with ⟨found, known, rfl⟩ | ⟨unknown, again, rfl⟩
  · rw [known]
  · rw [unknown]
    exact if_pos again

theorem unclaimable_or_fresh
    (catalog : Catalog)
    (name : String)
    (claimed : List String)
    (key : String) :
    (∃ holder, catalog.Unclaimable name claimed key holder) ∨
      catalog.find? key = none ∧ key ∉ claimed := by
  cases known : catalog.find? key with
  | some found => exact Or.inl ⟨found.name, Or.inl ⟨found, known, rfl⟩⟩
  | none =>
    by_cases again : key ∈ claimed
    · exact Or.inl ⟨name, Or.inr ⟨known, again, rfl⟩⟩
    · exact Or.inr ⟨rfl, again⟩

/-- Keys of which none is taken are passed over, and count as claimed from then on. -/
theorem firstTaken_append
    {front : List String}
    (free : catalog.firstTaken name claimed front = none) :
    catalog.firstTaken name claimed (front ++ candidates) =
      catalog.firstTaken name (front.reverse ++ claimed) candidates := by
  induction front generalizing claimed with
  | nil => rfl
  | cons first front ih =>
    rcases unclaimable_or_fresh catalog name claimed first with ⟨holder, stops⟩ | ⟨unknown, new⟩
    · rw [firstTaken_cons_of_unclaimable stops] at free
      cases free
    · rw [firstTaken_cons_of_fresh unknown new] at free
      rw [List.cons_append, firstTaken_cons_of_fresh unknown new, ih free, List.reverse_cons,
        List.append_assoc]
      rfl

/-- The first key that is taken stands behind keys of which none is. -/
theorem firstTaken_eq_some_iff :
    catalog.firstTaken name claimed candidates = some (key, holder) ↔
      ∃ front back, candidates = front ++ key :: back ∧
        catalog.firstTaken name claimed front = none ∧
        catalog.Unclaimable name (front.reverse ++ claimed) key holder := by
  constructor
  · intro taken
    induction candidates generalizing claimed with
    | nil => cases taken
    | cons first rest ih =>
      rcases unclaimable_or_fresh catalog name claimed first with ⟨other, stops⟩ | ⟨unknown, new⟩
      · rw [firstTaken_cons_of_unclaimable stops] at taken
        cases taken
        exact ⟨[], rest, rfl, rfl, stops⟩
      · rw [firstTaken_cons_of_fresh unknown new] at taken
        rcases ih taken with ⟨front, back, rfl, free, stops⟩
        refine ⟨first :: front, back, rfl, ?_, ?_⟩
        · rw [firstTaken_cons_of_fresh unknown new, free]
        · rw [List.reverse_cons, List.append_assoc]
          exact stops
  · rintro ⟨front, back, rfl, free, stops⟩
    rw [firstTaken_append free, firstTaken_cons_of_unclaimable stops]

theorem clash_iff :
    Clash catalog.recipes recipe key holder ↔
      catalog.firstTaken recipe.name [] recipe.keys = some (key, holder) := by
  rw [firstTaken_eq_some_iff]
  constructor
  · rintro (⟨split, free, member, holds⟩ | ⟨split, free, unheld, again⟩)
    · exact ⟨_, _, split, free_iff.mp free, Or.inl ⟨_, find?_of_mem_keys member holds, rfl⟩⟩
    · refine ⟨_, _, split, free_iff.mp free, Or.inr ⟨?_, by simpa using again, rfl⟩⟩
      exact (find?_eq_none_iff catalog key).mpr (not_mem_keys_iff.mpr unheld)
  · rintro ⟨front, back, split, free, ⟨found, known, rfl⟩ | ⟨unknown, again, rfl⟩⟩
    · exact .taken split (free_iff.mpr free) (mem_of_find? known) (key_mem_of_find? known)
    · refine .repeated split (free_iff.mpr free) ?_ (by simpa using again)
      exact not_mem_keys_iff.mp ((find?_eq_none_iff catalog key).mp unknown)

/-! ## One offer -/

theorem insert_eq_error_iff :
    catalog.insert recipe = .error failure ↔
      ∃ key holder, Clash catalog.recipes recipe key holder ∧
        failure = .nameTaken key holder := by
  simp only [clash_iff]
  constructor
  · intro refused
    cases taken : catalog.firstTaken recipe.name [] recipe.keys with
    | some found =>
      rw [insert_of_taken taken] at refused
      cases refused
      exact ⟨found.1, found.2, rfl, rfl⟩
    | none =>
      rcases exists_insert_of_free taken with ⟨extended, accepted, _⟩
      rw [accepted] at refused
      cases refused
  · rintro ⟨key, holder, taken, rfl⟩
    exact insert_of_taken taken

/-- A recipe is accepted exactly if its keys are free. -/
theorem exists_insert_iff :
    (∃ extended, catalog.insert recipe = .ok extended) ↔
      Free catalog.recipes recipe.keys := by
  rw [@free_iff catalog recipe.name]
  cases taken : catalog.firstTaken recipe.name [] recipe.keys with
  | some found =>
    rw [insert_of_taken taken]
    simp
  | none =>
    rcases exists_insert_of_free taken with ⟨extended, accepted, _⟩
    simp [accepted]

end Catalog

namespace Graph

variable
    {graph : Graph}
    {catalog extended : Catalog}
    {recipe : Recipe}
    {recipes calls : List Recipe}
    {failure : Failure}

/-! ## Offers to the tables -/

theorem eq_of_tables_eq
    {other : Graph}
    (same : graph.tables = other.tables) :
    graph = other := by
  cases graph
  cases other
  cases same
  rfl

theorem eq_ofCatalog
    (graph : Graph) :
    graph = ofCatalog graph.catalog :=
  eq_of_tables_eq graph.tables_eq_registry

theorem catalog_ofCatalog :
    (ofCatalog catalog).catalog = catalog :=
  Catalog.eq_of_recipes_eq catalog.inOrder_registry

theorem add_of_ok
    (accepted : catalog.insert recipe = .ok extended) :
    (ofCatalog catalog).add recipe = (.ok recipe, ofCatalog extended) := by
  have ran := catalog.add_registry recipe
  rw [accepted] at ran
  refine Prod.ext ?_ (eq_of_tables_eq ?_)
  · simp only [add, Program.result, ofCatalog, ran]
  · simp only [add, Program.left, ofCatalog, ran]

theorem add_of_error
    (refused : catalog.insert recipe = .error failure) :
    (ofCatalog catalog).add recipe = (.error failure, ofCatalog catalog) := by
  have ran := catalog.add_registry recipe
  rw [refused] at ran
  refine Prod.ext ?_ (eq_of_tables_eq ?_)
  · simp only [add, Program.result, ofCatalog, ran]
  · simp only [add, Program.left, ofCatalog, ran]

/-- What comes of an offer is decided by the catalog that the tables belong to. -/
theorem add_fst_eq_ok_iff :
    ((ofCatalog catalog).add recipe).1 = .ok recipe ↔
      ∃ extended, catalog.insert recipe = .ok extended := by
  cases answered : catalog.insert recipe with
  | ok extended => simp [add_of_ok answered]
  | error failure => simp [add_of_error answered]

theorem add_fst_eq_error_iff :
    ((ofCatalog catalog).add recipe).1 = .error failure ↔
      catalog.insert recipe = .error failure := by
  cases answered : catalog.insert recipe with
  | ok extended => simp [add_of_ok answered]
  | error problem => simp [add_of_error answered]

/-- A refused offer leaves both tables as they were. -/
theorem add_snd_of_error
    (refused : (graph.add recipe).1 = .error failure) :
    (graph.add recipe).2 = graph := by
  rw [graph.eq_ofCatalog] at refused ⊢
  rw [add_of_error (add_fst_eq_error_iff.mp refused)]

/-! ## Offers in turn -/

/-- The recipes that were accepted, going by the answers. -/
def accepted (answers : List (Except Failure Recipe)) : List Recipe :=
  answers.filterMap Except.toOption

theorem addEach_append
    (front back : List Recipe) :
    graph.addEach (front ++ back) =
      ((graph.addEach front).1 ++ ((graph.addEach front).2.addEach back).1,
        ((graph.addEach front).2.addEach back).2) := by
  induction front generalizing graph with
  | nil => rfl
  | cons recipe front ih =>
    rw [List.cons_append, addEach, ih]
    rfl

theorem length_addEach
    (calls : List Recipe) :
    (graph.addEach calls).1.length = calls.length := by
  induction calls generalizing graph with
  | nil => rfl
  | cons recipe rest ih => exact congrArg (· + 1) ih

/-- The accepted offers stand in the tables behind the recipes that they had. -/
theorem addEach_ofCatalog
    (catalog : Catalog)
    (calls : List Recipe) :
    ∃ later : Catalog, ((ofCatalog catalog).addEach calls).2 = ofCatalog later ∧
      later.recipes = catalog.recipes ++ accepted ((ofCatalog catalog).addEach calls).1 := by
  induction calls generalizing catalog with
  | nil => exact ⟨catalog, rfl, (List.append_nil _).symm⟩
  | cons recipe rest ih =>
    rw [addEach]
    cases answered : catalog.insert recipe with
    | ok extended =>
      rcases ih extended with ⟨later, left, recipes⟩
      rw [add_of_ok answered]
      refine ⟨later, left, ?_⟩
      rw [recipes, Catalog.insert_eq_ok_iff.mp answered, List.append_assoc]
      rfl
    | error failure =>
      rcases ih catalog with ⟨later, left, recipes⟩
      rw [add_of_error answered]
      exact ⟨later, left, recipes⟩

/-- The graph built from recipes has the tables of the catalog built from them. -/
theorem addAll_ofCatalog
    (catalog : Catalog)
    (recipes : List Recipe) :
    (ofCatalog catalog).addAll recipes = (catalog.insertAll recipes).map ofCatalog := by
  induction recipes generalizing catalog with
  | nil => rfl
  | cons recipe rest ih =>
    rw [addAll, Catalog.insertAll]
    cases answered : catalog.insert recipe with
    | ok extended =>
      rw [add_of_ok answered]
      exact ih extended
    | error failure =>
      rw [add_of_error answered]
      rfl

/-! ## What a graph tells -/

/-- A graph that tells of some recipes, and of nothing else. -/
structure Tells (graph : Graph) (recipes : List Recipe) : Prop where
  listed : graph.tables.inOrder = recipes
  names : graph.tables.names = recipes.map Recipe.name
  distinct : graph.tables.names.Nodup
  counted : graph.tables.size = recipes.length
  contained :
    ∀ key, graph.tables.contains key = true ↔ ∃! recipe, recipe ∈ recipes ∧ key ∈ recipe.keys
  resolved :
    ∀ key neededBy recipe,
      graph.tables.resolve key neededBy = .ok recipe ↔ recipe ∈ recipes ∧ key ∈ recipe.keys
  unresolved :
    ∀ key neededBy failure,
      graph.tables.resolve key neededBy = .error failure ↔
        (∀ recipe ∈ recipes, key ∉ recipe.keys) ∧
          failure = .unknownRecipe key (recipes.map Recipe.name) neededBy
  ordered :
    ∀ catalog : Catalog, catalog.recipes = recipes → graph.order = catalog.plan
  accepts : ∀ recipe, (graph.add recipe).1 = .ok recipe ↔ Catalog.Free recipes recipe.keys
  refuses :
    ∀ recipe failure,
      (graph.add recipe).1 = .error failure ↔
        ∃ key holder, Catalog.Clash recipes recipe key holder ∧
          failure = .nameTaken key holder
  keeps :
    ∀ recipe failure, (graph.add recipe).1 = .error failure → (graph.add recipe).2 = graph

theorem tells_ofCatalog
    (catalog : Catalog) :
    (ofCatalog catalog).Tells catalog.recipes where
  listed := catalog.inOrder_registry
  names := catalog.names_registry
  distinct := catalog.names_registry ▸ catalog.nodup_names
  counted := catalog.size_registry
  contained := by
    intro key
    show catalog.registry.contains key = true ↔ _
    rw [Catalog.contains_registry, Catalog.contains_iff, Catalog.mem_keys_iff]
    constructor
    · rintro ⟨recipe, found⟩
      refine ⟨recipe, Catalog.find?_eq_some_iff.mp found, ?_⟩
      intro other held
      rw [← Catalog.find?_eq_some_iff, found] at held
      exact (Option.some.inj held).symm
    · rintro ⟨recipe, held, _⟩
      exact ⟨recipe, Catalog.find?_eq_some_iff.mpr held⟩
  resolved := by
    intro key neededBy recipe
    show catalog.registry.resolve key neededBy = _ ↔ _
    rw [Catalog.resolve_registry, Catalog.require_eq_ok_iff, Catalog.find?_eq_some_iff]
  unresolved := by
    intro key neededBy failure
    show catalog.registry.resolve key neededBy = _ ↔ _
    rw [Catalog.resolve_registry, Catalog.require_eq_error_iff, Catalog.find?_eq_none_iff,
      Catalog.not_mem_keys_iff]
    rfl
  ordered := by
    intro other same
    funext root
    rw [order_eq_plan, catalog_ofCatalog, Catalog.eq_of_recipes_eq same]
  accepts := fun _ => add_fst_eq_ok_iff.trans Catalog.exists_insert_iff
  refuses := fun _ _ => add_fst_eq_error_iff.trans Catalog.insert_eq_error_iff
  keeps := fun _ _ => add_snd_of_error

/--
After any calls on an empty graph, its tables tell of the accepted recipes, in
the order of their acceptance, and are those of the graph built from these alone.  A
refused call can be left out: the other calls are answered as they are with it,
and they leave the same tables.
-/
theorem calls_kept_or_forgotten
    (calls : List Recipe) :
    let told := empty.addEach calls
    told.2.Tells (accepted told.1) ∧
      empty.addAll (accepted told.1) = .ok told.2 ∧
      ∀ front recipe back failure,
        calls = front ++ recipe :: back →
          ((empty.addEach front).2.add recipe).1 = .error failure →
            ∃ before after,
              before.length = front.length ∧
                told.1 = before ++ .error failure :: after ∧
                  empty.addEach (front ++ back) = (before ++ after, told.2) := by
  intro told
  rcases addEach_ofCatalog .empty calls with ⟨catalog, left, recipes⟩
  have held : catalog.recipes = accepted told.1 := recipes
  have whole : told.2 = ofCatalog catalog := left
  refine ⟨?_, ?_, ?_⟩
  · rw [whole, ← held]
    exact tells_ofCatalog catalog
  · have built : Catalog.empty.insertAll (accepted told.1) = .ok catalog :=
      Catalog.insertAll_eq_ok_iff.mpr recipes
    rw [whole, empty, addAll_ofCatalog, built]
    rfl
  · rintro front recipe back failure rfl refused
    have forgotten := add_snd_of_error refused
    refine ⟨(empty.addEach front).1, ((empty.addEach front).2.addEach back).1,
      length_addEach front, ?_, ?_⟩
    · show (empty.addEach (front ++ recipe :: back)).1 = _
      rw [addEach_append, addEach, forgotten, refused]
    · show _ = (_, (empty.addEach (front ++ recipe :: back)).2)
      rw [addEach_append, addEach_append, addEach, forgotten]

end Graph

end Cookbook
