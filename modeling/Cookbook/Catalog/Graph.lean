import Cookbook.Catalog.Registry
import Cookbook.Catalog.Search

/-!
# Recipe graphs

A graph consists of tables that agree with each other, because they are the
tables of one catalog.  Registering a recipe keeps it so, whether the recipe is
accepted or refused.  Recipes are put into order by looking into the tables;
the catalog only shows that this comes to an end.
-/

namespace Cookbook

/-- Tables that agree: there is a catalog that they belong to. -/
def Registry.Consistent (registry : Registry) : Prop :=
  ∃ catalog : Catalog, registry = catalog.registry

/-- Tables of recipes that agree with each other. -/
structure Graph where
  tables : Registry
  consistent : tables.Consistent

namespace Registry

variable {registry : Registry}

theorem Consistent.distinct
    (consistent : registry.Consistent) :
    (registry.inOrder.flatMap Recipe.keys).Nodup := by
  rcases consistent with ⟨catalog, rfl⟩
  rw [catalog.inOrder_registry]
  exact catalog.distinct

/-- Registering a recipe leaves tables that agree, whether it is accepted or refused. -/
theorem Consistent.add
    (consistent : registry.Consistent)
    (recipe : Recipe) :
    Registry.Consistent (Program.left (add recipe) registry) := by
  rcases consistent with ⟨catalog, rfl⟩
  rw [Program.left, catalog.add_registry recipe]
  cases catalog.insert recipe with
  | ok extended => exact ⟨extended, rfl⟩
  | error failure => exact ⟨catalog, rfl⟩

/-! ## Ordering, by looking into the tables -/

/-- What a need of a recipe leads to, with the frames that wait for it. -/
def visit (registry : Registry) (search : Search) (waiting : List Frame)
    (need : String) (neededBy : String) : Progress :=
  match registry.resolve need (some neededBy) with
  | .error failure => .failed failure
  | .ok recipe =>
    if recipe.name ∈ search.done then
      .more (search.skip waiting)
    else if recipe.name ∈ search.onPath then
      .failed (.cyclicNeeds (search.cycle recipe.name))
    else
      .more (search.enter waiting recipe)

/-- One step of the search. -/
def advance (registry : Registry) (search : Search) : Progress :=
  match search.stack with
  | [] => .finished search.ordered
  | frame :: below =>
    match frame.recipe.needs[frame.next]? with
    | none => .more (search.leave below frame.recipe)
    | some need =>
      registry.visit search (⟨frame.recipe, frame.next + 1⟩ :: below) need frame.recipe.name

end Registry

theorem Catalog.advance_registry
    (catalog : Catalog) :
    catalog.registry.advance = catalog.advance := by
  funext search
  simp only [Registry.advance, Registry.visit, Catalog.resolve_registry]
  rfl

namespace Graph

variable {graph : Graph} {search : Search}

/-- The graph whose tables are those of a catalog. -/
def ofCatalog (catalog : Catalog) : Graph :=
  ⟨catalog.registry, catalog, rfl⟩

def empty : Graph :=
  ofCatalog .empty

/-- The catalog that the tables belong to. -/
def catalog (graph : Graph) : Catalog :=
  ⟨graph.tables.inOrder, graph.consistent.distinct⟩

theorem tables_eq_registry
    (graph : Graph) :
    graph.tables = graph.catalog.registry := by
  rcases graph.consistent with ⟨catalog, same⟩
  have recipes : graph.catalog = catalog := by
    apply Catalog.eq_of_recipes_eq
    show graph.tables.inOrder = _
    rw [same, catalog.inOrder_registry]
  rw [recipes, same]

theorem advance_eq
    (graph : Graph) :
    graph.tables.advance = graph.catalog.advance := by
  rw [graph.tables_eq_registry, Catalog.advance_registry]

/-- Runs a search to its end. -/
def finish (graph : Graph) (search : Search) : Except Failure (List Recipe) :=
  match _moved : graph.tables.advance search with
  | .finished plan => .ok plan
  | .failed failure => .error failure
  | .more next => graph.finish next
termination_by graph.catalog.work search
decreasing_by
  rw [graph.advance_eq] at _moved
  exact Catalog.work_lt_of_advance _moved

/-- The recipes that a root needs, each after its own needs, with the root last. -/
def order (graph : Graph) (root : String) : Except Failure (List Recipe) :=
  match graph.tables.resolve root none with
  | .error failure => .error failure
  | .ok recipe => graph.finish (Search.start recipe)

/-- Orders every name that no earlier order holds. -/
def validateFrom (graph : Graph) (checked : List String) : List String → Except Failure Unit
  | [] => .ok ()
  | name :: rest =>
    if name ∈ checked then
      graph.validateFrom checked rest
    else
      match graph.order name with
      | .error failure => .error failure
      | .ok ordered => graph.validateFrom (checked ++ ordered.map Recipe.name) rest

/-- Whether the needs of every recipe can be put into order; the first failure if not. -/
def validate (graph : Graph) : Except Failure Unit :=
  graph.validateFrom [] graph.tables.names

/-! ## Calls -/

/-- The answer to registering a recipe, and the graph that the call leaves. -/
def add (graph : Graph) (recipe : Recipe) : Except Failure Recipe × Graph :=
  (Program.result (Registry.add recipe) graph.tables,
    ⟨Program.left (Registry.add recipe) graph.tables, graph.consistent.add recipe⟩)

/-- The graph with some more recipes, which stops at the first one that is refused. -/
def addAll (graph : Graph) : List Recipe → Except Failure Graph
  | [] => .ok graph
  | recipe :: rest =>
    match graph.add recipe with
    | (.ok _, later) => later.addAll rest
    | (.error failure, _) => .error failure

/-- The answers to calls in turn, refused ones included, and the graph that they leave. -/
def addEach (graph : Graph) : List Recipe → List (Except Failure Recipe) × Graph
  | [] => ([], graph)
  | recipe :: rest =>
    let first := graph.add recipe
    let later := first.2.addEach rest
    (first.1 :: later.1, later.2)

end Graph

end Cookbook
