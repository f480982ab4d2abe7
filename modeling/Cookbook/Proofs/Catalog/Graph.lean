import Cookbook.Catalog.Graph
import Cookbook.Proofs.Catalog.Simulation

/-!
# Graphs and catalogs

A graph orders and validates its recipes as the catalog does that its tables
belong to, and graphs with the same recipes are the same.
-/

namespace Cookbook.Graph

variable {graph other : Graph}

theorem finish_eq_finish
    (graph : Graph)
    (search : Search) :
    graph.finish search = graph.catalog.finish search := by
  fun_induction Graph.finish graph search with
  | case1 search plan moved =>
    rw [graph.advance_eq] at moved
    rw [Catalog.finish_eq, moved]
  | case2 search failure moved =>
    rw [graph.advance_eq] at moved
    rw [Catalog.finish_eq, moved]
  | case3 search next moved ih =>
    rw [graph.advance_eq] at moved
    rw [ih, Catalog.finish_of_more moved]

/-- The order found in the tables is the one that the catalog plans. -/
theorem order_eq_plan
    (graph : Graph)
    (root : String) :
    graph.order root = graph.catalog.plan root := by
  rw [order, graph.tables_eq_registry, Catalog.resolve_registry, Catalog.plan]
  cases graph.catalog.require root none with
  | error failure => rfl
  | ok recipe => exact graph.finish_eq_finish (Search.start recipe)

theorem validate_eq_checkNeeds
    (graph : Graph) :
    graph.validate = graph.catalog.checkNeeds := by
  have each : ∀ names checked,
      graph.validateFrom checked names = graph.catalog.checkNeedsFrom checked names := by
    intro names
    induction names with
    | nil => exact fun _ => rfl
    | cons name rest ih =>
      intro checked
      rw [validateFrom, Catalog.checkNeedsFrom, order_eq_plan]
      by_cases known : name ∈ checked
      · rw [if_pos known, if_pos known, ih]
      · rw [if_neg known, if_neg known]
        cases graph.catalog.plan name with
        | error failure => rfl
        | ok ordered => exact ih _
  rw [validate, each, Catalog.checkNeeds, graph.tables_eq_registry, Catalog.names_registry]

end Cookbook.Graph
