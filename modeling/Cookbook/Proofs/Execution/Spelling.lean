import Cookbook.Proofs.Catalog.Respelling
import Cookbook.Proofs.Execution.FailFast

/-!
# Runs and the spelling of needs

A run asks its catalog for a plan and never looks at the needs of a recipe
again: what it does with a plan follows from the names and the steps of the
recipes in it.  So a target that is spelled by another key of its recipe, in a
catalog with respelled needs, is run just as before.
-/

namespace Cookbook

namespace Job

variable
    {job : Job}
    {surroundings : Surroundings}
    {past : List Start}
    {catalog respelled : Catalog}
    {recipe twin : Recipe}
    {plan twins : List Recipe}

/-- The same job with another catalog in its book. -/
def onCatalog (job : Job) (catalog : Catalog) : Job :=
  { job with book := { job.book with catalog := catalog } }

theorem runStep_onCatalog
    (name : String)
    (step : Step) :
    (job.onCatalog respelled).runStep surroundings past name step =
      job.runStep surroundings past name step :=
  rfl

theorem runSteps_onCatalog
    (name : String)
    (steps : List Step) :
    (job.onCatalog respelled).runSteps surroundings past name steps =
      job.runSteps surroundings past name steps := by
  induction steps generalizing past with
  | nil => rfl
  | cons step rest ih => simp only [runSteps, runStep_onCatalog, ih]

theorem runRecipe_onCatalog
    (same : catalog.Respells recipe twin) :
    (job.onCatalog respelled).runRecipe surroundings past twin =
      job.runRecipe surroundings past recipe := by
  simp only [runRecipe, runSteps_onCatalog, same.name_eq, same.steps_eq]

theorem runAll_onCatalog
    (same : List.Forall₂ catalog.Respells plan twins) :
    (job.onCatalog respelled).runAll surroundings past twins =
      job.runAll surroundings past plan := by
  induction same generalizing past with
  | nil => rfl
  | cons first _ ih =>
    have status : (job.onCatalog respelled).status = job.status := rfl
    simp only [runAll, runRecipe_onCatalog first, first.name_eq, status, ih]

theorem runPlan_onCatalog
    (same : List.Forall₂ catalog.Respells plan twins) :
    (job.onCatalog respelled).runPlan surroundings twins = job.runPlan surroundings plan := by
  have names : twins.map Recipe.name = plan.map Recipe.name :=
    Catalog.namesOf_eq_of_forall₂ (fun _ _ matching => matching.name_eq) same
  rw [runPlan, runPlan, runAll_onCatalog same, names]

end Job

/--
Spell any needs of a catalog, and a target, by other keys of the recipes they
stand for.  The recipes are accepted again, the plan holds recipes of the same
names in the same order or fails with the same failure, and every run is the
same: the same events and result, and the same phase and history afterwards.
-/
theorem run_ignores_spelling
    {job : Job}
    {recipes : List Recipe}
    {target asked : String}
    (same : List.Forall₂ job.book.catalog.Respells job.book.catalog.recipes recipes)
    (spelled : job.book.catalog.SpelledAs target asked) :
    ∃ respelled, Catalog.ofList recipes = .ok respelled ∧
      (respelled.plan asked).map Catalog.namesOf =
        (job.book.catalog.plan target).map Catalog.namesOf ∧
      ∀ (worker : Worker) (surroundings : Surroundings),
        worker.run (job.onCatalog respelled) surroundings (some asked) =
          worker.run job surroundings (some target) := by
  rcases Catalog.exists_ofList_of_respelled same with ⟨respelled, made, rfl⟩
  refine ⟨respelled, made, ?_⟩
  rcases Catalog.plan_of_respelled same spelled with
    ⟨failure, failed, failedThere⟩ | ⟨plan, twins, planned, plannedThere, matching⟩
  · refine ⟨by rw [failed, failedThere], fun worker surroundings => ?_⟩
    have ran := worker.run_of_error surroundings
      (show job.book.plan (some target) = _ from failed)
    have ranThere := worker.run_of_error surroundings
      (show (job.onCatalog respelled).book.plan (some asked) = _ from failedThere)
    rw [ran, ranThere]
  · constructor
    · rw [planned, plannedThere]
      exact congrArg Except.ok
        (Catalog.namesOf_eq_of_forall₂ (fun _ _ twinned => twinned.name_eq) matching)
    · intro worker surroundings
      have ran := worker.run_of_ok surroundings
        (show job.book.plan (some target) = _ from planned)
      have ranThere := worker.run_of_ok surroundings
        (show (job.onCatalog respelled).book.plan (some asked) = _ from plannedThere)
      rw [ran, ranThere, Job.runPlan_onCatalog matching]

/-- A recipe that is needed twice, and the target itself, asked for by nicknames. -/
theorem run_ignores_spelling_shared :
    let build : Recipe :=
      { name := "build", steps := [⟨"make", none, false⟩], aliases := ["b"] }
    let lint : Recipe := { name := "lint", needs := ["build"], aliases := ["l"] }
    let all : Recipe := { name := "all", needs := ["build", "lint"], aliases := ["a"] }
    let job : Job :=
      ⟨⟨Bindings.empty, ⟨[build, lint, all], by decide⟩, none, "<builtin>"⟩, none, false⟩
    let recipes : List Recipe :=
      [build, { lint with needs := ["b"] }, { all with needs := ["b", "l"] }]
    List.Forall₂ job.book.catalog.Respells job.book.catalog.recipes recipes ∧
      job.book.catalog.SpelledAs "all" "a" ∧
        ∃ respelled, Catalog.ofList recipes = .ok respelled ∧
          (respelled.plan "a").map Catalog.namesOf =
            (job.book.catalog.plan "all").map Catalog.namesOf ∧
          ∀ (worker : Worker) (surroundings : Surroundings),
            worker.run (job.onCatalog respelled) surroundings (some "a") =
              worker.run job surroundings (some "all") := by
  intro build lint all job recipes
  have nickname : job.book.catalog.SpelledAs "build" "b" := Or.inr ⟨build, by decide, by decide⟩
  have shortLint : job.book.catalog.SpelledAs "lint" "l" := Or.inr ⟨lint, by decide, by decide⟩
  have spelled : job.book.catalog.SpelledAs "all" "a" := Or.inr ⟨all, by decide, by decide⟩
  have same : List.Forall₂ job.book.catalog.Respells job.book.catalog.recipes recipes :=
    .cons ⟨rfl, .nil⟩ (.cons ⟨rfl, .cons nickname .nil⟩
      (.cons ⟨rfl, .cons nickname (.cons shortLint .nil)⟩ .nil))
  exact ⟨same, spelled, run_ignores_spelling same spelled⟩

end Cookbook
