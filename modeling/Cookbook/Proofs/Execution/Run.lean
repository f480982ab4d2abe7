import Cookbook.Proofs.Catalog.Plan
import Cookbook.Proofs.Execution.Trace

/-!
# Real runs

A real run shows, records and starts the attempts of a course, one after the
other, and its result is that of the course.  Entering recipes and reporting
the stop stand between these actions and do not change them.
-/

namespace Cookbook

/-- Whether an event is something that happens to a command. -/
def Event.isAction : Event → Bool
  | .shown _ _ => true
  | .recorded _ _ => true
  | .started _ => true
  | _ => false

namespace Trace

/-- What happens to commands during a trace, in order. -/
def actions {Value : Type} (trace : Trace Value) : List Event :=
  trace.events.filter Event.isAction

/-- The commands that a trace shows, with their directories, in order. -/
def echoes {Value : Type} (trace : Trace Value) : List (List String × Option String) :=
  trace.events.filterMap Event.shown?

variable
    {Value : Type}
    (trace : Trace Value)

theorem starts_eq_filterMap_actions :
    trace.starts = trace.actions.filterMap Event.start? := by
  rw [starts, actions, List.filterMap_filter]
  congr
  funext event
  cases event <;> rfl

theorem history_eq_filterMap_actions :
    trace.history = trace.actions.filterMap Event.record? := by
  rw [history, actions, List.filterMap_filter]
  congr
  funext event
  cases event <;> rfl

theorem echoes_eq_filterMap_actions :
    trace.echoes = trace.actions.filterMap Event.shown? := by
  rw [echoes, actions, List.filterMap_filter]
  congr
  funext event
  cases event <;> rfl

@[simp]
theorem actions_after
    (events : List Event) :
    (trace.after events).actions = events.filter Event.isAction ++ trace.actions := by
  simp [actions, after]

end Trace

namespace Job

variable
    {job : Job}
    {surroundings : Surroundings}
    {past : List Start}
    {attempt : Attempt}
    {attempts : List Attempt}

/-! ## The actions of attempts -/

theorem filter_isAction_actions :
    (job.actions attempt).filter Event.isAction = job.actions attempt := by
  refine List.filter_eq_self.mpr fun event present => ?_
  rcases List.mem_append.mp present with shown | rest
  · split at shown
    · cases shown
    · rw [List.mem_singleton.mp shown]
      rfl
  · rcases List.mem_cons.mp rest with rfl | started
    · rfl
    · rcases List.mem_map.mp started with ⟨start, _, rfl⟩
      rfl

theorem filterMap_start?_actions :
    (attempts.flatMap job.actions).filterMap Event.start? = job.starts attempts := by
  induction attempts with
  | nil => rfl
  | cons attempt later ih =>
    rw [List.flatMap_cons, List.filterMap_append, ih, starts_cons]
    cases quiet : attempt.quiet <;> cases started : job.start? attempt <;>
      simp only [actions, quiet, started] <;> rfl

theorem filterMap_record?_actions :
    (attempts.flatMap job.actions).filterMap Event.record? = attempts.map Attempt.record := by
  induction attempts with
  | nil => rfl
  | cons attempt later ih =>
    rw [List.flatMap_cons, List.filterMap_append, ih, List.map_cons]
    cases quiet : attempt.quiet <;> cases started : job.start? attempt <;>
      simp only [actions, quiet, started] <;> rfl

theorem filterMap_shown?_actions :
    (attempts.flatMap job.actions).filterMap Event.shown? =
      (attempts.filter (!·.quiet)).map Attempt.echo := by
  induction attempts with
  | nil => rfl
  | cons attempt later ih =>
    rw [List.flatMap_cons, List.filterMap_append, ih]
    cases quiet : attempt.quiet <;> cases started : job.start? attempt <;>
      simp only [actions, quiet, started, List.filter_cons] <;> rfl

/-! ## Steps -/

theorem runStep_of_error
    {recipe : String}
    {step : Step}
    {failure : Failure}
    (problem : job.attempt ⟨recipe, step⟩ = .error failure) :
    job.runStep surroundings past recipe step = ⟨[], .error (.failure failure)⟩ := by
  simp only [runStep, problem]

theorem runStep_of_ok
    {recipe : String}
    {step : Step}
    (real : job.dryRun = false)
    (filled : job.attempt ⟨recipe, step⟩ = .ok attempt) :
    job.runStep surroundings past recipe step =
      ⟨job.actions attempt,
        (job.outcome surroundings past attempt).mapError (Stop.ownedBy attempt.recipe)⟩ := by
  rcases attempt_eq_ok_iff.mp filled with ⟨_, _, own, quiet⟩
  cases kept : step.quiet <;>
    simp [runStep, filled, real, shows, actions, own, quiet, kept]

section Steps

variable
    {recipe : String}
    {step : Step}
    {rest : List Step}

theorem runSteps_of_unfilled
    {failure : Failure}
    (problem : job.attempt ⟨recipe, step⟩ = .error failure) :
    job.runSteps surroundings past recipe (step :: rest) =
      ⟨[], .error (.failure failure)⟩ := by
  simp only [runSteps, runStep_of_error problem]

theorem runSteps_of_broken
    {cause : Stop}
    (real : job.dryRun = false)
    (filled : job.attempt ⟨recipe, step⟩ = .ok attempt)
    (failed : job.outcome surroundings past attempt = .error cause) :
    job.runSteps surroundings past recipe (step :: rest) =
      ⟨job.actions attempt, .error (cause.ownedBy attempt.recipe)⟩ := by
  simp only [runSteps, runStep_of_ok real filled, failed]
  rfl

theorem runSteps_of_more
    (real : job.dryRun = false)
    (filled : job.attempt ⟨recipe, step⟩ = .ok attempt)
    (succeeded : job.outcome surroundings past attempt = .ok ()) :
    job.runSteps surroundings past recipe (step :: rest) =
      (job.runSteps surroundings (past ++ (job.start? attempt).toList) recipe rest).after
        (job.actions attempt) := by
  have started := @filterMap_start?_actions job [attempt]
  simp only [List.flatMap_cons, List.flatMap_nil, List.append_nil, starts_cons, starts_nil]
    at started
  simp only [runSteps, runStep_of_ok real filled, succeeded, Except.mapError, Trace.starts,
    started]

end Steps

/-! ## Recipes and plans -/

/-- The actions of a trace and its result are those of a course of attempts. -/
def Follows (job : Job) (surroundings : Surroundings) (past : List Start)
    (tasks : List Task) {Value : Type} (trace : Trace Value) : Prop :=
  ∃ attempts,
    job.Course surroundings past tasks attempts ((fun _ => ()) <$> trace.result) ∧
      trace.actions = attempts.flatMap job.actions

theorem starts_eq_of_actions
    {Value : Type}
    {trace : Trace Value}
    (same : trace.actions = attempts.flatMap job.actions) :
    trace.starts = job.starts attempts := by
  rw [Trace.starts_eq_filterMap_actions, same, filterMap_start?_actions]

theorem runSteps_follows
    (real : job.dryRun = false)
    (past : List Start)
    (recipe : String)
    (steps : List Step) :
    job.Follows surroundings past (steps.map (Task.mk recipe))
      (job.runSteps surroundings past recipe steps) := by
  induction steps generalizing past with
  | nil => exact ⟨[], .done, rfl⟩
  | cons step rest ih =>
    cases filled : job.attempt ⟨recipe, step⟩ with
    | error failure =>
      rw [runSteps_of_unfilled filled]
      exact ⟨[], .unfilled filled, rfl⟩
    | ok attempt =>
      cases came : job.outcome surroundings past attempt with
      | error cause =>
        rw [runSteps_of_broken real filled came]
        refine ⟨[attempt], .broken filled came, ?_⟩
        rw [List.flatMap_singleton]
        exact filter_isAction_actions
      | ok _ =>
        rw [runSteps_of_more real filled came]
        rcases ih (past ++ (job.start? attempt).toList) with ⟨later, course, same⟩
        refine ⟨attempt :: later, .more filled came course, ?_⟩
        rw [Trace.actions_after, filter_isAction_actions, same, List.flatMap_cons]

theorem result_runRecipe
    (recipe : Recipe) :
    (job.runRecipe surroundings past recipe).result =
      (job.runSteps surroundings past recipe.name recipe.steps).result := by
  simp only [runRecipe]
  split
  · rfl
  · rename_i stop came
    exact came.symm

/-- Entering a recipe and reporting its stop are no actions. -/
theorem actions_runRecipe
    (recipe : Recipe) :
    (job.runRecipe surroundings past recipe).actions =
      (job.runSteps surroundings past recipe.name recipe.steps).actions := by
  simp only [runRecipe]
  split
  · rw [Trace.actions_after]
    rfl
  · simp [Trace.actions, Event.isAction]

theorem runRecipe_follows
    (real : job.dryRun = false)
    (past : List Start)
    (recipe : Recipe) :
    job.Follows surroundings past recipe.tasks
      (job.runRecipe surroundings past recipe) := by
  rcases @runSteps_follows job surroundings real past recipe.name recipe.steps with
    ⟨attempts, course, same⟩
  refine ⟨attempts, ?_, ?_⟩
  · rw [result_runRecipe]
    exact course
  · rw [actions_runRecipe]
    exact same

theorem runAll_follows
    (real : job.dryRun = false)
    (past : List Start)
    (plan : List Recipe) :
    job.Follows surroundings past (tasksOf plan) (job.runAll surroundings past plan) := by
  induction plan generalizing past with
  | nil => exact ⟨[], .done, rfl⟩
  | cons recipe rest ih =>
    rcases @runRecipe_follows job surroundings real past recipe with ⟨earlier, course, same⟩
    cases came : (job.runRecipe surroundings past recipe).result with
    | error stop =>
      rw [came] at course
      rw [runAll_of_error came]
      exact ⟨earlier, course.append_of_error (tasksOf rest), same⟩
    | ok _ =>
      rw [came] at course
      rcases ih (past ++ job.starts earlier) with ⟨later, courseLater, sameLater⟩
      rw [runAll_of_ok came (starts_eq_of_actions same)]
      refine ⟨earlier ++ later, ?_, ?_⟩
      · rw [Functor.map_map]
        exact course.append courseLater
      · rw [List.flatMap_append, ← same, ← sameLater]
        simp [Trace.actions]

/-- A run that does not stop reports every recipe of its plan. -/
theorem results_runAll
    {past : List Start}
    {plan : List Recipe}
    {results : Results}
    (ended : (job.runAll surroundings past plan).result = .ok results) :
    results = plan.map fun recipe => (recipe.name, job.status) := by
  induction plan generalizing past results with
  | nil => exact (Except.ok.inj ended).symm
  | cons recipe rest ih =>
    simp only [runAll] at ended
    split at ended
    · cases ended
    · rcases exists_of_map_eq_ok ended with ⟨tail, later, rfl⟩
      rw [ih later, List.map_cons]

/-- A real run that does not stop has done every recipe of its plan. -/
theorem results_of_runAll
    (real : job.dryRun = false)
    {past : List Start}
    {plan : List Recipe}
    {results : Results}
    (ended : (job.runAll surroundings past plan).result = .ok results) :
    results = plan.map fun recipe => (recipe.name, .done) := by
  have reported := results_runAll ended
  rw [status, real] at reported
  exact reported

end Job

end Cookbook
