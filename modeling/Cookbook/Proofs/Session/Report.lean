import Cookbook.Proofs.Execution.FailFast
import Cookbook.Proofs.Execution.Rehearsal
import Cookbook.Proofs.Session.Loading

/-!
# What a run reports

Of all that happens during a run, only the recipes that are entered show on the
standard output, and they are entered in the order of the plan.  A run is
answered by its opening, by what happens, and by how it ends.
-/

namespace Cookbook

def Event.entered? : Event → Option String
  | .entered recipe => some recipe
  | _ => none

/-- The recipes that are entered during a trace, in order. -/
def Trace.entered {Value : Type} (trace : Trace Value) : List String :=
  trace.events.filterMap Event.entered?

theorem Trace.entered_after
    {Value : Type}
    (trace : Trace Value)
    (events : List Event) :
    (trace.after events).entered = events.filterMap Event.entered? ++ trace.entered :=
  List.filterMap_append

/-- The banners of recipes, one after the other. -/
def Terminal.banners (recipes : List String) : String :=
  String.join (recipes.map fun recipe => (Terminal.banner recipe).out)

/-! ## The standard output -/

theorem Terminal.events_cons
    (terminal : Terminal)
    (event : Event)
    (happened : List Event) :
    terminal.events (event :: happened) = terminal.event event ++ terminal.events happened :=
  rfl

/-- The only events that show on the standard output are those of entering recipes. -/
theorem Terminal.out_events
    (terminal : Terminal)
    (happened : List Event) :
    (terminal.events happened).out = Terminal.banners (happened.filterMap Event.entered?) := by
  induction happened with
  | nil => rfl
  | cons event happened ih =>
    rw [events_cons]
    show (terminal.event event).out ++ (terminal.events happened).out = _
    rw [ih]
    cases event with
    | entered recipe => simp [Event.entered?, Terminal.banners, Terminal.event]
    | planned recipes =>
      rw [Terminal.event, Terminal.out_detail]
      exact String.empty_append
    | shown | recorded | started | stopped => exact String.empty_append

/-! ## Recipes that are entered -/

namespace Job

variable
    {job : Job}
    {surroundings : Surroundings}
    {past : List Start}

theorem entered_actions
    (attempt : Attempt) :
    (job.actions attempt).filterMap Event.entered? = [] := by
  unfold actions
  cases attempt.quiet <;> cases job.start? attempt <;> rfl

theorem entered_runSteps
    (past : List Start)
    (recipe : String)
    (steps : List Step) :
    (job.runSteps surroundings past recipe steps).entered = [] := by
  induction steps generalizing past with
  | nil => rfl
  | cons step rest ih =>
    cases filled : job.attempt ⟨recipe, step⟩ with
    | error failure =>
      rw [runSteps_of_unfilled filled]
      rfl
    | ok attempt =>
      cases dry : job.dryRun with
      | true =>
        rw [runSteps_of_dry dry filled, Trace.entered_after, ih]
        rfl
      | false =>
        cases came : job.outcome surroundings past attempt with
        | error cause =>
          rw [runSteps_of_broken dry filled came]
          exact entered_actions attempt
        | ok _ =>
          rw [runSteps_of_more dry filled came, Trace.entered_after, ih, entered_actions]
          rfl

theorem entered_runRecipe
    (past : List Start)
    (recipe : Recipe) :
    (job.runRecipe surroundings past recipe).entered = [recipe.name] := by
  have steps := @entered_runSteps job surroundings past recipe.name recipe.steps
  rw [Trace.entered] at steps
  simp only [runRecipe, Trace.entered]
  split
  · simp [Trace.after, Event.entered?, steps]
  · simp [Event.entered?, steps]

/-- Recipes are entered in the order of the plan. -/
theorem entered_runAll
    (past : List Start)
    (plan : List Recipe) :
    (job.runAll surroundings past plan).entered <+: plan.map Recipe.name := by
  induction plan generalizing past with
  | nil => exact List.prefix_rfl
  | cons recipe rest ih =>
    have first := @entered_runRecipe job surroundings past recipe
    rw [Trace.entered] at first
    rw [List.map_cons, Trace.entered]
    cases came : (job.runRecipe surroundings past recipe).result with
    | error stop =>
      rw [runAll_of_error came, first]
      exact ⟨rest.map Recipe.name, rfl⟩
    | ok _ =>
      rw [runAll_of_ok came rfl, List.filterMap_append, first]
      exact List.cons_prefix_cons.mpr ⟨rfl, ih _⟩

theorem entered_runPlan
    (job : Job)
    (surroundings : Surroundings)
    (plan : List Recipe) :
    (job.runPlan surroundings plan).entered <+: plan.map Recipe.name :=
  entered_runAll [] plan

end Job

/-! ## Replies to runs -/

namespace Session

variable
    {world : World}
    {book : Book}
    {job : Job}
    {target : Option String}
    {plan : List Recipe}

theorem plan_of_untargeted
    {failure : Failure}
    (missing : targetOf book target = .error failure) :
    book.plan target = .error failure := by
  cases target with
  | some name => cases missing
  | none =>
    have implicit : book.implicitTarget = .error failure := missing
    simp only [Book.plan, implicit]

theorem plan_of_targetOf
    {name : String}
    (named : targetOf book target = .ok name) :
    book.plan target = book.catalog.plan name := by
  cases target with
  | some other =>
    cases named
    rfl
  | none =>
    have implicit : book.implicitTarget = .ok name := named
    simp only [Book.plan, implicit]

/-- A run without a plan is answered by the failure of the plan. -/
theorem run_of_unplanned
    {failure : Failure}
    (terminal : Terminal)
    (world : World)
    (dryRun : Bool)
    (unplanned : book.plan target = .error failure) :
    run terminal world target dryRun book = fail terminal (.failure failure) := by
  cases named : targetOf book target with
  | error problem =>
    rw [plan_of_untargeted named] at unplanned
    cases unplanned
    simp only [run, named]
  | ok name =>
    rw [plan_of_targetOf named] at unplanned
    simp only [run, named, unplanned]

theorem exists_name_of_plan
    (planned : book.plan target = .ok plan) :
    ∃ name, targetOf book target = .ok name ∧ book.catalog.plan name = .ok plan := by
  cases named : targetOf book target with
  | error problem =>
    rw [plan_of_untargeted named] at planned
    cases planned
  | ok name => exact ⟨name, rfl, (plan_of_targetOf named).symm.trans planned⟩

theorem run_of_planned
    {name : String}
    (terminal : Terminal)
    (world : World)
    (dryRun : Bool)
    (named : targetOf book target = .ok name)
    (planned : book.catalog.plan name = .ok plan) :
    run terminal world target dryRun book =
      runTarget terminal world ⟨book, none, dryRun⟩ name plan := by
  simp only [run, named, planned]

/-- What is written on the way through a plan. -/
def passage (terminal : Terminal) (world : World) (job : Job) (name : String)
    (plan : List Recipe) : Output :=
  Terminal.opening job.book.source name (plan.map Recipe.name) ++
    terminal.events (job.runPlan world.surroundings plan).events

theorem runTarget_of_ok
    {name : String}
    {results : Results}
    (terminal : Terminal)
    (planned : job.book.catalog.plan name = .ok plan)
    (ended : (job.runPlan world.surroundings plan).result = .ok results) :
    runTarget terminal world job name plan =
      ⟨0, passage terminal world job name plan ++
          Terminal.summary (plan.map fun recipe => (recipe.name, job.status.text)),
        (job.runPlan world.surroundings plan).starts⟩ := by
  have own : job.book.plan (some name) = .ok plan := planned
  cases Job.results_runAll ended
  simp only [runTarget, Worker.run_of_ok Worker.fresh world.surroundings own, ended,
    List.map_map, passage]
  rfl

theorem runTarget_of_error
    {name : String}
    {stop : Stop}
    (terminal : Terminal)
    (planned : job.book.catalog.plan name = .ok plan)
    (ended : (job.runPlan world.surroundings plan).result = .error stop) :
    runTarget terminal world job name plan =
      ⟨exitCode stop, passage terminal world job name plan ++ report terminal stop,
        (job.runPlan world.surroundings plan).starts⟩ := by
  have own : job.book.plan (some name) = .ok plan := planned
  simp only [runTarget, Worker.run_of_ok Worker.fresh world.surroundings own, ended, passage]

/-- On the way through a plan the standard output tells the recipes that are entered. -/
theorem out_passage
    (terminal : Terminal)
    (world : World)
    (job : Job)
    (name : String)
    (plan : List Recipe) :
    (passage terminal world job name plan).out =
      (Terminal.opening job.book.source name (plan.map Recipe.name)).out ++
        Terminal.banners (job.runPlan world.surroundings plan).entered := by
  rw [passage, Output.out_append, Terminal.out_events]
  rfl

end Session

end Cookbook
