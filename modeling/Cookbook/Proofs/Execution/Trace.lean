import Cookbook.Proofs.Execution.Attempt

/-!
# Runs as traces

On a console that takes everything, what happens during a run can be told
without the worker: step by step, as the events of a trace and a result.  The
worker records what the trace records, and its phase tells how the trace ended.
-/

namespace Cookbook

namespace Job

/-- What happens when a task of a recipe is run, after some starts. -/
def runStep (job : Job) (surroundings : Surroundings) (past : List Start)
    (recipe : String) (step : Step) : Trace Unit :=
  match job.attempt ⟨recipe, step⟩ with
  | .error failure => ⟨[], .error (.failure failure)⟩
  | .ok attempt =>
    let shown := if job.shows step then [Event.shown attempt.command attempt.directory] else []
    if job.dryRun then
      ⟨shown, .ok ()⟩
    else
      ⟨shown ++ .recorded recipe attempt.command :: (job.start? attempt).toList.map .started,
        (job.outcome surroundings past attempt).mapError (Stop.ownedBy recipe)⟩

/-- What happens during steps, until one of them stops. -/
def runSteps (job : Job) (surroundings : Surroundings) (past : List Start)
    (recipe : String) : List Step → Trace Unit
  | [] => ⟨[], .ok ()⟩
  | step :: rest =>
    let first := job.runStep surroundings past recipe step
    match first.result with
    | .error stop => ⟨first.events, .error stop⟩
    | .ok () =>
      (job.runSteps surroundings (past ++ first.starts) recipe rest).after first.events

/-- What happens during a recipe, with the report of the stop if there is one. -/
def runRecipe (job : Job) (surroundings : Surroundings) (past : List Start)
    (recipe : Recipe) : Trace Unit :=
  let steps := job.runSteps surroundings past recipe.name recipe.steps
  match steps.result with
  | .ok () => steps.after [.entered recipe.name]
  | .error stop =>
    ⟨.entered recipe.name :: steps.events ++ [.stopped recipe.name stop], .error stop⟩

/-- What happens during recipes, until one of them stops. -/
def runAll (job : Job) (surroundings : Surroundings) (past : List Start) :
    List Recipe → Trace Results
  | [] => ⟨[], .ok []⟩
  | recipe :: rest =>
    let first := job.runRecipe surroundings past recipe
    match first.result with
    | .error stop => ⟨first.events, .error stop⟩
    | .ok () =>
      let later := job.runAll surroundings (past ++ first.starts) rest
      ⟨first.events ++ later.events, ((recipe.name, job.status) :: ·) <$> later.result⟩

def runPlan (job : Job) (surroundings : Surroundings) (plan : List Recipe) :
    Trace Results :=
  (job.runAll surroundings [] plan).after [.planned (plan.map Recipe.name)]

variable
    {job : Job}
    {surroundings : Surroundings}
    {past : List Start}
    {recipe : Recipe}

theorem runRecipe_of_ok
    (came : (job.runSteps surroundings past recipe.name recipe.steps).result = .ok ()) :
    job.runRecipe surroundings past recipe =
      ⟨.entered recipe.name :: (job.runSteps surroundings past recipe.name recipe.steps).events,
        .ok ()⟩ := by
  simp only [runRecipe, came, Trace.after]
  rfl

theorem runRecipe_of_error
    {stop : Stop}
    (came : (job.runSteps surroundings past recipe.name recipe.steps).result = .error stop) :
    job.runRecipe surroundings past recipe =
      ⟨.entered recipe.name ::
          (job.runSteps surroundings past recipe.name recipe.steps).events ++
            [.stopped recipe.name stop], .error stop⟩ := by
  simp only [runRecipe, came]

theorem runAll_of_error
    {rest : List Recipe}
    {stop : Stop}
    (came : (job.runRecipe surroundings past recipe).result = .error stop) :
    job.runAll surroundings past (recipe :: rest) =
      ⟨(job.runRecipe surroundings past recipe).events, .error stop⟩ := by
  simp only [runAll, came]

theorem runAll_of_ok
    {rest : List Recipe}
    {started : List Start}
    (came : (job.runRecipe surroundings past recipe).result = .ok ())
    (starts : (job.runRecipe surroundings past recipe).starts = started) :
    job.runAll surroundings past (recipe :: rest) =
      ⟨(job.runRecipe surroundings past recipe).events ++
          (job.runAll surroundings (past ++ started) rest).events,
        ((recipe.name, job.status) :: ·) <$>
          (job.runAll surroundings (past ++ started) rest).result⟩ := by
  simp only [runAll, came, starts]

end Job

namespace Engine

variable
    {engine : Engine}
    {job : Job}
    {surroundings : Surroundings}
    {recipe : String}
    {step : Step}
    {attempt : Attempt}
    {failure : Failure}

/-- The engine after some more events, with what they record in the history. -/
def extended (engine : Engine) (events : List Event) : Engine where
  worker :=
    { engine.worker with
      history := engine.worker.history ++ events.filterMap Event.record? }
  events := engine.events ++ events

/-- The engine in another phase. -/
def inPhase (engine : Engine) (phase : Phase) : Engine :=
  { engine with worker := { engine.worker with phase := phase } }

/-- A routine ends as a trace says, and the engine has seen its events. -/
def Traces (routine : Routine Unit) (engine : Engine) (trace : Trace Unit) : Prop :=
  routine engine =
    match trace.result with
    | .ok () => .ok () (engine.extended trace.events)
    | .error stop => .error stop (engine.extended trace.events)

theorem extended_nil :
    engine.extended [] = engine := by
  simp [extended]

theorem extended_append
    (front back : List Event) :
    (engine.extended front).extended back = engine.extended (front ++ back) := by
  simp [extended]

theorem starts_extended
    (events : List Event) :
    (engine.extended events).starts = engine.starts ++ events.filterMap Event.start? := by
  simp [extended, starts]

/-! ## Steps -/

/-- Writing about an event either is refused and changes nothing, or the event has happened. -/
theorem tell_eq
    (console : Console)
    (event : Event) :
    tell console event engine =
      match console engine.events event with
      | some stop => .error stop engine
      | none => note event engine := by
  show (match console engine.events event with
    | some stop => throw stop
    | none => note event : Routine Unit) engine = _
  cases console engine.events event with
  | some stop => rfl
  | none => rfl

theorem tell_working
    {event : Event}
    (unrecorded : event.record? = none) :
    tell .working event engine = .ok () (engine.extended [event]) := by
  show EStateM.Result.ok () { engine with events := engine.events ++ [event] } = _
  simp [extended, unrecorded]

theorem record_eq
    (command : List String) :
    record recipe command engine = .ok () (engine.extended [.recorded recipe command]) :=
  rfl

/-- Carrying out an attempt starts what it starts and comes to its outcome. -/
theorem carryOut_traces :
    Traces (carryOut surroundings attempt.command (job.place attempt)) engine
      ⟨(job.start? attempt).toList.map .started,
        job.outcome surroundings engine.starts attempt⟩ := by
  by_cases change : attempt.command.head? = some "cd"
  · simp only [Traces, carryOut, Job.start?, Job.outcome, if_pos change]
    show Program.yield (Job.enterDirectory surroundings engine.starts attempt.command
      (job.place attempt)) engine = _
    rw [Option.toList, List.map_nil, extended_nil]
    cases Job.enterDirectory surroundings engine.starts attempt.command (job.place attempt) with
    | ok _ => rfl
    | error stop => rfl
  · simp only [Traces, carryOut, Job.start?, Job.outcome, if_neg change]
    have noted : note (.started ⟨attempt.command, (job.place attempt).map Path.toString⟩) engine =
        .ok () (engine.extended
          [.started ⟨attempt.command, (job.place attempt).map Path.toString⟩]) :=
      tell_working rfl
    show (note _ >>= fun _ => Program.yield _) engine = _
    rw [Program.bind_of_ok noted, Option.toList, List.map_singleton]
    cases (surroundings.processes engine.starts
      ⟨attempt.command, (job.place attempt).map Path.toString⟩).verdict attempt.command with
    | ok _ => rfl
    | error stop => rfl

theorem relabelled_traces
    {routine : Routine Unit}
    {events : List Event}
    {result : Except Stop Unit}
    {rename : Stop → Stop}
    (traces : Traces routine engine ⟨events, result⟩) :
    Traces (Program.relabelled rename routine) engine ⟨events, result.mapError rename⟩ := by
  cases result with
  | ok _ => exact Program.relabelled_of_ok traces
  | error stop => exact Program.relabelled_of_error traces

theorem after_traces
    {first : Routine Unit}
    {next : Unit → Routine Unit}
    {front back : List Event}
    {result : Except Stop Unit}
    (ran : first engine = .ok () (engine.extended front))
    (traces : Traces (next ()) (engine.extended front) ⟨back, result⟩) :
    Traces (first >>= next) engine ⟨front ++ back, result⟩ := by
  rw [Traces, Program.bind_of_ok ran, traces]
  simp only [extended_append]

theorem runStep_of_attempt
    (console : Console)
    (filled : job.attempt ⟨recipe, step⟩ = .ok attempt) :
    runStep console surroundings job recipe step = (do
      echo console job step attempt.command attempt.directory
      if job.dryRun then
        pure ()
      else
        record recipe attempt.command
        Program.relabelled (Stop.ownedBy recipe)
          (carryOut surroundings attempt.command (job.place attempt))) := by
  rcases Job.filled_of_attempt filled with ⟨words, place⟩
  rw [runStep, words, place]
  rfl

theorem runStep_of_unfilled
    (console : Console)
    (unfilled : job.attempt ⟨recipe, step⟩ = .error failure) :
    runStep console surroundings job recipe step engine = .error (.failure failure) engine := by
  rw [Job.attempt] at unfilled
  rw [runStep]
  cases words : step.words job.book.bindings (some recipe) with
  | error problem =>
    rw [words] at unfilled
    cases unfilled
    rfl
  | ok command =>
    rw [words] at unfilled
    cases place : step.place job.book.bindings (some recipe) with
    | error problem =>
      rw [place] at unfilled
      cases unfilled
      rfl
    | ok directory =>
      rw [place] at unfilled
      cases unfilled

/-- The events that show an attempt of a step before it is carried out. -/
theorem echo_working
    (step : Step) :
    echo .working job step attempt.command attempt.directory engine =
      .ok () (engine.extended
        (if job.shows step then [.shown attempt.command attempt.directory] else [])) := by
  rw [echo]
  cases job.shows step with
  | true => exact tell_working rfl
  | false => exact congrArg (EStateM.Result.ok ()) extended_nil.symm

theorem runStep_traces
    (step : Step) :
    Traces (runStep .working surroundings job recipe step) engine
      (job.runStep surroundings engine.starts recipe step) := by
  cases filled : job.attempt ⟨recipe, step⟩ with
  | error failure =>
    rw [Traces, runStep_of_unfilled .working filled, Job.runStep, filled]
    exact congrArg (EStateM.Result.error _) extended_nil.symm
  | ok attempt =>
    have shown := @echo_working engine job attempt step
    have nothing : ((if job.shows step then [Event.shown attempt.command attempt.directory]
        else []) : List Event).filterMap Event.start? = [] := by
      cases job.shows step <;> rfl
    rw [runStep_of_attempt .working filled, Job.runStep, filled]
    cases dry : job.dryRun with
    | true =>
      rw [Traces, Program.bind_of_ok shown]
      rfl
    | false =>
      refine after_traces shown (after_traces (record_eq attempt.command) ?_)
      have carried := @carryOut_traces
        ((engine.extended (if job.shows step then
            [.shown attempt.command attempt.directory] else [])).extended
          [.recorded recipe attempt.command]) job surroundings attempt
      have same : engine.starts ++ ([] ++ [Event.recorded recipe attempt.command].filterMap
          Event.start?) = engine.starts := List.append_nil _
      rw [extended_append, starts_extended, List.filterMap_append, nothing, same] at carried
      rw [extended_append]
      exact relabelled_traces carried

theorem runSteps_traces
    (steps : List Step) :
    Traces (runSteps .working surroundings job recipe steps) engine
      (job.runSteps surroundings engine.starts recipe steps) := by
  induction steps generalizing engine with
  | nil => exact congrArg (EStateM.Result.ok ()) extended_nil.symm
  | cons step rest ih =>
    have first := @runStep_traces engine job surroundings recipe step
    rw [Job.runSteps, runSteps]
    cases came : (job.runStep surroundings engine.starts recipe step).result with
    | error stop =>
      rw [Traces, came] at first
      exact Program.bind_of_error first
    | ok _ =>
      rw [Traces, came] at first
      have later := @ih (engine.extended (job.runStep surroundings engine.starts recipe step).events)
      rw [starts_extended] at later
      exact after_traces first later

/-! ## Recipes -/

theorem giveUp_working
    {stop : Stop} :
    giveUp .working recipe stop engine =
      .ok () ((engine.extended [.stopped recipe stop]).inPhase .failed) := by
  show tell .working (.stopped recipe stop) (engine.inPhase .failed) = _
  rw [tell_working rfl]
  rfl

/-- A recipe that stops leaves the worker behind as failed. -/
theorem runRecipe_eq
    (recipe : Recipe) :
    runRecipe .working surroundings job recipe engine =
      match (job.runRecipe surroundings engine.starts recipe).result with
      | .ok () =>
        .ok () (engine.extended (job.runRecipe surroundings engine.starts recipe).events)
      | .error stop =>
        .error stop
          ((engine.extended (job.runRecipe surroundings engine.starts recipe).events).inPhase
            .failed) := by
  have entered : tell .working (.entered recipe.name) engine =
      .ok () (engine.extended [.entered recipe.name]) := tell_working rfl
  have steps := @runSteps_traces (engine.extended [.entered recipe.name]) job surroundings
    recipe.name recipe.steps
  have same : (engine.extended [.entered recipe.name]).starts = engine.starts := by
    rw [starts_extended]
    exact List.append_nil _
  rw [same, Traces] at steps
  rw [runRecipe, Program.bind_of_ok entered]
  cases came : (job.runSteps surroundings engine.starts recipe.name recipe.steps).result with
  | ok _ =>
    rw [came] at steps
    rw [Program.guarded_of_ok steps, Job.runRecipe_of_ok came, extended_append]
    rfl
  | error stop =>
    rw [came] at steps
    rw [Program.guarded_of_error steps, extended_append, Job.runRecipe_of_error came,
      Program.bind_of_ok giveUp_working, extended_append]
    rfl

theorem runRecipes_eq
    (plan : List Recipe) :
    runRecipes .working surroundings job plan engine =
      match (job.runAll surroundings engine.starts plan).result with
      | .ok results =>
        .ok results (engine.extended (job.runAll surroundings engine.starts plan).events)
      | .error stop =>
        .error stop
          ((engine.extended (job.runAll surroundings engine.starts plan).events).inPhase
            .failed) := by
  induction plan generalizing engine with
  | nil => exact congrArg (EStateM.Result.ok []) extended_nil.symm
  | cons recipe rest ih =>
    have first := @runRecipe_eq engine job surroundings recipe
    rw [runRecipes]
    cases came : (job.runRecipe surroundings engine.starts recipe).result with
    | error stop =>
      rw [came] at first
      rw [Job.runAll_of_error came, Program.bind_of_error first]
    | ok _ =>
      rw [came] at first
      have later := @ih
        (engine.extended (job.runRecipe surroundings engine.starts recipe).events)
      have whole := @Job.runAll_of_ok job surroundings engine.starts recipe rest _ came rfl
      rw [starts_extended] at later
      change runRecipes .working surroundings job rest _ =
        match (job.runAll surroundings (engine.starts ++
          (job.runRecipe surroundings engine.starts recipe).starts) rest).result with
        | .ok results => _
        | .error stop => _ at later
      rw [whole, Program.bind_of_ok first]
      cases ended : (job.runAll surroundings (engine.starts ++
          (job.runRecipe surroundings engine.starts recipe).starts) rest).result with
      | ok results =>
        rw [ended] at later
        rw [Program.bind_of_ok later, extended_append]
        rfl
      | error stop =>
        rw [ended] at later
        rw [Program.bind_of_error later, extended_append]
        rfl

/-! ## Targets -/

/-- Without a plan, a run leaves the worker as failed and without a history. -/
theorem run_of_error
    {target : Option String}
    (console : Console)
    (surroundings : Surroundings)
    (engine : Engine)
    (unplanned : job.book.plan target = .error failure) :
    run console surroundings job target engine =
      .error (.failure failure) ⟨⟨.failed, []⟩, engine.events⟩ := by
  rw [run, unplanned]
  rfl

/-- With a plan, a run announces it and goes through its recipes, without an earlier history. -/
theorem run_of_ok
    {target : Option String}
    {plan : List Recipe}
    (console : Console)
    (surroundings : Surroundings)
    (engine : Engine)
    (planned : job.book.plan target = .ok plan) :
    run console surroundings job target engine =
      (do
        tell console (.planned (plan.map Recipe.name))
        reach .running
        let results ← runRecipes console surroundings job plan
        reach .succeeded
        return results : Routine Results) ⟨⟨.resolving, []⟩, engine.events⟩ := by
  rw [run, planned]
  rfl

/-- A run whose plan cannot be announced is stopped there. -/
theorem run_of_refused
    {console : Console}
    {target : Option String}
    {plan : List Recipe}
    {stop : Stop}
    (surroundings : Surroundings)
    (planned : job.book.plan target = .ok plan)
    (refused : console engine.events (.planned (plan.map Recipe.name)) = some stop) :
    run console surroundings job target engine =
      .error stop ⟨⟨.resolving, []⟩, engine.events⟩ := by
  have announced := @tell_eq ⟨⟨.resolving, []⟩, engine.events⟩ console
    (.planned (plan.map Recipe.name))
  rw [refused] at announced
  rw [run_of_ok console surroundings engine planned, Program.bind_of_error announced]

/-- A run whose plan is announced goes through the recipes of the plan. -/
theorem run_of_announced
    {console : Console}
    {target : Option String}
    {plan : List Recipe}
    (surroundings : Surroundings)
    (planned : job.book.plan target = .ok plan)
    (taken : console engine.events (.planned (plan.map Recipe.name)) = none) :
    run console surroundings job target engine =
      (do
        let results ← runRecipes console surroundings job plan
        reach .succeeded
        return results : Routine Results)
        ⟨⟨.running, []⟩, engine.events ++ [.planned (plan.map Recipe.name)]⟩ := by
  have announced := @tell_eq ⟨⟨.resolving, []⟩, engine.events⟩ console
    (.planned (plan.map Recipe.name))
  rw [taken] at announced
  rw [run_of_ok console surroundings engine planned, Program.bind_of_ok announced]
  rfl

end Engine

namespace Worker

variable
    {job : Job}
    {console : Console}
    {surroundings : Surroundings}
    {worker : Worker}
    {target : Option String}
    {engine : Engine}

theorem runOn_of_ok
    {results : Results}
    (ran : Engine.run console surroundings job target ⟨worker, []⟩ = .ok results engine) :
    worker.runOn console job surroundings target =
      (engine.worker, ⟨engine.events, .ok results⟩) := by
  simp only [runOn, Program.left, Program.result, ran]

theorem runOn_of_error
    {stop : Stop}
    (ran : Engine.run console surroundings job target ⟨worker, []⟩ = .error stop engine) :
    worker.runOn console job surroundings target =
      (engine.worker, ⟨engine.events, .error stop⟩) := by
  simp only [runOn, Program.left, Program.result, ran]

theorem run_of_error
    {failure : Failure}
    (worker : Worker)
    (surroundings : Surroundings)
    (unplanned : job.book.plan target = .error failure) :
    worker.run job surroundings target =
      (⟨.failed, []⟩, ⟨[], .error (.failure failure)⟩) :=
  runOn_of_error (Engine.run_of_error .working surroundings ⟨worker, []⟩ unplanned)

/-- On a console that takes everything, the run of a plan is the trace of its recipes. -/
theorem run_of_ok
    {plan : List Recipe}
    (worker : Worker)
    (surroundings : Surroundings)
    (planned : job.book.plan target = .ok plan) :
    worker.run job surroundings target =
      (⟨if (job.runPlan surroundings plan).result.isOk then .succeeded else .failed,
          (job.runPlan surroundings plan).history⟩,
        job.runPlan surroundings plan) := by
  let running : Engine := ⟨⟨.running, []⟩, [.planned (plan.map Recipe.name)]⟩
  have ran := @Engine.run_of_announced ⟨worker, []⟩ _ .working _ _ surroundings planned rfl
  have recipes := @Engine.runRecipes_eq running job surroundings plan
  have unstarted : running.starts = [] := rfl
  rw [unstarted] at recipes
  rcases whole : job.runAll surroundings [] plan with ⟨events, result⟩
  have trace : job.runPlan surroundings plan =
      ⟨.planned (plan.map Recipe.name) :: events, result⟩ := by
    rw [Job.runPlan, whole]
    rfl
  rw [whole] at recipes
  rw [trace]
  cases result with
  | ok results => exact runOn_of_ok (ran.trans (Program.bind_of_ok recipes))
  | error stop => exact runOn_of_error (ran.trans (Program.bind_of_error recipes))

end Worker

end Cookbook
