import Cookbook.Book.Basic
import Cookbook.Path
import Cookbook.Process
import Cookbook.Program

/-!
# Running a target

A run works through the recipes of a plan, step by step, and stops at the
first step that fails.  What happens on the way is a list of events: the
commands that are shown, recorded and started, the recipes that are entered,
and the stop.  A dry run shows every command and does nothing else.

The worker that runs a target keeps its phase and its history while it runs, so
a run that stops leaves both as they are by then.  A stop while the plan is
looked up or while a recipe is worked through is noticed, and the worker counts
as failed; a stop in between, when the plan or a recipe is announced, is not.

Processes and directories are parameters, and so is whether anything can be
written, so a run is a function of the book and of what its surroundings
answer.
-/

namespace Cookbook

/--
What a run can observe besides its book.  Both may depend on the processes that
the run has started before.
-/
structure Surroundings where
  isDirectory : List Start → Path → Except FileProblem Bool
  processes : Processes

/-- What is to be run, and how. -/
structure Job where
  book : Book
  workdir : Option Path
  dryRun : Bool

/-- What happens during a run. -/
inductive Event
  | planned (recipes : List String)
  | entered (recipe : String)
  | shown (command : List String) (directory : Option String)
  | recorded (recipe : String) (command : List String)
  | started (start : Start)
  | stopped (recipe : String) (stop : Stop)
  deriving DecidableEq

namespace Event

def start? : Event → Option Start
  | .started start => some start
  | _ => none

def record? : Event → Option (String × List String)
  | .recorded recipe command => some (recipe, command)
  | _ => none

def shown? : Event → Option (List String × Option String)
  | .shown command directory => some (command, directory)
  | _ => none

end Event

/-- What happened, and what came of it. -/
structure Trace (Value : Type) where
  events : List Event
  result : Except Stop Value

namespace Trace

def starts {Value : Type} (trace : Trace Value) : List Start :=
  trace.events.filterMap Event.start?

def history {Value : Type} (trace : Trace Value) : List (String × List String) :=
  trace.events.filterMap Event.record?

def after {Value : Type} (events : List Event) (trace : Trace Value) : Trace Value :=
  ⟨events ++ trace.events, trace.result⟩

@[simp]
theorem after_nil
    {Value : Type}
    (trace : Trace Value) :
    trace.after [] = trace :=
  rfl

@[simp]
theorem result_after
    {Value : Type}
    (events : List Event)
    (trace : Trace Value) :
    (trace.after events).result = trace.result :=
  rfl

@[simp]
theorem starts_after
    {Value : Type}
    (events : List Event)
    (trace : Trace Value) :
    (trace.after events).starts = events.filterMap Event.start? ++ trace.starts := by
  simp [starts, after]

@[simp]
theorem history_after
    {Value : Type}
    (events : List Event)
    (trace : Trace Value) :
    (trace.after events).history = events.filterMap Event.record? ++ trace.history := by
  simp [history, after]

end Trace

/-- How a recipe of a finished run fared. -/
inductive Status
  | done
  | skipped
  deriving DecidableEq

def Status.text : Status → String
  | .done => "ok"
  | .skipped => "skipped(dry-run)"

/-- The recipes of a finished run with their status, in order. -/
abbrev Results :=
  List (String × Status)

namespace Job

/-- The directory a step works in, if it or the job chooses one. -/
def startDirectory (job : Job) : Option String → Option Path
  | none => job.workdir
  | some chosen => some ((job.workdir.getD Path.here).join chosen)

/--
Changing the directory, after some starts, only checks that the directory
exists: the later steps of the line carry their own directory.
-/
def enterDirectory (surroundings : Surroundings) (past : List Start) (command : List String)
    (directory : Option Path) : Except Stop Unit :=
  match command with
  | [_, target] =>
    let destination := (directory.getD Path.here).join target
    match surroundings.isDirectory past destination with
    | .error problem => .error (.files problem)
    | .ok true => .ok ()
    | .ok false =>
      .error (.failure (.commandFailed command 1 none
        (some ("cd: no such directory: " ++ destination.toString))))
  | _ =>
    .error (.failure (.commandFailed command 1 none
      (some "cd: expected exactly one directory")))

/-- Whether a step is shown before it is carried out. -/
def shows (job : Job) (step : Step) : Bool :=
  !step.quiet || job.dryRun

/-- How a recipe that did not stop fared. -/
def status (job : Job) : Status :=
  if job.dryRun then .skipped else .done

end Job

/-- How far a worker has got with its last run. -/
inductive Phase
  | idle
  | resolving
  | running
  | succeeded
  | failed
  deriving DecidableEq

def Phase.text : Phase → String
  | .idle => "idle"
  | .resolving => "resolving"
  | .running => "running"
  | .succeeded => "succeeded"
  | .failed => "failed"

/-- What runs leave behind: a phase, and the commands of its last run. -/
structure Worker where
  phase : Phase
  history : List (String × List String)

def Worker.fresh : Worker :=
  ⟨.idle, []⟩

/--
What comes of writing about an event, after the events before it: nothing
unless it is refused with a stop.
-/
abbrev Console :=
  List Event → Event → Option Stop

/-- A console that takes everything. -/
def Console.working : Console :=
  fun _ _ => none

/-- A worker in the middle of a run, with what has happened in the run so far. -/
structure Engine where
  worker : Worker
  events : List Event

namespace Engine

/-- What is done during a run, until something stops it. -/
abbrev Routine :=
  Program Stop Engine

/-- The processes that the run has started. -/
def starts (engine : Engine) : List Start :=
  engine.events.filterMap Event.start?

def reach (phase : Phase) : Routine Unit :=
  modify fun engine => { engine with worker := { engine.worker with phase := phase } }

def forget : Routine Unit :=
  modify fun engine => { engine with worker := { engine.worker with history := [] } }

def note (event : Event) : Routine Unit :=
  modify fun engine => { engine with events := engine.events ++ [event] }

/-- Writes about an event.  If that is refused, the event has not happened. -/
def tell (console : Console) (event : Event) : Routine Unit := do
  match console (← get).events event with
  | some stop => throw stop
  | none => note event

/-- Adds a command to the history. -/
def record (recipe : String) (command : List String) : Routine Unit := do
  modify fun engine =>
    { engine with
      worker := { engine.worker with history := engine.worker.history ++ [(recipe, command)] } }
  note (.recorded recipe command)

/-- Starts a process and waits for its end. -/
def launch (processes : Processes) (start : Start) : Routine Unit := do
  let past := (← get).starts
  note (.started start)
  Program.yield ((processes past start).verdict start.command)

/-- Carries out a command: a change of directory here, anything else as a process. -/
def carryOut (surroundings : Surroundings) (command : List String) (directory : Option Path) :
    Routine Unit := do
  if command.head? = some "cd" then
    let past := (← get).starts
    Program.yield (Job.enterDirectory surroundings past command directory)
  else
    launch surroundings.processes ⟨command, directory.map Path.toString⟩

variable (console : Console) (surroundings : Surroundings) (job : Job)

/-- Shows the command of a step, unless it is quiet. -/
def echo (step : Step) (command : List String) (directory : Option String) : Routine Unit :=
  if job.shows step then tell console (.shown command directory) else pure ()

/-- Runs a step of a recipe.  Both of its templates are filled in before anything is shown. -/
def runStep (recipe : String) (step : Step) : Routine Unit := do
  let command ← Program.yield
    ((step.words job.book.bindings (some recipe)).mapError Stop.failure)
  let directory ← Program.yield
    ((step.place job.book.bindings (some recipe)).mapError Stop.failure)
  echo console job step command directory
  if job.dryRun then
    pure ()
  else
    record recipe command
    Program.relabelled (Stop.ownedBy recipe)
      (carryOut surroundings command (job.startDirectory directory))

def runSteps (recipe : String) : List Step → Routine Unit
  | [] => pure ()
  | step :: rest => do
    runStep console surroundings job recipe step
    runSteps recipe rest

/-- Reports that a recipe stopped. -/
def giveUp (recipe : String) (stop : Stop) : Routine Unit := do
  reach .failed
  tell console (.stopped recipe stop)

/-- Announces a recipe and runs its steps.  A stop among the steps is reported. -/
def runRecipe (recipe : Recipe) : Routine Unit := do
  tell console (.entered recipe.name)
  Program.guarded (runSteps console surroundings job recipe.name recipe.steps)
    (giveUp console recipe.name)

/-- Runs recipes until one of them stops. -/
def runRecipes : List Recipe → Routine Results
  | [] => return []
  | recipe :: rest => do
    runRecipe console surroundings job recipe
    let later ← runRecipes rest
    return (recipe.name, job.status) :: later

/-- Runs a target, or the default target. -/
def run (target : Option String) : Routine Results := do
  reach .resolving
  forget
  let plan ← Program.guarded
    (Program.yield ((job.book.plan target).mapError Stop.failure)) fun _ => reach .failed
  tell console (.planned (plan.map Recipe.name))
  reach .running
  let results ← runRecipes console surroundings job plan
  reach .succeeded
  return results

end Engine

/-- What a worker can be asked for, each with a target or for the default one. -/
inductive Call
  | run (target : Option String)
  | plan (target : Option String)
  deriving DecidableEq

/-- What a worker answers to a call. -/
inductive Answer
  | ran (trace : Trace Results)
  | planned (result : Except Failure (List Recipe))

namespace Worker

/-- Runs a target, or the default target, and writes about it on a console. -/
def runOn (console : Console) (worker : Worker) (job : Job) (surroundings : Surroundings)
    (target : Option String) : Worker × Trace Results :=
  let routine := Engine.run console surroundings job target
  let left := Program.left routine ⟨worker, []⟩
  (left.worker, ⟨left.events, Program.result routine ⟨worker, []⟩⟩)

/-- Runs a target, or the default target, on a console that takes everything. -/
def run (worker : Worker) (job : Job) (surroundings : Surroundings)
    (target : Option String) : Worker × Trace Results :=
  worker.runOn .working job surroundings target

/-- Answers a call.  Only a run changes the worker. -/
def handle (console : Console) (worker : Worker) (job : Job) (surroundings : Surroundings) :
    Call → Worker × Answer
  | .run target =>
    let (later, trace) := worker.runOn console job surroundings target
    (later, .ran trace)
  | .plan target => (worker, .planned (job.book.plan target))

/-- Answers calls in order; each answer comes with the worker as it is afterwards. -/
def handleAll (console : Console) (worker : Worker) (job : Job) (surroundings : Surroundings) :
    List Call → List (Worker × Answer)
  | [] => []
  | call :: rest =>
    let answered := worker.handle console job surroundings call
    answered :: answered.1.handleAll console job surroundings rest

end Worker

end Cookbook
