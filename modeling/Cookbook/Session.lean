import Cookbook.Arguments
import Cookbook.Book.Builtin
import Cookbook.Terminal
import Cookbook.Shelf

/-!
# Answering a command line

A session finds the book to use, does what is asked for, and reports it.  The
exit status is zero exactly when nothing stopped the work; otherwise the stop
decides it.  Only a run is ready for an interruption; anything else that is
interrupted is given up without a report.
-/

namespace Cookbook

/-- Files and processes, as a session meets them. -/
structure World where
  shelf : Shelf
  processes : Processes

/-- What a run of a job can observe of a world. -/
def World.surroundings (world : World) : Surroundings :=
  ⟨fun _ => world.shelf.isDirectory, world.processes⟩

/-- What comes of a command line. -/
structure Reply where
  exitCode : Nat
  output : Output
  starts : List Start
  deriving DecidableEq

namespace Reply

def after (output : Output) (reply : Reply) : Reply :=
  { reply with output := output ++ reply.output }

def success (output : Output) : Reply :=
  ⟨0, output, []⟩

end Reply

namespace Session

def exitCode : Stop → Nat
  | .abort (.interrupted _) => 130
  | stop => stop.exitCode?.getD 1

def report (terminal : Terminal) : Stop → Output
  | .abort (.interrupted _) => Terminal.notice "\nInterrupted by user"
  | stop => terminal.stopNotice stop

def fail (terminal : Terminal) (stop : Stop) : Reply :=
  ⟨exitCode stop, report terminal stop, []⟩

/-- The reply when nobody was ready for an interruption. -/
def aborted : Reply :=
  ⟨1, .errorLines ["", "Aborted!"], []⟩

/-- The reply to a stop of anything but a run. -/
def refuse (terminal : Terminal) : Stop → Reply
  | .abort (.interrupted _) => aborted
  | stop => fail terminal stop

/-- The reply of an action to a stop. -/
def handle (terminal : Terminal) : Action → Stop → Reply
  | .run _ _ => fail terminal
  | _ => refuse terminal

/-- The reply when the file that was asked for is missing. -/
def missingFile (file : String) : Reply :=
  ⟨2,
    Terminal.problem "Recipe file not found"
      ("Could not find recipe file: " ++ file)
      []
      (some ("Create a recipe file or specify a different path:\n" ++
        "  reciperun --file justfile run")),
    []⟩

/-- Goes on with a book that was loaded, or with why it was not. -/
def withLoaded (loaded : Except Stop Book) (stopped : Stop → Reply) (next : Book → Reply) :
    Reply :=
  match loaded with
  | .error stop => stopped stop
  | .ok book => next book

/--
Goes on with the book to use: that of the stated file, of a recipe file in the
working directory, or the built-in one.
-/
def withBook (terminal : Terminal) (shelf : Shelf) (file : Option String)
    (stopped : Stop → Reply) (next : Book → Reply) : Reply :=
  match file with
  | some file =>
    match shelf.contains (Path.ofString file) with
    | .error problem => stopped (.files problem)
    | .ok false => missingFile file
    | .ok true => withLoaded (shelf.bookAt (Path.ofString file)) stopped next
  | none =>
    match shelf.recipeFileIn? Path.here with
    | .error problem => stopped (.files problem)
    | .ok none =>
      (next Book.builtin).after
        (terminal.detail "no recipe file found, using built-in bridge recipes")
    | .ok (some path) =>
      (withLoaded (shelf.bookAt path) stopped next).after
        (terminal.detail ("using recipe file: " ++ path.toString))

/-- The stated target, or the default one. -/
def targetOf (book : Book) : Option String → Except Failure String
  | some target => .ok target
  | none => book.implicitTarget

/-- The reply to a run that was planned. -/
def runTarget (terminal : Terminal) (world : World) (job : Job) (target : String)
    (plan : List Recipe) : Reply :=
  let opening :=
    Terminal.opening job.book.source target (plan.map Recipe.name)
  let trace := (Worker.fresh.run job world.surroundings (some target)).2
  let output := opening ++ terminal.events trace.events
  match trace.result with
  | .ok results =>
    let rows := results.map fun row => (row.1, row.2.text)
    ⟨0, output ++ Terminal.summary rows, trace.starts⟩
  | .error stop =>
    ⟨exitCode stop, output ++ report terminal stop, trace.starts⟩

/-- Runs a target, or the default target. -/
def run (terminal : Terminal) (world : World) (target : Option String) (dryRun : Bool)
    (book : Book) : Reply :=
  match targetOf book target with
  | .error failure => fail terminal (.failure failure)
  | .ok name =>
    match book.catalog.plan name with
    | .error failure => fail terminal (.failure failure)
    | .ok plan => runTarget terminal world ⟨book, none, dryRun⟩ name plan

def list (book : Book) : Reply :=
  .success (Terminal.listing
    (book.catalog.recipes.map fun recipe => (recipe.name, recipe.aliases, recipe.doc)))

/-- The line that a plan shows for a step, behind the directory of the step if it has one. -/
def planLine (bindings : Bindings) (recipe : String) (step : Step) : Except Failure String :=
  match step.words bindings (some recipe) with
  | .error failure => .error failure
  | .ok command =>
    match step.directory with
    | none => .ok (Word.join command)
    | some template =>
      match bindings.expand template (some recipe) with
      | .error failure => .error failure
      | .ok directory => .ok ("(" ++ directory ++ ") " ++ Word.join command)

/-- The lines that a plan shows for the steps of a recipe. -/
def planLines (bindings : Bindings) (recipe : String) : List Step → Except Failure (List String)
  | [] => .ok []
  | step :: rest =>
    match planLine bindings recipe step with
    | .error failure => .error failure
    | .ok line => (line :: ·) <$> planLines bindings recipe rest

/-- What a plan shows for its recipes. -/
def planRows (bindings : Bindings) :
    List Recipe → Except Failure (List (String × List String))
  | [] => .ok []
  | recipe :: rest =>
    match planLines bindings recipe.name recipe.steps with
    | .error failure => .error failure
    | .ok lines => ((recipe.name, lines) :: ·) <$> planRows bindings rest

/-- What is shown as the plan of a target. -/
def plannedRows (book : Book) (target : Option String) :
    Except Failure (List (String × List String)) :=
  match targetOf book target with
  | .error failure => .error failure
  | .ok name =>
    match book.catalog.plan name with
    | .error failure => .error failure
    | .ok plan => planRows book.bindings plan

/-- Shows the plan of a target, or of the default target. -/
def plan (terminal : Terminal) (target : Option String) (book : Book) : Reply :=
  match plannedRows book target with
  | .error failure => refuse terminal (.failure failure)
  | .ok rows => .success (Terminal.planListing rows)

/-- Checks a book. -/
def check (terminal : Terminal) (book : Book) : Reply :=
  match book.check with
  | .error failure => refuse terminal (.failure failure)
  | .ok () =>
    .success (Terminal.notice
      (book.source ++ ": " ++ toString book.catalog.recipes.length ++ " recipe(s) OK"))

/-- Does what a request asks for with a book. -/
def perform (terminal : Terminal) (world : World) : Action → Book → Reply
  | .run target dryRun => run terminal world target dryRun
  | .list => list
  | .plan target => plan terminal target
  | .check => check terminal

/-- The reply to a request, with stops traced in debug mode as the caller says. -/
def answer (trace : Stop → String) (world : World) (request : Request) : Reply :=
  let terminal := Terminal.mk request.debug trace
  withBook terminal world.shelf request.file (handle terminal request.action)
    (perform terminal world request.action)

end Session

end Cookbook
