import Cookbook.Execution
import Cookbook.Proofs.Except

/-!
# Attempts

A plan stands for a list of tasks: the steps of its recipes, in order.  A task
whose variables all have values becomes an attempt, and what comes of an
attempt depends on the surroundings and on the processes started before.  A
real run is a course of attempts that breaks off at the first task that cannot
be filled in and after the first attempt that fails.
-/

namespace Cookbook

/-- A step that is to be run on behalf of a recipe. -/
structure Task where
  recipe : String
  step : Step
  deriving DecidableEq

/-- The tasks of a recipe, in the order of its steps. -/
def Recipe.tasks (recipe : Recipe) : List Task :=
  recipe.steps.map fun step => ⟨recipe.name, step⟩

/-- The tasks of a plan, recipe after recipe. -/
def tasksOf (plan : List Recipe) : List Task :=
  plan.flatMap Recipe.tasks

/-- A command with its directory on behalf of a recipe, all variables filled in. -/
structure Attempt where
  recipe : String
  command : List String
  directory : Option String
  quiet : Bool
  deriving DecidableEq

/-- The entry of an attempt in the history of commands. -/
def Attempt.record (attempt : Attempt) : String × List String :=
  (attempt.recipe, attempt.command)

/-- What is shown of an attempt. -/
def Attempt.echo (attempt : Attempt) : List String × Option String :=
  (attempt.command, attempt.directory)

namespace Job

/-- The attempt that a task becomes when its command and then its directory are filled in. -/
def attempt (job : Job) (task : Task) : Except Failure Attempt :=
  match task.step.words job.book.bindings (some task.recipe) with
  | .error failure => .error failure
  | .ok command =>
    match task.step.place job.book.bindings (some task.recipe) with
    | .error failure => .error failure
    | .ok directory => .ok ⟨task.recipe, command, directory, task.step.quiet⟩

/-- The directory that an attempt works in, if it or the job chooses one. -/
def place (job : Job) (attempt : Attempt) : Option Path :=
  job.startDirectory attempt.directory

/-- The process that an attempt starts; a change of directory starts none. -/
def start? (job : Job) (attempt : Attempt) : Option Start :=
  if attempt.command.head? = some "cd" then none
  else some ⟨attempt.command, (job.place attempt).map Path.toString⟩

/-- The processes that attempts start, in order. -/
def starts (job : Job) (attempts : List Attempt) : List Start :=
  attempts.filterMap job.start?

/-- What comes of an attempt after some process starts. -/
def outcome (job : Job) (surroundings : Surroundings) (past : List Start)
    (attempt : Attempt) : Except Stop Unit :=
  match job.start? attempt with
  | none => enterDirectory surroundings past attempt.command (job.place attempt)
  | some start => (surroundings.processes past start).verdict attempt.command

/-- The path that an attempt works at. -/
def workplace (job : Job) (attempt : Attempt) : Path :=
  (job.place attempt).getD Path.here

/-- Where an attempt leads that changes to a directory. -/
def destination (job : Job) (attempt : Attempt) (target : String) : Path :=
  (job.workplace attempt).join target

/--
An attempt succeeds if it changes to one directory that is there, or if it
starts a process that ends with code zero.
-/
def Succeeds (job : Job) (surroundings : Surroundings) (past : List Start)
    (attempt : Attempt) : Prop :=
  match job.start? attempt with
  | none =>
    ∃ target, attempt.command = ["cd", target] ∧
      surroundings.isDirectory past (job.destination attempt target) = .ok true
  | some start => surroundings.processes past start = .exited 0

/-- What an attempt does that can be observed: it is shown unless quiet, recorded, and started. -/
def actions (job : Job) (attempt : Attempt) : List Event :=
  (if attempt.quiet then [] else [.shown attempt.command attempt.directory]) ++
    .recorded attempt.recipe attempt.command :: (job.start? attempt).toList.map .started

/-- How attempts follow each other in a real run of tasks, and what comes of the run. -/
inductive Course (job : Job) (surroundings : Surroundings) :
    List Start → List Task → List Attempt → Except Stop Unit → Prop
  | done {past : List Start} :
      Course job surroundings past [] [] (.ok ())
  | unfilled {past : List Start} {task : Task} {rest : List Task} {failure : Failure}
      (problem : job.attempt task = .error failure) :
      Course job surroundings past (task :: rest) [] (.error (.failure failure))
  | broken {past : List Start} {task : Task} {rest : List Task} {attempt : Attempt}
      {cause : Stop}
      (filled : job.attempt task = .ok attempt)
      (failed : job.outcome surroundings past attempt = .error cause) :
      Course job surroundings past (task :: rest) [attempt]
        (.error (cause.ownedBy attempt.recipe))
  | more {past : List Start} {task : Task} {rest : List Task} {attempt : Attempt}
      {later : List Attempt} {result : Except Stop Unit}
      (filled : job.attempt task = .ok attempt)
      (succeeded : job.outcome surroundings past attempt = .ok ())
      (course :
        Course job surroundings (past ++ (job.start? attempt).toList) rest later result) :
      Course job surroundings past (task :: rest) (attempt :: later) result

variable
    {job : Job}
    {surroundings : Surroundings}
    {past : List Start}
    {attempt : Attempt}

@[simp]
theorem starts_nil :
    job.starts [] = [] :=
  rfl

@[simp]
theorem starts_cons
    (later : List Attempt) :
    job.starts (attempt :: later) = (job.start? attempt).toList ++ job.starts later := by
  simp only [starts, List.filterMap_cons]
  cases job.start? attempt <;> rfl

@[simp]
theorem starts_append
    (front back : List Attempt) :
    job.starts (front ++ back) = job.starts front ++ job.starts back :=
  List.filterMap_append

/-! ## What an attempt is filled in from -/

theorem attempt_eq_ok_iff
    {task : Task} :
    job.attempt task = .ok attempt ↔
      task.step.words job.book.bindings (some task.recipe) = .ok attempt.command ∧
        task.step.place job.book.bindings (some task.recipe) = .ok attempt.directory ∧
          attempt.recipe = task.recipe ∧ attempt.quiet = task.step.quiet := by
  rw [Job.attempt]
  cases task.step.words job.book.bindings (some task.recipe) with
  | error failure => simp
  | ok command =>
    cases task.step.place job.book.bindings (some task.recipe) with
    | error failure => simp
    | ok directory =>
      rcases attempt with ⟨recipe, words, place, quiet⟩
      simp only [Except.ok.injEq, Attempt.mk.injEq]
      constructor
      · rintro ⟨rfl, rfl, rfl, rfl⟩
        exact ⟨rfl, rfl, rfl, rfl⟩
      · rintro ⟨rfl, rfl, rfl, rfl⟩
        exact ⟨rfl, rfl, rfl, rfl⟩

theorem filled_of_attempt
    {task : Task}
    (filled : job.attempt task = .ok attempt) :
    task.step.words job.book.bindings (some task.recipe) = .ok attempt.command ∧
      task.step.place job.book.bindings (some task.recipe) = .ok attempt.directory :=
  ⟨(attempt_eq_ok_iff.mp filled).1, (attempt_eq_ok_iff.mp filled).2.1⟩

/-- A task that cannot be filled in has no command, or else no directory. -/
theorem unfilled_of_attempt
    {task : Task}
    {failure : Failure}
    (problem : job.attempt task = .error failure) :
    task.step.words job.book.bindings (some task.recipe) = .error failure ∨
      task.step.place job.book.bindings (some task.recipe) = .error failure := by
  rw [Job.attempt] at problem
  split at problem
  · rename_i words
    cases problem
    exact Or.inl words
  · split at problem
    · rename_i place
      cases problem
      exact Or.inr place
    · cases problem

/-! ## When an attempt succeeds -/

theorem verdict_eq_ok_iff
    {command : List String}
    {outcome : Outcome} :
    outcome.verdict command = .ok () ↔ outcome = .exited 0 := by
  cases outcome with
  | exited code =>
    by_cases zero : code = 0
    · simp [Outcome.verdict, zero]
    · by_cases negative : code < 0 <;> simp [Outcome.verdict, zero, negative]
  | denied => simp [Outcome.verdict]
  | unavailable => simp [Outcome.verdict]
  | aborted => simp [Outcome.verdict]

theorem enterDirectory_eq_ok_iff
    {command : List String}
    {directory : Option Path}
    (change : command.head? = some "cd") :
    enterDirectory surroundings past command directory = .ok () ↔
      ∃ target, command = ["cd", target] ∧
        surroundings.isDirectory past ((directory.getD Path.here).join target) = .ok true := by
  match command with
  | [] => cases change
  | [_] => simp [enterDirectory]
  | first :: second :: third :: rest => simp [enterDirectory]
  | [first, target] =>
    cases Option.some.inj change
    simp only [enterDirectory, List.cons.injEq, and_true, true_and, exists_eq_left']
    split <;> simp_all

theorem outcome_eq_ok_iff :
    job.outcome surroundings past attempt = .ok () ↔
      job.Succeeds surroundings past attempt := by
  by_cases change : attempt.command.head? = some "cd"
  · simp only [outcome, Succeeds, start?, if_pos change]
    exact enterDirectory_eq_ok_iff change
  · simp only [outcome, Succeeds, start?, if_neg change]
    exact verdict_eq_ok_iff

theorem changes_of_succeeds
    (change : attempt.command.head? = some "cd")
    (succeeds : job.Succeeds surroundings past attempt) :
    ∃ target, attempt.command = ["cd", target] := by
  simp only [Succeeds, start?, if_pos change] at succeeds
  rcases succeeds with ⟨target, whole, _⟩
  exact ⟨target, whole⟩

/-! ## Taking courses apart -/

theorem Course.uncons
    {tasks : List Task}
    {later : List Attempt}
    {result : Except Stop Unit}
    (course : job.Course surroundings past tasks (attempt :: later) result) :
    ∃ task rest, tasks = task :: rest ∧ job.attempt task = .ok attempt ∧
      (later ≠ [] →
        job.Succeeds surroundings past attempt ∧
          job.Course surroundings (past ++ (job.start? attempt).toList) rest later result) := by
  cases course with
  | broken filled failed => exact ⟨_, _, rfl, filled, fun more => absurd rfl more⟩
  | more filled succeeded course =>
    exact ⟨_, _, rfl, filled, fun _ => ⟨outcome_eq_ok_iff.mp succeeded, course⟩⟩

/-- A task that can be filled in is attempted, and if it succeeds, the course goes on. -/
theorem Course.cons_of_filled
    {task : Task}
    {rest : List Task}
    {attempts : List Attempt}
    {result : Except Stop Unit}
    (course : job.Course surroundings past (task :: rest) attempts result)
    (filled : job.attempt task = .ok attempt) :
    ∃ later, attempts = attempt :: later ∧
      (job.Succeeds surroundings past attempt →
        job.Course surroundings (past ++ (job.start? attempt).toList) rest later result) := by
  cases course with
  | unfilled problem =>
    rw [filled] at problem
    cases problem
  | broken found failed =>
    rw [filled] at found
    cases found
    refine ⟨[], rfl, ?_⟩
    intro succeeds
    rw [outcome_eq_ok_iff.mpr succeeds] at failed
    cases failed
  | @more _ _ _ _ later _ found _ course =>
    rw [filled] at found
    cases found
    exact ⟨later, rfl, fun _ => course⟩

/-! ## Joining courses -/

theorem Course.append
    {front back : List Task}
    {earlier later : List Attempt}
    {result : Except Stop Unit}
    (first : job.Course surroundings past front earlier (.ok ()))
    (second : job.Course surroundings (past ++ job.starts earlier) back later result) :
    job.Course surroundings past (front ++ back) (earlier ++ later) result := by
  generalize reached : Except.ok (ε := Stop) () = middle at first
  induction first with
  | done => simpa using second
  | unfilled => cases reached
  | broken => cases reached
  | more filled succeeded _ ih =>
    refine .more filled succeeded (ih ?_ reached)
    simpa using second

theorem Course.append_of_error
    {front : List Task}
    {earlier : List Attempt}
    {stop : Stop}
    (first : job.Course surroundings past front earlier (.error stop))
    (back : List Task) :
    job.Course surroundings past (front ++ back) earlier (.error stop) := by
  generalize reached : Except.error (α := Unit) stop = middle at first
  induction first with
  | done => cases reached
  | unfilled problem => exact .unfilled problem
  | broken filled failed => exact .broken filled failed
  | more filled succeeded _ ih => exact .more filled succeeded (ih reached)

end Job

end Cookbook
