import Cookbook.Proofs.Execution.FailFast
import Cookbook.Proofs.Execution.Rehearsal

/-!
# How runs end

Whether it is dry or not, a run works through the tasks of its plan and ends
with the first one that something is wrong with.  A dry run gets past every
task that can be filled in, a real run past those that succeed as well.  So the
end of a run is a function of its tasks, and what it is can be told from the
task that the run arrives at.
-/

namespace Cookbook.Job

variable
    {job : Job}
    {surroundings : Surroundings}
    {past : List Start}
    {task : Task}
    {tasks : List Task}
    {attempt : Attempt}
    {attempts : List Attempt}
    {stop : Stop}

/-- What a run, dry or not, makes of an attempt after some process starts. -/
def upshot (job : Job) (surroundings : Surroundings) (past : List Start)
    (attempt : Attempt) : Except Stop Unit :=
  if job.dryRun then .ok ()
  else (job.outcome surroundings past attempt).mapError (Stop.ownedBy attempt.recipe)

/-- How a run of tasks ends. -/
def ending (job : Job) (surroundings : Surroundings) (past : List Start) :
    List Task → Except Stop Unit
  | [] => .ok ()
  | task :: rest =>
    match job.attempt task with
    | .error failure => .error (.failure failure)
    | .ok attempt =>
      match job.upshot surroundings past attempt with
      | .error stop => .error stop
      | .ok () => job.ending surroundings (past ++ (job.start? attempt).toList) rest

/-- A run gets past some attempts: all of them succeed, unless nothing is carried out. -/
def GetsPast (job : Job) (surroundings : Surroundings) (past : List Start)
    (attempts : List Attempt) : Prop :=
  job.dryRun = false → job.AllSucceed surroundings past attempts

/-- A run of tasks fills in the first of them, gets past these, and meets a task next. -/
structure ArrivesAt (job : Job) (surroundings : Surroundings) (past : List Start)
    (tasks : List Task) (attempts : List Attempt) (task : Task) : Prop where
  next : tasks[attempts.length]? = some task
  filled : (tasks.take attempts.length).map job.attempt = attempts.map .ok
  passed : job.GetsPast surroundings past attempts

/-- A run of tasks arrives at one that cannot be filled in or whose attempt fails. -/
inductive Breaks (job : Job) (surroundings : Surroundings) (past : List Start)
    (tasks : List Task) : Stop → Prop
  | unfilled {attempts : List Attempt} {task : Task} {failure : Failure}
      (arrives : job.ArrivesAt surroundings past tasks attempts task)
      (problem : job.attempt task = .error failure) :
      Breaks job surroundings past tasks (.failure failure)
  | failed {attempts : List Attempt} {task : Task} {attempt : Attempt} {stop : Stop}
      (arrives : job.ArrivesAt surroundings past tasks attempts task)
      (filled : job.attempt task = .ok attempt)
      (came : job.upshot surroundings (past ++ job.starts attempts) attempt = .error stop) :
      Breaks job surroundings past tasks stop

/-! ## Getting past attempts -/

theorem upshot_eq_ok_iff :
    job.upshot surroundings past attempt = .ok () ↔
      (job.dryRun = false → job.Succeeds surroundings past attempt) := by
  unfold upshot
  cases job.dryRun with
  | true => simp
  | false =>
    rw [← outcome_eq_ok_iff]
    cases job.outcome surroundings past attempt <;> simp [Except.mapError]

theorem AllSucceed.uncons
    (all : job.AllSucceed surroundings past (attempt :: attempts)) :
    job.Succeeds surroundings past attempt ∧
      job.AllSucceed surroundings (past ++ (job.start? attempt).toList) attempts := by
  constructor
  · have first := all [] attempt attempts rfl
    rwa [starts_nil, List.append_nil] at first
  · rintro front other back rfl
    have later := all (attempt :: front) other back rfl
    rwa [starts_cons, ← List.append_assoc] at later

theorem getsPast_nil :
    job.GetsPast surroundings past [] :=
  fun _ => .nil

theorem getsPast_cons :
    job.GetsPast surroundings past (attempt :: attempts) ↔
      job.upshot surroundings past attempt = .ok () ∧
        job.GetsPast surroundings (past ++ (job.start? attempt).toList) attempts := by
  rw [upshot_eq_ok_iff]
  constructor
  · intro passes
    exact ⟨fun real => (passes real).uncons.1, fun real => (passes real).uncons.2⟩
  · rintro ⟨first, later⟩ real
    exact .cons (first real) (later real)

theorem ArrivesAt.cons
    {first : Task}
    (filled : job.attempt first = .ok attempt)
    (came : job.upshot surroundings past attempt = .ok ())
    (arrives :
      job.ArrivesAt surroundings (past ++ (job.start? attempt).toList) tasks attempts task) :
    job.ArrivesAt surroundings past (first :: tasks) (attempt :: attempts) task := by
  constructor
  case next => exact arrives.next
  case filled =>
    rw [List.length_cons, List.take_succ_cons, List.map_cons, List.map_cons, filled,
      arrives.filled]
  case passed => exact getsPast_cons.mpr ⟨came, arrives.passed⟩

theorem ArrivesAt.uncons
    {first : Task}
    (arrives : job.ArrivesAt surroundings past (first :: tasks) (attempt :: attempts) task) :
    job.attempt first = .ok attempt ∧ job.upshot surroundings past attempt = .ok () ∧
      job.ArrivesAt surroundings (past ++ (job.start? attempt).toList) tasks attempts task := by
  have filled := arrives.filled
  rw [List.length_cons, List.take_succ_cons, List.map_cons, List.map_cons,
    List.cons.injEq] at filled
  rcases getsPast_cons.mp arrives.passed with ⟨came, passed⟩
  exact ⟨filled.1, came, arrives.next, filled.2, passed⟩

theorem arrivesAt_first
    (task : Task)
    (rest : List Task) :
    job.ArrivesAt surroundings past (task :: rest) [] task :=
  ⟨rfl, rfl, getsPast_nil⟩

/-! ## The end of tasks -/

/-- A run gets to its end if it can fill in all tasks and gets past their attempts. -/
theorem ending_eq_ok_iff :
    job.ending surroundings past tasks = .ok () ↔
      ∃ attempts, tasks.map job.attempt = attempts.map .ok ∧
        job.GetsPast surroundings past attempts := by
  induction tasks generalizing past with
  | nil =>
    constructor
    · intro _
      exact ⟨[], rfl, getsPast_nil⟩
    · intro _
      rfl
  | cons task rest ih =>
    rw [ending]
    constructor
    · intro ended
      split at ended
      · cases ended
      · rename_i attempt filled
        split at ended
        · cases ended
        · rename_i came
          rcases ih.mp ended with ⟨attempts, others, passes⟩
          refine ⟨attempt :: attempts, ?_, getsPast_cons.mpr ⟨came, passes⟩⟩
          rw [List.map_cons, List.map_cons, filled, others]
    · rintro ⟨attempts, filled, passes⟩
      cases attempts with
      | nil => cases filled
      | cons attempt attempts =>
        rw [List.map_cons, List.map_cons, List.cons.injEq] at filled
        rcases getsPast_cons.mp passes with ⟨came, later⟩
        simp only [filled.1, came]
        exact ih.mpr ⟨attempts, filled.2, later⟩

theorem Breaks.cons
    (filled : job.attempt task = .ok attempt)
    (came : job.upshot surroundings past attempt = .ok ())
    (breaks : job.Breaks surroundings (past ++ (job.start? attempt).toList) tasks stop) :
    job.Breaks surroundings past (task :: tasks) stop := by
  cases breaks with
  | unfilled arrives problem => exact .unfilled (arrives.cons filled came) problem
  | failed arrives now stopped =>
    refine .failed (arrives.cons filled came) now ?_
    rw [starts_cons, ← List.append_assoc]
    exact stopped

/-- The end of a run is decided from the task that it arrives at. -/
theorem ArrivesAt.ending
    (arrives : job.ArrivesAt surroundings past tasks attempts task) :
    ∃ rest,
      job.ending surroundings past tasks =
        job.ending surroundings (past ++ job.starts attempts) (task :: rest) := by
  -- each attempt stands for one task that the run has got past
  induction attempts generalizing past tasks with
  | nil =>
    cases tasks with
    | nil => cases arrives.next
    | cons first rest =>
      cases arrives.next
      exact ⟨rest, by rw [starts_nil, List.append_nil]⟩
  | cons attempt attempts ih =>
    cases tasks with
    | nil => cases arrives.next
    | cons first others =>
      rcases arrives.uncons with ⟨filled, came, later⟩
      rcases ih later with ⟨rest, same⟩
      refine ⟨rest, ?_⟩
      rw [starts_cons, ← List.append_assoc, ← same, Job.ending]
      simp only [filled, came]

/-- A run is stopped by what is wrong with the task that it arrives at. -/
theorem ending_eq_error_iff :
    job.ending surroundings past tasks = .error stop ↔
      job.Breaks surroundings past tasks stop := by
  constructor
  · intro ended
    induction tasks generalizing past with
    | nil => cases ended
    | cons task rest ih =>
      rw [ending] at ended
      split at ended
      · rename_i failure problem
        cases ended
        exact .unfilled (arrivesAt_first task rest) problem
      · rename_i attempt filled
        split at ended
        · rename_i cause came
          cases ended
          refine .failed (arrivesAt_first task rest) filled ?_
          rw [starts_nil, List.append_nil]
          exact came
        · rename_i came
          exact (ih ended).cons filled came
  · intro breaks
    cases breaks with
    | unfilled arrives problem =>
      rcases arrives.ending with ⟨rest, same⟩
      rw [same, ending]
      simp only [problem]
    | failed arrives filled came =>
      rcases arrives.ending with ⟨rest, same⟩
      rw [same, ending]
      simp only [filled, came]

/-! ## The end of a run -/

theorem Course.ending
    {result : Except Stop Unit}
    (real : job.dryRun = false)
    (course : job.Course surroundings past tasks attempts result) :
    job.ending surroundings past tasks = result := by
  induction course with
  | done => rfl
  | unfilled problem =>
    rw [Job.ending]
    simp only [problem]
  | broken filled failed =>
    rw [Job.ending]
    simp only [filled, upshot, real, failed]
    rfl
  | more filled succeeded _ ih =>
    rw [Job.ending]
    simp only [filled, upshot, real, succeeded]
    exact ih

theorem Rehearsal.ending
    {result : Except Stop Unit}
    (dry : job.dryRun = true)
    (rehearsal : job.Rehearsal tasks attempts result) :
    job.ending surroundings past tasks = result := by
  induction rehearsal generalizing past with
  | done => rfl
  | unfilled problem =>
    rw [Job.ending]
    simp only [problem]
  | more filled _ ih =>
    rw [Job.ending]
    simp only [filled, upshot, dry, if_true]
    exact ih

/-- The run of a plan ends as the tasks of the plan do. -/
theorem result_runPlan
    (job : Job)
    (surroundings : Surroundings)
    (plan : List Recipe) :
    (fun _ => ()) <$> (job.runPlan surroundings plan).result =
      job.ending surroundings [] (tasksOf plan) := by
  cases dry : job.dryRun with
  | false =>
    rcases runPlan_follows dry surroundings plan with ⟨attempts, course, _⟩
    exact (course.ending dry).symm
  | true =>
    rcases runPlan_rehearses dry surroundings plan with ⟨attempts, rehearsal, _⟩
    exact (rehearsal.ending dry).symm

end Cookbook.Job
