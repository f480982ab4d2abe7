import Cookbook.Proofs.Execution.Run

/-!
# Real runs fail fast

A real run of a plan carries out the tasks of the plan in order up to some
point.  What it shows, records and starts is exactly what belongs to the tasks
before this point, and only the last of these can have failed.  A run that is
not stopped has carried out all of them.
-/

namespace Cookbook

namespace Job

variable
    {job : Job}
    {surroundings : Surroundings}
    {past : List Start}
    {tasks : List Task}
    {attempts : List Attempt}

/-- Each of some attempts succeeds after the starts of those before it. -/
def AllSucceed (job : Job) (surroundings : Surroundings) (past : List Start)
    (attempts : List Attempt) : Prop :=
  ∀ front attempt back,
    attempts = front ++ attempt :: back →
      job.Succeeds surroundings (past ++ job.starts front) attempt

/-- The last of some attempts fails, and a stop is its failure on behalf of its recipe. -/
def LastFails (job : Job) (surroundings : Surroundings) (past : List Start)
    (attempts : List Attempt) (stop : Stop) : Prop :=
  ∃ front last cause,
    attempts = front ++ [last] ∧
      job.outcome surroundings (past ++ job.starts front) last = .error cause ∧
      stop = cause.ownedBy last.recipe

/-- The task behind some attempts cannot be filled in, and a stop says why. -/
def NextUnfilled (job : Job) (tasks : List Task) (attempts : List Attempt)
    (stop : Stop) : Prop :=
  ∃ task failure,
    tasks[attempts.length]? = some task ∧
      job.attempt task = .error failure ∧ stop = .failure failure

theorem AllSucceed.nil :
    job.AllSucceed surroundings past [] := by
  intro front attempt back split
  simp at split

theorem AllSucceed.cons
    {attempt : Attempt}
    (succeeds : job.Succeeds surroundings past attempt)
    (later : job.AllSucceed surroundings (past ++ (job.start? attempt).toList) attempts) :
    job.AllSucceed surroundings past (attempt :: attempts) := by
  intro front other back split
  cases front with
  | nil =>
    rw [List.nil_append, List.cons.injEq] at split
    rw [← split.1, starts_nil, List.append_nil]
    exact succeeds
  | cons first front =>
    rw [List.cons_append, List.cons.injEq] at split
    rw [← split.1, starts_cons, ← List.append_assoc]
    exact later front other back split.2

/-! ## What a course says -/

/-- The attempts of a course are its first tasks, filled in. -/
theorem Course.filled
    {result : Except Stop Unit}
    (course : job.Course surroundings past tasks attempts result) :
    (tasks.take attempts.length).map job.attempt = attempts.map .ok := by
  induction course with
  | done => rfl
  | unfilled => rfl
  | broken filled => simp [filled]
  | more filled _ _ ih => simp [filled, ih]

/-- Only the last attempt of a course can have failed. -/
theorem Course.earlier
    {result : Except Stop Unit}
    (course : job.Course surroundings past tasks attempts result) :
    job.AllSucceed surroundings past attempts.dropLast := by
  induction course with
  | done => exact .nil
  | unfilled => exact .nil
  | broken => exact .nil
  | @more past task rest attempt later result filled succeeded course ih =>
    cases later with
    | nil => exact .nil
    | cons next later => exact .cons (outcome_eq_ok_iff.mp succeeded) ih

/-- A course that is not stopped carries out every task, and every attempt succeeds. -/
theorem Course.completed
    (course : job.Course surroundings past tasks attempts (.ok ())) :
    attempts.length = tasks.length ∧ job.AllSucceed surroundings past attempts := by
  generalize reached : Except.ok (ε := Stop) () = result at course
  induction course with
  | done => exact ⟨rfl, .nil⟩
  | unfilled => cases reached
  | broken => cases reached
  | more filled succeeded _ ih =>
    rcases ih reached with ⟨sameLength, later⟩
    exact ⟨congrArg (· + 1) sameLength, .cons (outcome_eq_ok_iff.mp succeeded) later⟩

/-- A course is stopped by its last attempt or by the task behind it. -/
theorem Course.stopped
    {stop : Stop}
    (course : job.Course surroundings past tasks attempts (.error stop)) :
    job.LastFails surroundings past attempts stop ∨
      job.AllSucceed surroundings past attempts ∧ job.NextUnfilled tasks attempts stop := by
  generalize reached : Except.error (α := Unit) stop = result at course
  induction course with
  | done => cases reached
  | @unfilled past task rest failure problem =>
    cases reached
    exact Or.inr ⟨.nil, task, failure, rfl, problem, rfl⟩
  | @broken past task rest attempt cause filled failed =>
    cases reached
    refine Or.inl ⟨[], attempt, cause, rfl, ?_, rfl⟩
    rw [starts_nil, List.append_nil]
    exact failed
  | @more past task rest attempt later result filled succeeded course ih =>
    rcases ih reached with ⟨front, last, cause, split, failed, same⟩ | ⟨all, unfilled⟩
    · refine Or.inl ⟨attempt :: front, last, cause, congrArg _ split, ?_, same⟩
      rw [starts_cons, ← List.append_assoc]
      exact failed
    · exact Or.inr ⟨.cons (outcome_eq_ok_iff.mp succeeded) all, unfilled⟩

end Job

/-! ## Whole runs -/

/--
What a run of a plan leaves behind when it has carried out just these
attempts: the history, the process starts, the commands shown, all of these in
their order, and how it ended.
-/
structure FailsFast (job : Job) (surroundings : Surroundings) (plan : List Recipe)
    (attempts : List Attempt) (worker : Worker) (trace : Trace Results) : Prop where
  filled : ((tasksOf plan).take attempts.length).map job.attempt = attempts.map .ok
  history : worker.history = attempts.map Attempt.record
  starts : trace.starts = job.starts attempts
  echoes : trace.echoes = (attempts.filter (!·.quiet)).map Attempt.echo
  actions : trace.actions = attempts.flatMap job.actions
  earlier : job.AllSucceed surroundings [] attempts.dropLast
  ending :
    (∃ results, trace.result = .ok results ∧ worker.phase = .succeeded ∧
      attempts.length = (tasksOf plan).length ∧ job.AllSucceed surroundings [] attempts ∧
      results = plan.map (fun recipe => (recipe.name, .done)) ∧
      (plan.map Recipe.name).Nodup) ∨
    ∃ stop, trace.result = .error stop ∧ worker.phase = .failed ∧
      (job.LastFails surroundings [] attempts stop ∨
        job.AllSucceed surroundings [] attempts ∧
          job.NextUnfilled (tasksOf plan) attempts stop)

theorem Book.nodup_names_of_plan
    {book : Book}
    {target : Option String}
    {plan : List Recipe}
    (planned : book.plan target = .ok plan) :
    (plan.map Recipe.name).Nodup := by
  cases target with
  | some name => exact (Catalog.isPlan_of_plan planned).once
  | none =>
    simp only [Book.plan] at planned
    split at planned
    · cases planned
    · exact (Catalog.isPlan_of_plan planned).once

/-- The run of a plan follows a course and reports every recipe as done. -/
theorem Job.runPlan_follows
    {job : Job}
    (real : job.dryRun = false)
    (surroundings : Surroundings)
    (plan : List Recipe) :
    job.Follows surroundings [] (tasksOf plan) (job.runPlan surroundings plan) := by
  rcases @runAll_follows job surroundings real [] plan with ⟨attempts, course, same⟩
  refine ⟨attempts, course, ?_⟩
  rw [runPlan, Trace.actions_after, same]
  rfl

/--
A real run is stopped before anything happens if there is no plan, and
otherwise by the first task that cannot be filled in or the first attempt that
fails.
-/
theorem run_failsFast
    (worker : Worker)
    (book : Book)
    (workdir : Option Path)
    (surroundings : Surroundings)
    (target : Option String) :
    let job : Job := ⟨book, workdir, false⟩
    let ran := worker.run job surroundings target
    match book.plan target with
    | .error failure =>
      ran.2.events = [] ∧ ran.2.result = .error (.failure failure) ∧ ran.1 = ⟨.failed, []⟩
    | .ok plan => ∃ attempts, FailsFast job surroundings plan attempts ran.1 ran.2 := by
  intro job ran
  cases planned : book.plan target with
  | error failure =>
    have whole := worker.run_of_error surroundings (show job.book.plan target = _ from planned)
    simp only [ran, whole, and_self]
  | ok plan =>
    have whole := worker.run_of_ok surroundings (show job.book.plan target = _ from planned)
    rcases @Job.runPlan_follows job rfl surroundings plan with ⟨attempts, course, same⟩
    refine ⟨attempts, ?_⟩
    simp only [ran, whole]
    exact {
      filled := course.filled
      history := by
        rw [Trace.history_eq_filterMap_actions, same, Job.filterMap_record?_actions]
      starts := Job.starts_eq_of_actions same
      echoes := by
        rw [Trace.echoes_eq_filterMap_actions, same, Job.filterMap_shown?_actions]
      actions := same
      earlier := course.earlier
      ending := by
        cases came : (job.runPlan surroundings plan).result with
        | ok results =>
          rw [came] at course
          rcases course.completed with ⟨sameLength, all⟩
          have done := Job.results_of_runAll (rfl : job.dryRun = false) came
          exact Or.inl ⟨results, rfl, rfl, sameLength, all, done,
            Book.nodup_names_of_plan planned⟩
        | error stop =>
          rw [came] at course
          exact Or.inr ⟨stop, rfl, rfl, course.stopped⟩ }

end Cookbook
