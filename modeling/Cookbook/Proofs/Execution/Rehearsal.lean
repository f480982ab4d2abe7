import Cookbook.Proofs.Execution.Run

/-!
# Rehearsals

A dry run rehearses the tasks of a plan.  It fills them in one after the other
and shows what each of them becomes, up to the first one that cannot be filled
in.  Nothing is carried out, so the surroundings have no say in it.
-/

namespace Cookbook

/-- The event that shows an attempt. -/
def Attempt.shown (attempt : Attempt) : Event :=
  .shown attempt.command attempt.directory

namespace Job

/-- What filling in tasks one after the other gives, and how it ends. -/
inductive Rehearsal (job : Job) : List Task → List Attempt → Except Stop Unit → Prop
  | done :
      Rehearsal job [] [] (.ok ())
  | unfilled {task : Task} {rest : List Task} {failure : Failure}
      (problem : job.attempt task = .error failure) :
      Rehearsal job (task :: rest) [] (.error (.failure failure))
  | more {task : Task} {rest : List Task} {attempt : Attempt} {later : List Attempt}
      {result : Except Stop Unit}
      (filled : job.attempt task = .ok attempt)
      (rehearsal : Rehearsal job rest later result) :
      Rehearsal job (task :: rest) (attempt :: later) result

variable
    {job : Job}
    {surroundings : Surroundings}
    {past : List Start}
    {tasks : List Task}
    {attempt : Attempt}
    {attempts : List Attempt}
    {result : Except Stop Unit}

/-! ## Rehearsals -/

theorem Rehearsal.append
    {front back : List Task}
    {earlier later : List Attempt}
    (first : job.Rehearsal front earlier (.ok ()))
    (second : job.Rehearsal back later result) :
    job.Rehearsal (front ++ back) (earlier ++ later) result := by
  generalize reached : Except.ok (ε := Stop) () = middle at first
  induction first with
  | done => exact second
  | unfilled => cases reached
  | more filled _ ih => exact .more filled (ih reached)

theorem Rehearsal.append_of_error
    {front : List Task}
    {earlier : List Attempt}
    {stop : Stop}
    (first : job.Rehearsal front earlier (.error stop))
    (back : List Task) :
    job.Rehearsal (front ++ back) earlier (.error stop) := by
  generalize reached : Except.error (α := Unit) stop = middle at first
  induction first with
  | done => cases reached
  | unfilled problem => exact .unfilled problem
  | more filled _ ih => exact .more filled (ih reached)

/-- What a rehearsal gives depends on the book alone. -/
theorem Rehearsal.of_book_eq
    {other : Job}
    (rehearsal : job.Rehearsal tasks attempts result)
    (same : job.book = other.book) :
    other.Rehearsal tasks attempts result := by
  have alike : ∀ task, job.attempt task = other.attempt task := by
    intro task
    simp only [attempt, same]
  induction rehearsal with
  | done => exact .done
  | unfilled problem => exact .unfilled ((alike _).symm.trans problem)
  | more filled _ ih => exact .more ((alike _).symm.trans filled) ih

/-- A rehearsal that comes to its end fills in every task, first its command, then its directory. -/
theorem Rehearsal.filled
    (rehearsal : job.Rehearsal tasks attempts (.ok ())) :
    List.Forall₂
      (fun task echo =>
        task.step.words job.book.bindings (some task.recipe) = .ok echo.1 ∧
          task.step.place job.book.bindings (some task.recipe) = .ok echo.2)
      tasks (attempts.map Attempt.echo) := by
  generalize reached : Except.ok (ε := Stop) () = middle at rehearsal
  induction rehearsal with
  | done => exact .nil
  | unfilled => cases reached
  | more filled _ ih => exact .cons (filled_of_attempt filled) (ih reached)

/-! ## Dry runs are rehearsals -/

/-- A trace shows the attempts of a rehearsal, does nothing else, and ends like it. -/
def Rehearses (job : Job) (tasks : List Task) {Value : Type} (trace : Trace Value) : Prop :=
  ∃ attempts,
    job.Rehearsal tasks attempts ((fun _ => ()) <$> trace.result) ∧
      trace.actions = attempts.map Attempt.shown

theorem runStep_of_dry
    {recipe : String}
    {step : Step}
    (dry : job.dryRun = true)
    (filled : job.attempt ⟨recipe, step⟩ = .ok attempt) :
    job.runStep surroundings past recipe step = ⟨[attempt.shown], .ok ()⟩ := by
  simp [runStep, filled, dry, shows, Attempt.shown]

theorem runSteps_of_dry
    {recipe : String}
    {step : Step}
    {rest : List Step}
    (dry : job.dryRun = true)
    (filled : job.attempt ⟨recipe, step⟩ = .ok attempt) :
    job.runSteps surroundings past recipe (step :: rest) =
      (job.runSteps surroundings past recipe rest).after [attempt.shown] := by
  have nothing : past ++ Trace.starts ⟨[attempt.shown], Except.ok (ε := Stop) ()⟩ = past :=
    List.append_nil past
  simp only [runSteps, runStep_of_dry dry filled, nothing]

theorem runSteps_rehearses
    (dry : job.dryRun = true)
    (past : List Start)
    (recipe : String)
    (steps : List Step) :
    job.Rehearses (steps.map (Task.mk recipe))
      (job.runSteps surroundings past recipe steps) := by
  induction steps with
  | nil => exact ⟨[], .done, rfl⟩
  | cons step rest ih =>
    cases filled : job.attempt ⟨recipe, step⟩ with
    | error failure =>
      rw [runSteps_of_unfilled filled]
      exact ⟨[], .unfilled filled, rfl⟩
    | ok attempt =>
      rcases ih with ⟨later, rehearsal, same⟩
      rw [runSteps_of_dry dry filled]
      refine ⟨attempt :: later, .more filled rehearsal, ?_⟩
      rw [Trace.actions_after, same]
      rfl

theorem runRecipe_rehearses
    (dry : job.dryRun = true)
    (past : List Start)
    (recipe : Recipe) :
    job.Rehearses recipe.tasks (job.runRecipe surroundings past recipe) := by
  rcases @runSteps_rehearses job surroundings dry past recipe.name recipe.steps with
    ⟨attempts, rehearsal, same⟩
  refine ⟨attempts, ?_, ?_⟩
  · rw [result_runRecipe]
    exact rehearsal
  · rw [actions_runRecipe]
    exact same

theorem runAll_rehearses
    (dry : job.dryRun = true)
    (past : List Start)
    (plan : List Recipe) :
    job.Rehearses (tasksOf plan) (job.runAll surroundings past plan) := by
  induction plan generalizing past with
  | nil => exact ⟨[], .done, rfl⟩
  | cons recipe rest ih =>
    rcases @runRecipe_rehearses job surroundings dry past recipe with
      ⟨earlier, rehearsal, same⟩
    cases came : (job.runRecipe surroundings past recipe).result with
    | error stop =>
      rw [came] at rehearsal
      rw [runAll_of_error came]
      exact ⟨earlier, rehearsal.append_of_error (tasksOf rest), same⟩
    | ok _ =>
      rw [came] at rehearsal
      rcases ih (past ++ (job.runRecipe surroundings past recipe).starts) with
        ⟨later, rehearsalLater, sameLater⟩
      rw [runAll_of_ok came rfl]
      refine ⟨earlier ++ later, ?_, ?_⟩
      · rw [Functor.map_map]
        exact rehearsal.append rehearsalLater
      · rw [List.map_append, ← same, ← sameLater]
        simp [Trace.actions]

theorem runPlan_rehearses
    (dry : job.dryRun = true)
    (surroundings : Surroundings)
    (plan : List Recipe) :
    job.Rehearses (tasksOf plan) (job.runPlan surroundings plan) := by
  rcases @runAll_rehearses job surroundings dry [] plan with ⟨attempts, rehearsal, same⟩
  refine ⟨attempts, rehearsal, ?_⟩
  rw [runPlan, Trace.actions_after, same]
  rfl

/-- A rehearsal shows each of its attempts and starts and records nothing. -/
theorem observed_of_shown
    {Value : Type}
    {trace : Trace Value}
    (same : trace.actions = attempts.map Attempt.shown) :
    trace.echoes = attempts.map Attempt.echo ∧ trace.starts = [] ∧ trace.history = [] := by
  rw [Trace.echoes_eq_filterMap_actions, Trace.starts_eq_filterMap_actions,
    Trace.history_eq_filterMap_actions, same]
  simp only [List.filterMap_map]
  refine ⟨?_, ?_, ?_⟩
  · exact congrFun (List.filterMap_eq_map (f := Attempt.echo)) attempts
  · exact List.filterMap_eq_nil_iff.mpr fun _ _ => rfl
  · exact List.filterMap_eq_nil_iff.mpr fun _ _ => rfl

/-! ## Dry runs do not look at their surroundings -/

section Surroundings

variable
    {other : Surroundings}
    {earlier : List Start}

theorem runSteps_congr
    (dry : job.dryRun = true)
    (recipe : String)
    (steps : List Step) :
    job.runSteps surroundings past recipe steps =
      job.runSteps other earlier recipe steps := by
  induction steps with
  | nil => rfl
  | cons step rest ih =>
    cases filled : job.attempt ⟨recipe, step⟩ with
    | error failure => rw [runSteps_of_unfilled filled, runSteps_of_unfilled filled]
    | ok attempt => rw [runSteps_of_dry dry filled, runSteps_of_dry dry filled, ih]

theorem runRecipe_congr
    (dry : job.dryRun = true)
    (recipe : Recipe) :
    job.runRecipe surroundings past recipe = job.runRecipe other earlier recipe := by
  have same :
      job.runSteps surroundings past recipe.name recipe.steps =
        job.runSteps other earlier recipe.name recipe.steps :=
    runSteps_congr dry recipe.name recipe.steps
  simp only [runRecipe, same]

theorem runAll_congr
    (dry : job.dryRun = true)
    (plan : List Recipe) :
    job.runAll surroundings past plan = job.runAll other earlier plan := by
  induction plan generalizing past earlier with
  | nil => rfl
  | cons recipe rest ih =>
    have same :
        job.runRecipe surroundings past recipe = job.runRecipe other earlier recipe :=
      runRecipe_congr dry recipe
    cases came : (job.runRecipe other earlier recipe).result with
    | error stop => rw [runAll_of_error (same ▸ came), runAll_of_error came, same]
    | ok _ => rw [runAll_of_ok (same ▸ came) rfl, runAll_of_ok came rfl, same, ih]

theorem runPlan_congr
    (dry : job.dryRun = true)
    (plan : List Recipe) :
    job.runPlan surroundings plan = job.runPlan other plan := by
  rw [runPlan, runPlan, runAll_congr dry]

end Surroundings

end Job

end Cookbook
