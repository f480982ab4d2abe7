import Cookbook.Proofs.Execution.FailFast
import Cookbook.Proofs.Execution.Rehearsal

/-!
# Dry runs foretell real runs

A real run makes the attempts that a rehearsal of its tasks gives, in their
order.  It either gets as far as the rehearsal and ends like it, or is stopped
on the way by the last attempt it made.  So what a dry run shows bounds what
any real run does, and a real run meets no other failure of a plan, a template
or a variable than the dry run does.
-/

namespace Cookbook

/-- A stop that comes from carrying out a command, not from a plan, a template or a variable. -/
def Stop.ArisesInAction : Stop → Prop
  | .failure (.commandFailed _ _ _ _) => True
  | .failure _ => False
  | .abort _ => True
  | .files _ => True

namespace Job

variable
    {job : Job}
    {surroundings : Surroundings}
    {past : List Start}
    {tasks : List Task}
    {attempt : Attempt}
    {attempts rehearsed : List Attempt}
    {result ending : Except Stop Unit}

/-! ## Real runs keep to the rehearsal -/

/--
A course makes rehearsed attempts.  It makes all of them and ends like the
rehearsal, or it is stopped by the last one it makes.
-/
theorem Course.foretold
    (course : job.Course surroundings past tasks attempts result)
    (rehearsal : job.Rehearsal tasks rehearsed ending) :
    attempts <+: rehearsed ∧
      (attempts = rehearsed ∧ result = ending ∨
        ∃ stop, result = .error stop ∧ job.LastFails surroundings past attempts stop) := by
  induction course generalizing rehearsed with
  | done =>
    cases rehearsal
    exact ⟨List.prefix_rfl, Or.inl ⟨rfl, rfl⟩⟩
  | unfilled problem =>
    cases rehearsal with
    | unfilled again =>
      rw [problem] at again
      cases again
      exact ⟨List.prefix_rfl, Or.inl ⟨rfl, rfl⟩⟩
    | more filled _ =>
      rw [problem] at filled
      cases filled
  | @broken past task rest attempt cause filled failed =>
    cases rehearsal with
    | unfilled problem =>
      rw [filled] at problem
      cases problem
    | @more _ _ _ later _ again _ =>
      rw [filled] at again
      cases again
      refine ⟨⟨later, rfl⟩, Or.inr ⟨_, rfl, [], attempt, cause, rfl, ?_, rfl⟩⟩
      rw [starts_nil, List.append_nil]
      exact failed
  | @more past task rest attempt later result filled succeeded course ih =>
    cases rehearsal with
    | unfilled problem =>
      rw [filled] at problem
      cases problem
    | more again further =>
      rw [filled] at again
      cases again
      rcases ih further with ⟨kept, ends⟩
      refine ⟨List.cons_prefix_cons.mpr ⟨rfl, kept⟩, ?_⟩
      rcases ends with ⟨rfl, same⟩ | ⟨stop, stopped, front, last, cause, split, failed, owned⟩
      · exact Or.inl ⟨rfl, same⟩
      · refine Or.inr ⟨stop, stopped, attempt :: front, last, cause, congrArg _ split, ?_, owned⟩
        rw [starts_cons, ← List.append_assoc]
        exact failed

/-! ## Stops in action -/

theorem arisesInAction_ownedBy
    {cause : Stop}
    {recipe : String}
    (arises : cause.ArisesInAction) :
    (cause.ownedBy recipe).ArisesInAction := by
  unfold Stop.ownedBy
  split
  · trivial
  · exact arises

/-- An attempt fails at a change of directory or at a process start, and in no other way. -/
theorem arisesInAction_of_outcome
    {cause : Stop}
    (failed : job.outcome surroundings past attempt = .error cause) :
    cause.ArisesInAction := by
  unfold outcome at failed
  split at failed
  · simp only [enterDirectory] at failed
    split at failed
    · split at failed <;> cases failed <;> trivial
    · cases failed
      trivial
  · unfold Outcome.verdict at failed
    split at failed
    · split at failed
      · cases failed
      · split at failed <;> cases failed <;> trivial
    all_goals
      cases failed
      trivial

end Job

/-! ## Whole runs -/

/--
A run is stopped by the last command of its history: by a change of directory
that fails, or by a process whose start fails or that does not end with code
zero.
-/
structure StoppedInAction (job : Job) (surroundings : Surroundings)
    (history : List (String × List String)) (starts : List Start) (stop : Stop) : Prop where
  last :
    ∃ attempts, history = attempts.map Attempt.record ∧ starts = job.starts attempts ∧
      job.LastFails surroundings [] attempts stop
  kind : stop.ArisesInAction

/--
How a real run keeps to what a dry run has shown.  Its commands are the first
of those shown.  It finishes only with all of them and only if the dry run
did, and it stops as the dry run did or on the way there, in action.
-/
structure Foretold (shown : Trace Results) (job : Job) (surroundings : Surroundings)
    (history : List (String × List String)) (trace : Trace Results) : Prop where
  commands : history.map Prod.snd <+: shown.echoes.map Prod.fst
  finishes :
    ∀ results, trace.result = .ok results →
      history.map Prod.snd = shown.echoes.map Prod.fst ∧
        ∃ expected, shown.result = .ok expected
  stops :
    ∀ stop, trace.result = .error stop →
      shown.result = .error stop ∨
        StoppedInAction job surroundings history trace.starts stop

namespace Job

theorem LastFails.stoppedInAction
    {history : List (String × List String)}
    {stop : Stop}
    (fails : job.LastFails surroundings [] attempts stop)
    (recorded : history = attempts.map Attempt.record) :
    StoppedInAction job surroundings history (job.starts attempts) stop := by
  constructor
  case last => exact ⟨attempts, recorded, rfl, fails⟩
  case kind =>
    rcases fails with ⟨front, last, cause, _, failed, rfl⟩
    exact arisesInAction_ownedBy (arisesInAction_of_outcome failed)

theorem commands_eq
    (attempts : List Attempt) :
    (attempts.map Attempt.record).map Prod.snd = (attempts.map Attempt.echo).map Prod.fst := by
  rw [List.map_map, List.map_map]
  rfl

/-- A trace that follows a course is foretold by a trace that rehearses the same tasks. -/
theorem Follows.foretold
    {shown trace : Trace Results}
    (follows : job.Follows surroundings [] tasks trace)
    (rehearses : job.Rehearses tasks shown) :
    Foretold shown job surroundings trace.history trace := by
  rcases follows with ⟨attempts, course, actions⟩
  rcases rehearses with ⟨rehearsed, rehearsal, same⟩
  rcases course.foretold rehearsal with ⟨kept, ends⟩
  have echoes := (observed_of_shown same).1
  have history : trace.history = attempts.map Attempt.record := by
    rw [Trace.history_eq_filterMap_actions, actions, filterMap_record?_actions]
  constructor
  case commands =>
    rw [history, echoes, commands_eq]
    exact (kept.map Attempt.echo).map Prod.fst
  case finishes =>
    intro results finished
    rw [finished] at ends
    rcases ends with ⟨rfl, agrees⟩ | ⟨stop, stopped, _⟩
    · rcases exists_of_map_eq_ok agrees.symm with ⟨expected, ended, _⟩
      exact ⟨by rw [history, echoes, commands_eq], expected, ended⟩
    · cases stopped
  case stops =>
    intro stop stopped
    rw [stopped] at ends
    rcases ends with ⟨_, agrees⟩ | ⟨other, came, fails⟩
    · exact Or.inl (eq_error_of_map_eq_error agrees.symm)
    · cases came
      rw [starts_eq_of_actions actions]
      exact Or.inr (fails.stoppedInAction history)

end Job

/-- Without a plan, a run stops with the failure of the plan before anything happens. -/
theorem foretold_of_unplanned
    {shown : Trace Results}
    {job : Job}
    {target : Option String}
    {failure : Failure}
    (stopped : shown.result = .error (.failure failure))
    (unplanned : job.book.plan target = .error failure)
    (worker : Worker)
    (surroundings : Surroundings) :
    let real := worker.run job surroundings target
    Foretold shown job surroundings real.1.history real.2 := by
  intro real
  have whole : real = _ := worker.run_of_error surroundings unplanned
  rw [whole]
  constructor
  case commands => exact List.nil_prefix
  case finishes =>
    intro results finished
    cases finished
  case stops =>
    intro stop came
    cases came
    exact Or.inl stopped

/--
A dry run does nothing but show commands and is the same whatever the
surroundings answer.  If it comes to its end, it has shown every command of
the plan, filled in, with its directory.  And it foretells every real run of
the same target: in any surroundings, from any directory.
-/
theorem dryRun_foretells
    (book : Book)
    (workdir : Option Path)
    (target : Option String)
    (worker : Worker)
    (surroundings : Surroundings) :
    let rehearsing : Job := ⟨book, workdir, true⟩
    let dry := worker.run rehearsing surroundings target
    dry.2.starts = [] ∧ dry.1.history = [] ∧
      (∀ (otherWorker : Worker) (otherSurroundings : Surroundings),
        otherWorker.run rehearsing otherSurroundings target = dry) ∧
      (∀ results, dry.2.result = .ok results →
        ∃ plan, book.plan target = .ok plan ∧
          List.Forall₂
            (fun task echo =>
              task.step.words book.bindings (some task.recipe) = .ok echo.1 ∧
                task.step.place book.bindings (some task.recipe) = .ok echo.2)
            (tasksOf plan) dry.2.echoes) ∧
      ∀ (realWorker : Worker) (place : Option Path) (realSurroundings : Surroundings),
        let job : Job := ⟨book, place, false⟩
        let real := realWorker.run job realSurroundings target
        Foretold dry.2 job realSurroundings real.1.history real.2 := by
  intro rehearsing dry
  cases planned : book.plan target with
  | error failure =>
    have unplanned : rehearsing.book.plan target = .error failure := planned
    have whole : dry = _ := worker.run_of_error surroundings unplanned
    rw [whole]
    refine ⟨rfl, rfl, ?_, ?_, ?_⟩
    · intro otherWorker otherSurroundings
      exact otherWorker.run_of_error otherSurroundings unplanned
    · intro results finished
      cases finished
    · intro realWorker place realSurroundings job
      exact foretold_of_unplanned rfl (show job.book.plan target = _ from planned) realWorker
        realSurroundings
  | ok plan =>
    have runnable : rehearsing.book.plan target = .ok plan := planned
    have whole : dry = _ := worker.run_of_ok surroundings runnable
    rcases @Job.runPlan_rehearses rehearsing rfl surroundings plan with
      ⟨rehearsed, rehearsal, same⟩
    rcases Job.observed_of_shown same with ⟨echoes, starts, history⟩
    rw [whole]
    refine ⟨starts, history, ?_, ?_, ?_⟩
    · intro otherWorker otherSurroundings
      rw [otherWorker.run_of_ok otherSurroundings runnable, Job.runPlan_congr rfl]
    · intro results finished
      rw [finished] at rehearsal
      refine ⟨plan, rfl, ?_⟩
      rw [echoes]
      exact rehearsal.filled
    · intro realWorker place realSurroundings job real
      have ran : real = _ :=
        realWorker.run_of_ok realSurroundings (show job.book.plan target = _ from planned)
      have follows := @Job.runPlan_follows job rfl realSurroundings plan
      rw [ran]
      exact follows.foretold ⟨rehearsed, rehearsal.of_book_eq rfl, same⟩

end Cookbook
