import Cookbook.Proofs.Execution.Ending
import Cookbook.Proofs.Session.Report
import Cookbook.Proofs.Substitution
import Cookbook.Proofs.Template.Expansion

/-!
# The first failure of a run

Nothing is in the way of a run if there is a plan, every task of it can be
filled in, and, unless the run is dry, every change of directory and every
process succeeds.  Otherwise there is a first thing that is in its way, which
stops it and decides the exit status.
-/

namespace Cookbook

/--
The exit status that an outcome of a process leads to.  A negative code is the
number of a signal, and stands for the status that a shell reports for it; what
is no status of a failed process becomes one.
-/
def Outcome.exitStatus : Outcome → Nat
  | .exited code =>
    if code < 0 then
      if code.natAbs ≤ 127 then 128 + code.natAbs else 1
    else if code ≤ 255 then code.toNat
    else 1
  | .denied _ => 126
  | .unavailable _ => 127
  | .aborted (.interrupted _) => 130
  | .aborted _ => 1

namespace Job

/-- Nothing is in the way of a run: it has a plan, and gets past all tasks of it. -/
def Completes (job : Job) (surroundings : Surroundings) (target : Option String) : Prop :=
  ∃ plan attempts,
    job.book.plan target = .ok plan ∧
      (tasksOf plan).map job.attempt = attempts.map .ok ∧
      job.GetsPast surroundings [] attempts

/-- What is first in the way of a run, with the exit status that it leads to. -/
inductive FirstFailure (job : Job) (surroundings : Surroundings) (target : Option String) :
    Nat → Prop
  | unplanned {failure : Failure}
      (unplanned : job.book.plan target = .error failure) :
      FirstFailure job surroundings target 2
  | unfilled {plan : List Recipe} {attempts : List Attempt} {task : Task} {failure : Failure}
      (planned : job.book.plan target = .ok plan)
      (arrives : job.ArrivesAt surroundings [] (tasksOf plan) attempts task)
      (problem : job.attempt task = .error failure) :
      FirstFailure job surroundings target 2
  | change {plan : List Recipe} {attempts : List Attempt} {task : Task} {attempt : Attempt}
      (real : job.dryRun = false)
      (planned : job.book.plan target = .ok plan)
      (arrives : job.ArrivesAt surroundings [] (tasksOf plan) attempts task)
      (filled : job.attempt task = .ok attempt)
      (changes : attempt.command.head? = some "cd")
      (fails : ¬job.Succeeds surroundings (job.starts attempts) attempt) :
      FirstFailure job surroundings target 1
  | process {plan : List Recipe} {attempts : List Attempt} {task : Task} {attempt : Attempt}
      {start : Start}
      (real : job.dryRun = false)
      (planned : job.book.plan target = .ok plan)
      (arrives : job.ArrivesAt surroundings [] (tasksOf plan) attempts task)
      (filled : job.attempt task = .ok attempt)
      (starts : job.start? attempt = some start)
      (fails : surroundings.processes (job.starts attempts) start ≠ .exited 0) :
      FirstFailure job surroundings target
        (surroundings.processes (job.starts attempts) start).exitStatus

end Job

/-! ## The exit status of a stop -/

namespace Session

variable
    {stop : Stop}
    {surroundings : Surroundings}
    {past : List Start}

/-- On whose behalf a stop is reported does not matter to the exit status. -/
theorem exitCode_ownedBy
    (recipe : String)
    (stop : Stop) :
    exitCode (stop.ownedBy recipe) = exitCode stop := by
  unfold Stop.ownedBy
  split <;> rfl

theorem exitCode_of_verdict
    {outcome : Outcome}
    {command : List String}
    (failed : outcome.verdict command = .error stop) :
    exitCode stop = outcome.exitStatus := by
  cases outcome with
  | exited code =>
    simp only [Outcome.verdict] at failed
    split at failed
    · cases failed
    -- a killed process gets the status of a shell first, and only then has to fit an octet
    · split at failed
      · rename_i negative
        cases failed
        simp only [exitCode, Stop.exitCode?, Option.getD_some, Failure.exitCode,
          Outcome.exitStatus, if_pos negative]
        split <;> split <;> omega
      · rename_i negative
        cases failed
        simp only [exitCode, Stop.exitCode?, Option.getD_some, Failure.exitCode,
          Outcome.exitStatus, if_neg negative]
        split <;> split <;> omega
  | denied text =>
    cases failed
    rfl
  | unavailable text =>
    cases failed
    rfl
  | aborted cause =>
    cases failed
    cases cause <;> rfl

theorem exitCode_of_enterDirectory
    {command : List String}
    {directory : Option Path}
    (failed : Job.enterDirectory surroundings past command directory = .error stop) :
    exitCode stop = 1 := by
  unfold Job.enterDirectory at failed
  split at failed
  · simp only at failed
    split at failed
    · cases failed
      rfl
    · cases failed
    · cases failed
      rfl
  · cases failed
    rfl

end Session

/-! ## Failures before anything runs -/

namespace Failure

theorem exitCode_of_expand
    {bindings : Bindings}
    {template : String}
    {recipe : Option String}
    {failure : Failure}
    (refused : bindings.expand template recipe = .error failure) :
    failure.exitCode = 2 := by
  cases Bindings.unexpanded_of_expand refused <;> rfl

/-- Whatever is wrong with the templates of a step, the exit status is the same. -/
theorem exitCode_of_attempt
    {job : Job}
    {task : Task}
    {failure : Failure}
    (problem : job.attempt task = .error failure) :
    failure.exitCode = 2 := by
  rcases Job.unfilled_of_attempt problem with words | place
  · cases Step.refusal_of_words words with
    | expansion unexpanded => exact exitCode_of_expand unexpanded
    | cut | chain | unfinished | empty => rfl
  · unfold Step.place at place
    split at place
    · cases place
    · exact exitCode_of_expand (eq_error_of_map_eq_error place)

theorem exitCode_of_plan
    {catalog : Catalog}
    {target : String}
    {failure : Failure}
    (unplanned : catalog.plan target = .error failure) :
    failure.exitCode = 2 := by
  cases found : catalog.find? target with
  | none =>
    rw [Catalog.plan_of_absent found] at unplanned
    cases unplanned
    rfl
  | some root =>
    rw [Catalog.plan_of_find? found] at unplanned
    cases Catalog.fault_of_walk (Catalog.mem_of_find? found) unplanned <;> rfl

theorem exitCode_of_implicitTarget
    {book : Book}
    {failure : Failure}
    (missing : book.implicitTarget = .error failure) :
    failure.exitCode = 2 := by
  unfold Book.implicitTarget at missing
  split at missing
  · cases missing
  · split at missing
    · cases missing
    · split at missing
      · cases missing
        rfl
      · cases missing

/-- Whatever keeps a target from being planned, the exit status is the same. -/
theorem exitCode_of_bookPlan
    {book : Book}
    {target : Option String}
    {failure : Failure}
    (unplanned : book.plan target = .error failure) :
    failure.exitCode = 2 := by
  cases target with
  | some name => exact exitCode_of_plan unplanned
  | none =>
    simp only [Book.plan] at unplanned
    split at unplanned
    · rename_i missing
      cases unplanned
      exact exitCode_of_implicitTarget missing
    · exact exitCode_of_plan unplanned

end Failure

/-! ## The first failure -/

namespace Job

variable
    {job : Job}
    {surroundings : Surroundings}
    {past : List Start}
    {attempt : Attempt}
    {target : Option String}
    {plan : List Recipe}
    {stop : Stop}
    {status : Nat}

theorem start?_eq_none_iff :
    job.start? attempt = none ↔ attempt.command.head? = some "cd" := by
  unfold start?
  split
  · rename_i change
    exact iff_of_true rfl change
  · rename_i other
    exact iff_of_false (Option.some_ne_none _) other

/-- The exit status of a failed attempt is that of its process, or one if it starts none. -/
theorem exitCode_of_outcome
    (failed : job.outcome surroundings past attempt = .error stop) :
    Session.exitCode stop =
      match job.start? attempt with
      | none => 1
      | some start => (surroundings.processes past start).exitStatus := by
  unfold outcome at failed
  cases started : job.start? attempt with
  | none =>
    rw [started] at failed
    exact Session.exitCode_of_enterDirectory failed
  | some start =>
    rw [started] at failed
    exact Session.exitCode_of_verdict failed

theorem upshot_of_failed
    {cause : Stop}
    (real : job.dryRun = false)
    (failed : job.outcome surroundings past attempt = .error cause) :
    job.upshot surroundings past attempt = .error (cause.ownedBy attempt.recipe) := by
  simp only [upshot, real, failed]
  rfl

theorem exists_outcome_of_upshot
    (came : job.upshot surroundings past attempt = .error stop) :
    job.dryRun = false ∧
      ∃ cause, job.outcome surroundings past attempt = .error cause ∧
        stop = cause.ownedBy attempt.recipe := by
  unfold upshot at came
  split at came
  · cases came
  · rename_i real
    refine ⟨Bool.eq_false_iff.mpr real, ?_⟩
    cases failed : job.outcome surroundings past attempt with
    | error cause =>
      rw [failed] at came
      cases came
      exact ⟨cause, rfl, rfl⟩
    | ok _ =>
      rw [failed] at came
      cases came

/-- An attempt that does not succeed fails with a stop. -/
theorem exists_outcome_of_not_succeeds
    (fails : ¬job.Succeeds surroundings past attempt) :
    ∃ cause, job.outcome surroundings past attempt = .error cause := by
  cases came : job.outcome surroundings past attempt with
  | error cause => exact ⟨cause, rfl⟩
  | ok _ => exact absurd (outcome_eq_ok_iff.mp came) fails

/-- A run that is stopped in its plan is stopped by its first failure. -/
theorem Breaks.firstFailure
    (planned : job.book.plan target = .ok plan)
    (breaks : job.Breaks surroundings [] (tasksOf plan) stop) :
    job.FirstFailure surroundings target (Session.exitCode stop) := by
  cases breaks with
  | @unfilled attempts task failure arrives problem =>
    have status : Session.exitCode (.failure failure) = 2 := Failure.exitCode_of_attempt problem
    rw [status]
    exact .unfilled planned arrives problem
  | @failed attempts task attempt stop arrives filled came =>
    rw [List.nil_append] at came
    rcases exists_outcome_of_upshot came with ⟨real, cause, failed, rfl⟩
    have fails : ¬job.Succeeds surroundings (job.starts attempts) attempt := by
      rw [← outcome_eq_ok_iff, failed]
      rintro ⟨⟩
    have status := exitCode_of_outcome failed
    rw [Session.exitCode_ownedBy, status]
    cases started : job.start? attempt with
    | none => exact .change real planned arrives filled (start?_eq_none_iff.mp started) fails
    | some start =>
      refine .process real planned arrives filled started ?_
      simpa only [Succeeds, started] using fails

/-- The first failure of a run stops it: before it has a plan, or in its plan. -/
theorem FirstFailure.stops
    (first : job.FirstFailure surroundings target status) :
    (∃ failure, job.book.plan target = .error failure ∧ status = 2) ∨
      ∃ plan stop, job.book.plan target = .ok plan ∧
        job.Breaks surroundings [] (tasksOf plan) stop ∧ Session.exitCode stop = status := by
  cases first with
  | unplanned unplanned => exact Or.inl ⟨_, unplanned, rfl⟩
  | unfilled planned arrives problem =>
    exact Or.inr ⟨_, _, planned, .unfilled arrives problem, Failure.exitCode_of_attempt problem⟩
  | change real planned arrives filled changes fails =>
    rcases exists_outcome_of_not_succeeds fails with ⟨cause, failed⟩
    refine Or.inr ⟨_, _, planned, .failed arrives filled (upshot_of_failed real failed), ?_⟩
    rw [Session.exitCode_ownedBy, exitCode_of_outcome failed, start?_eq_none_iff.mpr changes]
  | @process plan attempts task attempt start real planned arrives filled started fails =>
    have unsuccessful : ¬job.Succeeds surroundings (job.starts attempts) attempt := by
      simpa only [Succeeds, started] using fails
    rcases exists_outcome_of_not_succeeds unsuccessful with ⟨cause, failed⟩
    refine Or.inr ⟨_, _, planned, .failed arrives filled (upshot_of_failed real failed), ?_⟩
    rw [Session.exitCode_ownedBy, exitCode_of_outcome failed, started]

/-- How a run of a target ends, be it for want of a plan. -/
def finale (job : Job) (surroundings : Surroundings) (target : Option String) :
    Except Stop Unit :=
  match job.book.plan target with
  | .error failure => .error (.failure failure)
  | .ok plan => job.ending surroundings [] (tasksOf plan)

theorem finale_eq_ok_iff :
    job.finale surroundings target = .ok () ↔ job.Completes surroundings target := by
  unfold finale
  constructor
  · intro ended
    split at ended
    · cases ended
    · rename_i plan planned
      rcases ending_eq_ok_iff.mp ended with ⟨attempts, filled, past⟩
      exact ⟨plan, attempts, planned, filled, past⟩
  · rintro ⟨plan, attempts, planned, filled, past⟩
    simp only [planned]
    exact ending_eq_ok_iff.mpr ⟨attempts, filled, past⟩

/-- A run is stopped exactly by its first failure, which decides the exit status. -/
theorem firstFailure_iff :
    job.FirstFailure surroundings target status ↔
      ∃ stop, job.finale surroundings target = .error stop ∧ Session.exitCode stop = status := by
  unfold finale
  constructor
  · intro first
    rcases first.stops with ⟨failure, unplanned, rfl⟩ | ⟨plan, stop, planned, breaks, decided⟩
    · simp only [unplanned]
      exact ⟨_, rfl, Failure.exitCode_of_bookPlan unplanned⟩
    · simp only [planned]
      exact ⟨stop, ending_eq_error_iff.mpr breaks, decided⟩
  · rintro ⟨stop, ended, rfl⟩
    split at ended
    · rename_i failure unplanned
      cases ended
      have decided : Session.exitCode (.failure failure) = 2 :=
        Failure.exitCode_of_bookPlan unplanned
      rw [decided]
      exact .unplanned unplanned
    · rename_i plan planned
      exact (ending_eq_error_iff.mp ended).firstFailure planned

end Job

end Cookbook
