import Cookbook.Proofs.Execution.Phase

/-!
# Workers that are used again

A run forgets what earlier runs have left behind, and a plan leaves everything
as it is.  Between two calls a worker is therefore idle or has ended its last
run, and it answers the next call as a fresh worker would, whatever it was
asked for before.  Only a console that refuses the announcement of a plan or of
a recipe leaves a worker in the middle of its run, and the next run forgets
that as well.
-/

namespace Cookbook

variable
    {job : Job}
    {console : Console}
    {surroundings : Surroundings}
    {worker earlier : Worker}
    {call : Call}
    {calls past : List Call}

/-! ## One call -/

/--
Between calls, a worker is idle exactly before its first run, and none of its
runs goes on as long as plans and recipes can be announced.
-/
structure AtRest (console : Console) (calls : List Call) (worker : Worker) : Prop where
  ended : console.Announces → worker.phase ≠ .resolving ∧ worker.phase ≠ .running
  idle : worker.phase = .idle ↔ ∀ target, Call.run target ∉ calls

/--
A call is answered as it deserves by itself.  A plan is looked up and changes
nothing.  A run comes out as that of a fresh worker, and leaves what it has
recorded and a phase that tells how it ended.
-/
inductive AnsweredAfresh (job : Job) (console : Console) (surroundings : Surroundings)
    (earlier : Worker) : Call → Worker → Answer → Prop
  | planned {target : Option String} :
      AnsweredAfresh job console surroundings earlier (.plan target) earlier
        (.planned (job.book.plan target))
  | ran {target : Option String} {later : Worker} {trace : Trace Results}
      (alone : Worker.fresh.runOn console job surroundings target = (later, trace))
      (settles : Settles job console target later.phase trace)
      (history : later.history = trace.history) :
      AnsweredAfresh job console surroundings earlier (.run target) later (.ran trace)

/-- What earlier runs have left behind is forgotten before anything else is done. -/
theorem Worker.runOn_eq_runOn_fresh
    (worker : Worker)
    (target : Option String) :
    worker.runOn console job surroundings target =
      Worker.fresh.runOn console job surroundings target := by
  cases planned : job.book.plan target with
  | error failure =>
    have ran := fun engine => Engine.run_of_error console surroundings engine planned
    rw [runOn_of_error (ran ⟨worker, []⟩), runOn_of_error (ran ⟨Worker.fresh, []⟩)]
  | ok plan =>
    simp only [runOn, Program.left, Program.result,
      Engine.run_of_ok console surroundings _ planned]

theorem answeredAfresh_handle
    (job : Job)
    (surroundings : Surroundings)
    (worker : Worker)
    (call : Call) :
    AnsweredAfresh job console surroundings worker call
      (worker.handle console job surroundings call).1
      (worker.handle console job surroundings call).2 := by
  cases call with
  | plan target => exact .planned
  | run target =>
    have alone := @Worker.runOn_eq_runOn_fresh job console surroundings worker target
    rcases worker.runOn_settles console job surroundings target with
      ⟨later, trace, ran, settles, history⟩
    simp only [Worker.handle, ran]
    exact .ran (alone.symm.trans ran) settles history

theorem Settles.phase_ne_idle
    {target : Option String}
    {phase : Phase}
    {trace : Trace Results}
    (settles : Settles job console target phase trace) :
    phase ≠ .idle := by
  cases settles <;> exact nofun

/-- One more call leaves the worker at rest. -/
theorem AtRest.next
    {later : Worker}
    {answer : Answer}
    (rests : AtRest console past earlier)
    (answered : AnsweredAfresh job console surroundings earlier call later answer) :
    AtRest console (past ++ [call]) later := by
  cases answered with
  | planned =>
    refine ⟨rests.ended, rests.idle.trans ?_⟩
    simp
  | @ran target _ trace _ settles _ =>
    constructor
    case ended =>
      intro announces
      rw [settles.phase_eq announces]
      cases trace.result.isOk <;> exact ⟨nofun, nofun⟩
    case idle =>
      refine iff_of_false settles.phase_ne_idle fun never => never target ?_
      exact List.mem_append_right past (List.mem_singleton_self _)

/-! ## Many calls -/

namespace Worker

/-- The worker that is left behind when calls have been answered. -/
def leftBehind (worker : Worker) (answered : List (Worker × Answer)) : Worker :=
  (answered.getLast?.map Prod.fst).getD worker

theorem leftBehind_cons
    (worker : Worker)
    (first : Worker × Answer)
    (answered : List (Worker × Answer)) :
    worker.leftBehind (first :: answered) = first.1.leftBehind answered := by
  rw [leftBehind, leftBehind, List.getLast?_cons]
  cases answered.getLast? <;> rfl

end Worker

/-- Any calls leave a worker at rest that was at rest before them. -/
theorem AtRest.handleAll
    (rests : AtRest console past worker) :
    AtRest console (past ++ calls) (worker.leftBehind (worker.handleAll console job surroundings calls)) := by
  induction calls generalizing past worker with
  | nil =>
    rw [List.append_nil]
    exact rests
  | cons call calls ih =>
    have later := ih (rests.next (answeredAfresh_handle job surroundings worker call))
    rw [Worker.handleAll, Worker.leftBehind_cons]
    rwa [List.append_assoc] at later

end Cookbook
