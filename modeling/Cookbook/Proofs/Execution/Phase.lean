import Cookbook.Proofs.Execution.Trace

/-!
# Phases of a worker

Whatever a console refuses, a run that returns leaves its worker as succeeded.
A run that stops leaves it as failed if the stop arises while the plan is
looked up or among the steps of a recipe.  It leaves the worker as resolving or
as running only if the announcement of the plan or of a recipe was refused.
The history holds what was recorded, in any case.
-/

namespace Cookbook

/-- A console that takes the announcements of plans and recipes; it may refuse anything else. -/
def Console.Announces (console : Console) : Prop :=
  ∀ past, (∀ recipes, console past (.planned recipes) = none) ∧
    ∀ recipe, console past (.entered recipe) = none

theorem Console.announces_working :
    Console.working.Announces :=
  fun _ => ⟨fun _ => rfl, fun _ => rfl⟩

namespace Engine

variable
    {Value Next : Type}
    {console : Console}
    {surroundings : Surroundings}
    {job : Job}
    {engine later : Engine}
    {recipe : String}

/-- The history of the worker is what the events record. -/
def Faithful (engine : Engine) : Prop :=
  engine.worker.history = engine.events.filterMap Event.record?

/-- A later engine is in the same phase, and its history is still faithful. -/
structure Kept (engine later : Engine) : Prop where
  phase : later.worker.phase = engine.worker.phase
  faithful : engine.Faithful → later.Faithful

/-- A routine that keeps the phase and the faith of the history, however it ends. -/
def Steady (routine : Routine Value) : Prop :=
  ∀ engine : Engine, engine.Kept (Program.left routine engine)

theorem Kept.refl :
    engine.Kept engine :=
  ⟨rfl, id⟩

theorem Kept.trans
    {middle : Engine}
    (first : engine.Kept middle)
    (second : middle.Kept later) :
    engine.Kept later :=
  ⟨second.phase.trans first.phase, second.faithful ∘ first.faithful⟩

/-! ## Routines that are put together -/

theorem Steady.pure
    (value : Value) :
    Steady (pure value) :=
  fun _ => .refl

theorem Steady.yield
    (result : Except Stop Value) :
    Steady (Program.yield result) := by
  intro engine
  cases result with
  | ok value => exact .refl
  | error stop => exact .refl

theorem Steady.bind
    {routine : Routine Value}
    {next : Value → Routine Next}
    (first : Steady routine)
    (rest : ∀ value, Steady (next value)) :
    Steady (routine >>= next) := by
  intro engine
  have kept := first engine
  rw [Program.left] at kept ⊢
  cases ran : routine engine with
  | ok value middle =>
    rw [ran] at kept
    rw [Program.bind_of_ok ran]
    exact kept.trans (rest value middle)
  | error stop middle =>
    rw [ran] at kept
    rw [Program.bind_of_error ran]
    exact kept

theorem Steady.relabelled
    {routine : Routine Value}
    (steady : Steady routine)
    (rename : Stop → Stop) :
    Steady (Program.relabelled rename routine) := by
  intro engine
  have kept := steady engine
  rw [Program.left] at kept ⊢
  cases ran : routine engine with
  | ok value middle =>
    rw [ran] at kept
    rw [Program.relabelled_of_ok ran]
    exact kept
  | error stop middle =>
    rw [ran] at kept
    rw [Program.relabelled_of_error ran]
    exact kept

/-! ## Steps -/

theorem steady_note
    {event : Event}
    (unrecorded : event.record? = none) :
    Steady (note event) := by
  intro engine
  refine ⟨rfl, fun faithful => ?_⟩
  show engine.worker.history = (engine.events ++ [event]).filterMap Event.record?
  rw [List.filterMap_append, ← faithful, List.filterMap_cons_none unrecorded]
  exact (List.append_nil _).symm

theorem steady_tell
    {event : Event}
    (unrecorded : event.record? = none) :
    Steady (tell console event) := by
  intro engine
  rw [Program.left, tell_eq]
  cases console engine.events event with
  | none => exact steady_note unrecorded engine
  | some stop => exact .refl

theorem steady_record
    (command : List String) :
    Steady (record recipe command) := by
  intro engine
  refine ⟨rfl, fun faithful => ?_⟩
  show engine.worker.history ++ [(recipe, command)] =
    (engine.events ++ [Event.recorded recipe command]).filterMap Event.record?
  rw [List.filterMap_append, ← faithful]
  rfl

theorem steady_launch
    (processes : Processes)
    (start : Start) :
    Steady (launch processes start) :=
  fun engine => (steady_note rfl).bind (fun _ => .yield _) engine

theorem steady_carryOut
    (command : List String)
    (directory : Option Path) :
    Steady (carryOut surroundings command directory) := by
  rw [carryOut]
  split
  · exact fun engine => Steady.yield _ engine
  · exact steady_launch _ _

theorem steady_echo
    (step : Step)
    (command : List String)
    (directory : Option String) :
    Steady (echo console job step command directory) := by
  rw [echo]
  split
  · exact steady_tell rfl
  · exact .pure ()

theorem steady_runStep
    (step : Step) :
    Steady (runStep console surroundings job recipe step) := by
  refine (Steady.yield _).bind fun command => (Steady.yield _).bind fun directory =>
    (steady_echo step command directory).bind fun _ => ?_
  split
  · exact .pure ()
  · exact (steady_record command).bind fun _ => (steady_carryOut command _).relabelled _

theorem steady_runSteps
    (steps : List Step) :
    Steady (runSteps console surroundings job recipe steps) := by
  induction steps with
  | nil => exact .pure ()
  | cons step rest ih => exact (steady_runStep step).bind fun _ => ih

/-! ## Recipes -/

/-- A report of a stop, refused or not, leaves the worker as failed. -/
theorem phase_giveUp
    (stop : Stop) :
    (Program.left (giveUp console recipe stop) engine).worker.phase = .failed :=
  (@steady_tell console _ rfl (engine.inPhase .failed)).phase

theorem faithful_giveUp
    (stop : Stop)
    (faithful : engine.Faithful) :
    (Program.left (giveUp console recipe stop) engine).Faithful :=
  (@steady_tell console _ rfl (engine.inPhase .failed)).faithful faithful

/--
How recipes come out.  If they do not return, the worker is failed, unless the
announcement of a recipe was refused.
-/
inductive Ends (console : Console) (engine : Engine) :
    EStateM.Result Stop Engine Value → Prop
  | returned {value : Value} {later : Engine}
      (kept : engine.Kept later) :
      Ends console engine (.ok value later)
  | failed {stop : Stop} {later : Engine}
      (faithful : engine.Faithful → later.Faithful)
      (phase : later.worker.phase = .failed) :
      Ends console engine (.error stop later)
  | unentered {stop : Stop} {later : Engine} {name : String}
      (kept : engine.Kept later)
      (refused : console later.events (.entered name) = some stop) :
      Ends console engine (.error stop later)

/-- What ends so after a part that is kept ends so from the start. -/
theorem Ends.of_kept
    {middle : Engine}
    {result : EStateM.Result Stop Engine Value}
    (first : engine.Kept middle)
    (ends : Ends console middle result) :
    Ends console engine result := by
  cases ends with
  | returned kept => exact .returned (first.trans kept)
  | failed faithful phase => exact .failed (faithful ∘ first.faithful) phase
  | unentered kept refused => exact .unentered (first.trans kept) refused

theorem Ends.bind
    {routine : Routine Value}
    {next : Value → Routine Next}
    (first : Ends console engine (routine engine))
    (rest : ∀ value middle, Ends console middle (next value middle)) :
    Ends console engine ((routine >>= next) engine) := by
  cases ran : routine engine with
  | error stop middle =>
    rw [ran] at first
    rw [Program.bind_of_error ran]
    cases first with
    | failed faithful phase => exact .failed faithful phase
    | unentered kept refused => exact .unentered kept refused
  | ok value middle =>
    rw [ran] at first
    rw [Program.bind_of_ok ran]
    cases first with
    | returned kept => exact .of_kept kept (rest value middle)

theorem ends_enter
    (name : String)
    (engine : Engine) :
    Ends console engine (tell console (.entered name) engine) := by
  rw [tell_eq]
  cases refused : console engine.events (.entered name) with
  | some stop => exact .unentered .refl refused
  | none => exact .returned (@steady_note (.entered name) rfl engine)

/-- Once a recipe is entered, any stop leaves the worker as failed. -/
theorem ends_guarded
    (steps : List Step)
    (engine : Engine) :
    Ends console engine
      (Program.guarded (runSteps console surroundings job recipe steps) (giveUp console recipe)
        engine) := by
  have kept := @steady_runSteps console surroundings job recipe steps engine
  rw [Program.left] at kept
  cases ran : runSteps console surroundings job recipe steps engine with
  | ok nothing later =>
    rw [ran] at kept
    rw [Program.guarded_of_ok ran]
    exact .returned kept
  | error stop later =>
    rw [ran] at kept
    rcases Program.exists_guarded_of_error (giveUp console recipe) ran with ⟨last, guarded⟩
    rw [guarded]
    exact .failed (fun faithful => faithful_giveUp stop (kept.faithful faithful))
      (phase_giveUp stop)

theorem ends_runRecipes
    (plan : List Recipe)
    (engine : Engine) :
    Ends console engine (runRecipes console surroundings job plan engine) := by
  induction plan generalizing engine with
  | nil => exact .returned .refl
  | cons recipe rest ih =>
    have first : Ends console engine (runRecipe console surroundings job recipe engine) :=
      (ends_enter recipe.name engine).bind fun _ => ends_guarded recipe.steps
    exact first.bind fun _ middle => (ih middle).bind fun _ _ => .returned .refl

end Engine

/-! ## Runs -/

/--
How a run comes out for its worker, which is left in a phase.  It is resolving
or running only if the announcement of the plan or of a recipe was refused.
-/
inductive Settles (job : Job) (console : Console) (target : Option String) :
    Phase → Trace Results → Prop
  | returned {trace : Trace Results} {results : Results}
      (returns : trace.result = .ok results) :
      Settles job console target .succeeded trace
  | stopped {trace : Trace Results} {stop : Stop}
      (stops : trace.result = .error stop) :
      Settles job console target .failed trace
  | unannounced {plan : List Recipe} {stop : Stop}
      (planned : job.book.plan target = .ok plan)
      (refused : console [] (.planned (plan.map Recipe.name)) = some stop) :
      Settles job console target .resolving ⟨[], .error stop⟩
  | unentered {trace : Trace Results} {recipe : String} {stop : Stop}
      (stops : trace.result = .error stop)
      (refused : console trace.events (.entered recipe) = some stop) :
      Settles job console target .running trace

/-- A console that takes the announcements leaves two ways to end. -/
theorem Settles.phase_eq
    {job : Job}
    {console : Console}
    {target : Option String}
    {phase : Phase}
    {trace : Trace Results}
    (settles : Settles job console target phase trace)
    (announces : console.Announces) :
    phase = if trace.result.isOk then .succeeded else .failed := by
  cases settles with
  | returned returns =>
    rw [returns]
    rfl
  | stopped stops =>
    rw [stops]
    rfl
  | @unannounced plan _ _ refused =>
    rw [(announces []).1 (plan.map Recipe.name)] at refused
    cases refused
  | @unentered trace recipe _ _ refused =>
    rw [(announces trace.events).2 recipe] at refused
    cases refused

/-- A run settles its worker and leaves the history that it has recorded. -/
theorem Worker.runOn_settles
    (console : Console)
    (worker : Worker)
    (job : Job)
    (surroundings : Surroundings)
    (target : Option String) :
    ∃ later trace,
      worker.runOn console job surroundings target = (later, trace) ∧
        Settles job console target later.phase trace ∧ later.history = trace.history := by
  cases planned : job.book.plan target with
  | error failure =>
    have ran := Engine.run_of_error console surroundings ⟨worker, []⟩ planned
    exact ⟨_, _, runOn_of_error ran, .stopped rfl, rfl⟩
  | ok plan =>
    cases heard : console [] (.planned (plan.map Recipe.name)) with
    | some stop =>
      have ran := @Engine.run_of_refused ⟨worker, []⟩ _ _ _ _ _ surroundings planned heard
      exact ⟨_, _, runOn_of_error ran, .unannounced planned heard, rfl⟩
    | none =>
      let running : Engine := ⟨⟨.running, []⟩, [.planned (plan.map Recipe.name)]⟩
      have ran := @Engine.run_of_announced ⟨worker, []⟩ _ _ _ _ surroundings planned heard
      have ends := @Engine.ends_runRecipes console surroundings job plan running
      have faithful : running.Faithful := rfl
      cases went : Engine.runRecipes console surroundings job plan running with
      | ok results later =>
        rw [went] at ends
        refine ⟨_, _, runOn_of_ok (ran.trans (Program.bind_of_ok went)), .returned rfl, ?_⟩
        cases ends with
        | returned kept => exact kept.faithful faithful
      | error stop later =>
        rw [went] at ends
        refine ⟨_, _, runOn_of_error (ran.trans (Program.bind_of_error went)), ?_⟩
        cases ends with
        | failed keeps phase =>
          rw [phase]
          exact ⟨.stopped rfl, keeps faithful⟩
        | unentered kept refused =>
          rw [kept.phase]
          exact ⟨.unentered rfl refused, kept.faithful faithful⟩

/-- A recipe whose announcement is interrupted leaves its worker as running. -/
example :
    let book : Book := ⟨.empty, ⟨[{ name := "a" }], by decide⟩, none, ""⟩
    let interrupting : Console := fun _ event =>
      if event = .entered "a" then some (.abort (.interrupted "")) else none
    let surroundings : Surroundings := ⟨fun _ _ => .ok true, fun _ _ => .exited 0⟩
    (Worker.fresh.runOn interrupting ⟨book, none, false⟩ surroundings (some "a")).1.phase =
      .running := by
  decide +kernel

end Cookbook
