import Cookbook.Proofs.Session.Lines
import Cookbook.Proofs.Session.Report

/-!
# Plans preview dry runs

Showing a plan fills in all commands before anything is written; a dry run
fills them in one by one and writes on the way.  Still, both fill in the same
commands in the same order, so they agree on the recipes, on the lines of the
commands, and on the failure that keeps a command from being filled in.  Only
a directory that turns out empty is told apart in a plan.

They agree as long as the book is loaded without an interruption: a run is
ready for one, and showing a plan is not.
-/

namespace Cookbook

/-- A command with its directory, all variables filled in. -/
abbrev Filled :=
  List String × Option String

/-- A recipe with its commands. -/
abbrev Row :=
  String × List Filled

namespace Filled

/-- The line that a dry run shows for a command: its directory stands in front unless it is empty. -/
def echoLine (filled : Filled) : String :=
  match filled with
  | (command, none) => Word.join command
  | (command, some directory) =>
    if directory = "" then Word.join command
    else "(" ++ directory ++ ") " ++ Word.join command

/-- The line that a plan shows for a command: an empty directory shows in it. -/
def planLine (filled : Filled) : String :=
  if filled.2 = some "" then "() " ++ filled.echoLine else filled.echoLine

/-- The event that shows a command. -/
def shown (filled : Filled) : Event :=
  .shown filled.1 filled.2

end Filled

/-! ## What is written -/

namespace Wording

/-- A plan from the recipe with the given number on: each recipe above its lines. -/
def plan (number : Nat) : List Row → String
  | [] => ""
  | (recipe, commands) :: rest =>
    toString number ++ ". " ++ recipe ++ "\n" ++
      String.join (commands.map fun filled => "     " ++ filled.planLine ++ "\n") ++
      plan (number + 1) rest

/-- The lines in front of a run. -/
def opening (source target : String) (recipes : List String) : String :=
  "\nRUN STARTED\nRecipes: " ++ source ++ "\nTarget: " ++ target ++
    "\nPlan: " ++ " -> ".intercalate recipes ++ "\n\n"

/-- The lines that tell which recipes are entered. -/
def banners (recipes : List String) : String :=
  String.join (recipes.map fun recipe => "\nRECIPE: " ++ recipe ++ "\n")

/-- The lines behind a dry run. -/
def results (recipes : List String) : String :=
  "\n========================================\nRESULTS\n" ++
    "========================================\n" ++
    String.join (recipes.map fun recipe => "  " ++ recipe ++ ": SKIPPED(DRY-RUN)\n")

/-- The lines that a dry run shows for the commands of recipes. -/
def echoes (rows : List Row) : String :=
  String.join (rows.map fun row => String.join (row.2.map fun filled => filled.echoLine ++ "\n"))

/-- The lines that tell which recipe failed. -/
def failed (recipe : String) (status : Nat) : String :=
  "RECIPE FAILED: " ++ recipe ++ "\nExit code: " ++ toString status ++ "\n"

/-- The line that tells why. -/
def error (failure : Failure) : String :=
  "Error: " ++ failure.message ++ "\n"

theorem banners_cons
    (recipe : String)
    (rest : List String) :
    banners (recipe :: rest) = "\nRECIPE: " ++ recipe ++ "\n" ++ banners rest :=
  String.join_cons

theorem echoes_cons
    (row : Row)
    (rest : List Row) :
    echoes (row :: rest) =
      String.join (row.2.map fun filled => filled.echoLine ++ "\n") ++ echoes rest :=
  String.join_cons

end Wording

/-- What happens in a dry run during recipes. -/
def eventsOf (rows : List Row) : List Event :=
  rows.flatMap fun row => .entered row.1 :: row.2.map Filled.shown

/--
The reply to showing a plan, the reply to its dry run, and what happens in the
latter.  Either both tell the same recipes and commands, or both are refused
before there is a plan, or both fail in the same way at a command of the plan,
behind what the dry run has written before it.
-/
inductive Previews : Reply → Reply → List Event → Prop
  | shown {source target : String} {rows : List Row} {recipes : List String}
      (named : recipes = rows.map Prod.fst) :
      Previews
        ⟨0, ⟨Wording.plan 1 rows, ""⟩, []⟩
        ⟨0, ⟨Wording.opening source target recipes ++ Wording.banners recipes ++
            Wording.results recipes, Wording.echoes rows⟩, []⟩
        (.planned recipes :: eventsOf rows)
  | refused {status : Nat} {text : String}
      (fails : status ≠ 0)
      (told : text ≠ "") :
      Previews ⟨status, ⟨"", text⟩, []⟩ ⟨status, ⟨"", text⟩, []⟩ []
  | unfilled {source target : String} {recipes entered : List String} {rows : List Row}
      {last : String} {failure : Failure}
      (named : entered = rows.map Prod.fst)
      (inOrder : entered <+: recipes)
      (ends : entered.getLast? = some last)
      (fails : failure.exitCode ≠ 0) :
      Previews
        ⟨failure.exitCode, ⟨"", Wording.error failure⟩, []⟩
        ⟨failure.exitCode,
          ⟨Wording.opening source target recipes ++ Wording.banners entered,
            Wording.echoes rows ++ Wording.failed last failure.exitCode ++
              Wording.error failure⟩, []⟩
        (.planned recipes :: (eventsOf rows ++ [.stopped last (.failure failure)]))

theorem Previews.exitCode_eq
    {planned dry : Reply}
    {happened : List Event}
    (previews : Previews planned dry happened) :
    planned.exitCode = dry.exitCode := by
  cases previews with
  | shown | refused | unfilled => rfl

/-! ## From the terminal to what is written -/

theorem Filled.note_eq_echoLine
    (filled : Filled) :
    Terminal.note (Text.given filled.2) ++ Word.join filled.1 = filled.echoLine := by
  rcases filled with ⟨command, _ | directory⟩
  · exact String.empty_append
  · by_cases empty : directory = ""
    · subst empty
      exact String.empty_append
    · have given : Text.given (some directory) = some directory := by
        simp [Text.given, empty]
      simp only [Filled.echoLine, given, if_neg empty]
      rfl

theorem Filled.note_eq_planLine
    (filled : Filled) :
    Terminal.note filled.2 ++ Word.join filled.1 = filled.planLine := by
  rcases filled with ⟨command, _ | directory⟩
  · exact String.empty_append
  · by_cases empty : directory = ""
    · subst empty
      rfl
    · have other : ¬some directory = some "" := fun same => empty (Option.some.inj same)
      simp only [Filled.planLine, Filled.echoLine, if_neg other, if_neg empty]
      rfl

namespace Terminal

theorem join_planLines
    (number : Nat)
    (rows : List Row) :
    String.join ((planLines number (rows.map fun row => (row.1, row.2.map Filled.planLine))).map
      (· ++ "\n")) = Wording.plan number rows := by
  induction rows generalizing number with
  | nil => rfl
  | cons row rest ih =>
    rw [List.map_cons, planLines, List.map_append, List.map_cons, String.join_append,
      String.join_cons, ih, Wording.plan, List.map_map, List.map_map]
    simp only [String.append_assoc]
    rfl

theorem planListing_eq
    (rows : List Row) :
    planListing (rows.map fun row => (row.1, row.2.map Filled.planLine)) =
      ⟨Wording.plan 1 rows, ""⟩ :=
  congrArg (Output.mk · "") (join_planLines 1 rows)

theorem opening_eq
    (source target : String)
    (recipes : List String) :
    opening source target recipes = ⟨Wording.opening source target recipes, ""⟩ := by
  have first : "\nRUN STARTED\nRecipes: " = "\nRUN STARTED" ++ "\n" ++ "Recipes: " := by decide
  have second : "\nTarget: " = "\n" ++ "Target: " := by decide
  have third : "\nPlan: " = "\n" ++ "Plan: " := by decide
  have last : "\n\n" = "\n" ++ ("" ++ ("\n" ++ "")) := by decide
  unfold opening Output.lines Wording.opening
  rw [first, second, third, last]
  simp only [List.map_cons, List.map_nil, String.join_cons, String.join_nil, String.append_assoc]

theorem summary_eq
    (recipes : List String) :
    summary (recipes.map fun recipe => (recipe, "skipped(dry-run)")) =
      ⟨Wording.results recipes, ""⟩ := by
  have front : "\n========================================\nRESULTS\n" =
      "\n" ++ rule ++ "\n" ++ ("RESULTS" ++ "\n") := by decide +kernel
  have between : "========================================\n" = rule ++ "\n" := by decide +kernel
  have behind : ": SKIPPED(DRY-RUN)\n" = ": " ++ statusWord "skipped(dry-run)" ++ "\n" := by
    decide +kernel
  unfold summary Output.lines Wording.results
  rw [front, between, behind]
  simp only [List.map_cons, List.map_map, Function.comp_def, String.join_cons, String.append_assoc]

theorem banner_eq
    (recipe : String) :
    banner recipe = ⟨"\nRECIPE: " ++ recipe ++ "\n", ""⟩ := by
  rw [banner, Output.lines, List.map_singleton, String.join_cons, String.join_nil,
    String.append_empty]

theorem failureNotice_eq
    {terminal : Terminal}
    (plain : terminal.debug = false)
    (recipe reason : String)
    (status : Nat) :
    terminal.failureNotice recipe reason (some (Int.ofNat status)) =
      ⟨"", Wording.failed recipe status⟩ := by
  have between : "\nExit code: " = "\n" ++ "Exit code: " := by decide
  unfold failureNotice Output.errorLines Wording.failed
  rw [plain, between]
  simp only [Option.toList, List.map_cons, List.map_nil, List.cons_append, List.nil_append,
    Bool.false_eq_true, if_false, String.join_cons, String.join_nil, String.append_assoc,
    String.append_empty]
  rfl

theorem event_shown
    (terminal : Terminal)
    (filled : Filled) :
    terminal.event filled.shown = ⟨"", filled.echoLine ++ "\n"⟩ := by
  show echo filled.1 filled.2 = _
  rw [echo, commandLine_eq, filled.note_eq_echoLine, Output.errorLines, List.map_singleton,
    String.join_cons, String.join_nil, String.append_empty]

theorem events_shown
    (terminal : Terminal)
    (commands : List Filled) :
    terminal.events (commands.map Filled.shown) =
      ⟨"", String.join (commands.map fun filled => filled.echoLine ++ "\n")⟩ := by
  induction commands with
  | nil => rfl
  | cons filled rest ih =>
    rw [List.map_cons, List.map_cons, events_cons, ih, event_shown, String.join_cons]
    rfl

theorem events_append
    (terminal : Terminal)
    (front back : List Event) :
    terminal.events (front ++ back) = terminal.events front ++ terminal.events back := by
  rw [events, List.map_append, Output.concat_append]
  rfl

end Terminal

theorem eventsOf_cons
    (row : Row)
    (rest : List Row) :
    eventsOf (row :: rest) = (.entered row.1 :: row.2.map Filled.shown) ++ eventsOf rest :=
  List.flatMap_cons

/-- What happens during recipes of a dry run is written recipe by recipe. -/
theorem Terminal.events_eventsOf
    (terminal : Terminal)
    (rows : List Row) :
    terminal.events (eventsOf rows) =
      ⟨Wording.banners (rows.map Prod.fst), Wording.echoes rows⟩ := by
  induction rows with
  | nil => rfl
  | cons row rest ih =>
    rw [eventsOf_cons, events_append, events_cons, events_shown, ih, List.map_cons,
      Wording.banners_cons, Wording.echoes_cons]
    show banner row.1 ++ _ ++ _ = _
    rw [banner_eq]
    show Output.mk (_ ++ "" ++ _) ("" ++ _ ++ _) = _
    rw [String.append_empty, String.empty_append]

/-! ## Steps and recipes -/

namespace Job

variable
    {job : Job}
    {surroundings : Surroundings}
    {past : List Start}
    {recipe : String}
    {step : Step}
    {steps : List Step}
    {plan : List Recipe}
    {failure : Failure}

/-- A plan shows the attempt that a dry run shows, or fails as its filling in fails. -/
theorem planLine_eq_map_attempt :
    Session.planLine job.book.bindings recipe step =
      (fun attempt => Filled.planLine attempt.echo) <$> job.attempt ⟨recipe, step⟩ := by
  rw [Session.planLine_eq, attempt]
  cases step.words job.book.bindings (some recipe) with
  | error failure => rfl
  | ok command =>
    cases step.place job.book.bindings (some recipe) with
    | error failure => rfl
    | ok directory => exact congrArg Except.ok (Filled.note_eq_planLine (command, directory))

/-- A dry run shows the commands of the lines in a plan. -/
theorem runSteps_of_planLines
    {lines : List String}
    (dry : job.dryRun = true)
    (planned : Session.planLines job.book.bindings recipe steps = .ok lines) :
    ∃ commands : List Filled, lines = commands.map Filled.planLine ∧
      job.runSteps surroundings past recipe steps = ⟨commands.map Filled.shown, .ok ()⟩ := by
  induction steps generalizing lines with
  | nil =>
    cases planned
    exact ⟨[], rfl, rfl⟩
  | cons step rest ih =>
    rw [Session.planLines, planLine_eq_map_attempt] at planned
    cases filled : job.attempt ⟨recipe, step⟩ with
    | error failure =>
      rw [filled] at planned
      cases planned
    | ok attempt =>
      rw [filled] at planned
      rcases exists_of_map_eq_ok planned with ⟨later, inner, rfl⟩
      rcases ih inner with ⟨commands, rfl, ran⟩
      refine ⟨attempt.echo :: commands, rfl, ?_⟩
      rw [runSteps_of_dry dry filled, ran]
      rfl

/-- What keeps a plan from being shown stops the dry run, behind the commands before it. -/
theorem runSteps_of_unplanned
    (dry : job.dryRun = true)
    (unplanned : Session.planLines job.book.bindings recipe steps = .error failure) :
    ∃ commands : List Filled,
      job.runSteps surroundings past recipe steps =
        ⟨commands.map Filled.shown, .error (.failure failure)⟩ := by
  induction steps with
  | nil => cases unplanned
  | cons step rest ih =>
    rw [Session.planLines, planLine_eq_map_attempt] at unplanned
    cases filled : job.attempt ⟨recipe, step⟩ with
    | error problem =>
      rw [filled] at unplanned
      cases unplanned
      exact ⟨[], runSteps_of_unfilled filled⟩
    | ok attempt =>
      rw [filled] at unplanned
      rcases ih (eq_error_of_map_eq_error unplanned) with ⟨commands, ran⟩
      refine ⟨attempt.echo :: commands, ?_⟩
      rw [runSteps_of_dry dry filled, ran]
      rfl

theorem runAll_of_planRows
    {shown : List (String × List String)}
    (dry : job.dryRun = true)
    (planned : Session.planRows job.book.bindings plan = .ok shown) :
    ∃ rows : List Row, plan.map Recipe.name = rows.map Prod.fst ∧
      shown = rows.map (fun row => (row.1, row.2.map Filled.planLine)) ∧
      ∃ results, job.runAll surroundings past plan = ⟨eventsOf rows, .ok results⟩ := by
  induction plan generalizing past shown with
  | nil =>
    cases planned
    exact ⟨[], rfl, rfl, [], rfl⟩
  | cons recipe rest ih =>
    rw [Session.planRows] at planned
    split at planned
    · cases planned
    · rename_i lines filled
      rcases exists_of_map_eq_ok planned with ⟨later, inner, rfl⟩
      rcases @runSteps_of_planLines job surroundings past _ _ _ dry filled with
        ⟨commands, rfl, ran⟩
      have first := @runRecipe_of_ok job surroundings past recipe (by rw [ran])
      rw [ran] at first
      -- nothing is started, but the run of the rest is told what has been
      rcases @ih (past ++ (job.runRecipe surroundings past recipe).starts) _ inner with
        ⟨rows, named, rfl, results, all⟩
      refine ⟨(recipe.name, commands) :: rows, ?_, rfl, (recipe.name, job.status) :: results, ?_⟩
      · rw [List.map_cons, List.map_cons, named]
      · rw [runAll_of_ok (by rw [first]) rfl, all, first, eventsOf_cons]
        rfl

theorem runAll_of_unplanned
    (dry : job.dryRun = true)
    (unplanned : Session.planRows job.book.bindings plan = .error failure) :
    ∃ (rows : List Row) (last : String),
      rows.map Prod.fst <+: plan.map Recipe.name ∧
      (rows.map Prod.fst).getLast? = some last ∧
      job.runAll surroundings past plan =
        ⟨eventsOf rows ++ [.stopped last (.failure failure)], .error (.failure failure)⟩ := by
  induction plan generalizing past with
  | nil => cases unplanned
  | cons recipe rest ih =>
    rw [Session.planRows] at unplanned
    split at unplanned
    · rename_i problem broken
      cases unplanned
      rcases @runSteps_of_unplanned job surroundings past _ _ _ dry broken with ⟨commands, ran⟩
      have first := @runRecipe_of_error job surroundings past recipe (.failure failure)
        (by rw [ran])
      rw [ran] at first
      refine ⟨[(recipe.name, commands)], recipe.name, ⟨rest.map Recipe.name, rfl⟩, rfl, ?_⟩
      rw [runAll_of_error (by rw [first]), first]
      simp [eventsOf]
    · rename_i lines filled
      rcases @runSteps_of_planLines job surroundings past _ _ _ dry filled with
        ⟨commands, _, ran⟩
      have first := @runRecipe_of_ok job surroundings past recipe (by rw [ran])
      rw [ran] at first
      rcases @ih (past ++ (job.runRecipe surroundings past recipe).starts)
        (eq_error_of_map_eq_error unplanned) with ⟨rows, last, inOrder, ends, all⟩
      refine ⟨(recipe.name, commands) :: rows, last, ?_, ?_, ?_⟩
      · exact List.cons_prefix_cons.mpr ⟨rfl, inOrder⟩
      · rw [List.map_cons, List.getLast?_cons, ends]
        rfl
      · rw [runAll_of_ok (by rw [first]) rfl, all, first, eventsOf_cons, List.append_assoc]
        rfl

theorem runPlan_of_runAll
    {events : List Event}
    {result : Except Stop Results}
    (ran : job.runAll surroundings [] plan = ⟨events, result⟩) :
    job.runPlan surroundings plan = ⟨.planned (plan.map Recipe.name) :: events, result⟩ := by
  rw [runPlan, ran]
  rfl

end Job

/-! ## Replies -/

namespace Session

variable
    {terminal : Terminal}
    {world : World}
    {book : Book}
    {file target : Option String}
    {plan : List Recipe}

theorem plannedRows_of_unplanned
    {failure : Failure}
    (unplanned : book.plan target = .error failure) :
    plannedRows book target = .error failure := by
  cases named : targetOf book target with
  | error problem =>
    rw [plan_of_untargeted named] at unplanned
    cases unplanned
    simp only [plannedRows, named]
  | ok name =>
    rw [plan_of_targetOf named] at unplanned
    simp only [plannedRows, named, unplanned]

/-- Outside debug mode a failure is told on the standard error output. -/
theorem fail_failure
    (plain : terminal.debug = false)
    (failure : Failure) :
    fail terminal (.failure failure) =
      ⟨failure.exitCode, ⟨"", Wording.error failure⟩, []⟩ := by
  simp only [fail, report, Terminal.stopNotice, plain, Output.errorLines, List.map_cons,
    List.map_nil, String.join_cons, String.join_nil, String.append_empty]
  rfl

/-- Outside debug mode a stop that is not the user's doing makes a refusal. -/
theorem previews_fail
    {stop : Stop}
    (plain : terminal.debug = false)
    (uninterrupted : stop.Uninterrupted) :
    Previews (fail terminal stop) (fail terminal stop) [] := by
  rcases exists_report plain uninterrupted with ⟨text, told, reported⟩
  rw [fail, reported]
  exact .refused (Nat.one_le_iff_ne_zero.mp (exitCode_range stop).1) told

theorem passage_of_dry
    {job : Job}
    {name : String}
    {events : List Event}
    {result : Except Stop Results}
    (plain : terminal.debug = false)
    (ran : job.runPlan world.surroundings plan =
      ⟨.planned (plan.map Recipe.name) :: events, result⟩) :
    passage terminal world job name plan =
      Terminal.opening job.book.source name (plan.map Recipe.name) ++ terminal.events events := by
  rw [passage, ran, Terminal.events_cons, Terminal.event, Terminal.detail_of_not_debug plain,
    Output.none_append]

theorem starts_of_dry
    {job : Job}
    (dry : job.dryRun = true)
    (surroundings : Surroundings)
    (plan : List Recipe) :
    (job.runPlan surroundings plan).starts = [] := by
  rcases Job.runPlan_rehearses dry surroundings plan with ⟨attempts, _, same⟩
  exact (Job.observed_of_shown same).2.1

/-- A plan that can be shown is rehearsed as it is shown. -/
theorem previews_of_shown
    {name : String}
    {shown : List (String × List String)}
    (plain : terminal.debug = false)
    (planned : book.catalog.plan name = .ok plan)
    (came : planRows book.bindings plan = .ok shown) :
    Previews (.success (Terminal.planListing shown))
      (runTarget terminal world ⟨book, none, true⟩ name plan)
      (Job.runPlan ⟨book, none, true⟩ world.surroundings plan).events := by
  let job : Job := ⟨book, none, true⟩
  rcases @Job.runAll_of_planRows job world.surroundings [] _ _ rfl came with
    ⟨rows, named, rfl, results, all⟩
  have ran := Job.runPlan_of_runAll all
  have starts := starts_of_dry (rfl : job.dryRun = true) world.surroundings plan
  have ended : (job.runPlan world.surroundings plan).result = .ok results := by rw [ran]
  have summary : Terminal.summary (plan.map fun recipe => (recipe.name, job.status.text)) =
      ⟨Wording.results (plan.map Recipe.name), ""⟩ := by
    rw [← Terminal.summary_eq, List.map_map]
    rfl
  rw [runTarget_of_ok terminal planned ended, passage_of_dry plain ran, starts, summary,
    Terminal.events_eventsOf, Terminal.opening_eq, ran, Terminal.planListing_eq, ← named]
  show Previews _ ⟨0, ⟨_ ++ _ ++ _, "" ++ _ ++ ""⟩, []⟩ _
  rw [String.empty_append, String.append_empty]
  exact .shown named

/-- A plan that cannot be shown fails as its rehearsal fails. -/
theorem previews_of_unshown
    {name : String}
    {failure : Failure}
    (plain : terminal.debug = false)
    (planned : book.catalog.plan name = .ok plan)
    (came : planRows book.bindings plan = .error failure) :
    Previews (fail terminal (.failure failure))
      (runTarget terminal world ⟨book, none, true⟩ name plan)
      (Job.runPlan ⟨book, none, true⟩ world.surroundings plan).events := by
  let job : Job := ⟨book, none, true⟩
  rcases @Job.runAll_of_unplanned job world.surroundings [] _ _ rfl came with
    ⟨rows, last, inOrder, ends, all⟩
  have ran := Job.runPlan_of_runAll all
  have starts := starts_of_dry (rfl : job.dryRun = true) world.surroundings plan
  have ended : (job.runPlan world.surroundings plan).result = .error (.failure failure) := by
    rw [ran]
  have told := fail_failure plain failure
  have reported : report terminal (.failure failure) = ⟨"", Wording.error failure⟩ :=
    congrArg Reply.output told
  have notice : terminal.events [.stopped last (.failure failure)] =
      ⟨"", Wording.failed last failure.exitCode⟩ := by
    rw [Terminal.events_cons, ← Terminal.failureNotice_eq plain last failure.message]
    exact Output.append_none _
  rw [runTarget_of_error terminal planned ended, passage_of_dry plain ran, starts, told, reported,
    Terminal.events_append, Terminal.events_eventsOf, Terminal.opening_eq, notice, ran]
  show Previews _ ⟨_, ⟨_ ++ (_ ++ "") ++ "", "" ++ (_ ++ _) ++ _⟩, []⟩ _
  rw [String.append_empty, String.append_empty, String.empty_append]
  exact .unfilled rfl inOrder ends
    (Nat.one_le_iff_ne_zero.mp (exitCode_range (.failure failure)).1)

/-- What happens in a dry run of a target. -/
def dryEvents (world : World) (target : Option String) (book : Book) : List Event :=
  (Worker.fresh.run ⟨book, none, true⟩ world.surroundings target).2.events

/-- Whatever the book, showing a plan previews its dry run. -/
theorem previews_of_book
    (plain : terminal.debug = false)
    (world : World)
    (target : Option String)
    (book : Book) :
    Previews (Session.plan terminal target book) (run terminal world target true book)
      (dryEvents world target book) := by
  let job : Job := ⟨book, none, true⟩
  cases planned : book.plan target with
  | error failure =>
    have answered : Session.plan terminal target book = fail terminal (.failure failure) := by
      simp only [Session.plan, plannedRows_of_unplanned planned, refuse]
    have unplanned : job.book.plan target = .error failure := planned
    rw [answered, run_of_unplanned terminal world true planned, dryEvents,
      Worker.run_of_error Worker.fresh world.surroundings unplanned]
    exact previews_fail plain (Stop.uninterrupted_failure failure)
  | ok plan =>
    rcases exists_name_of_plan planned with ⟨name, named, own⟩
    have runnable : job.book.plan target = .ok plan := planned
    rw [run_of_planned terminal world true named own, dryEvents,
      Worker.run_of_ok Worker.fresh world.surroundings runnable]
    cases came : planRows book.bindings plan with
    | ok shown =>
      simp only [Session.plan, plannedRows, named, own, came]
      exact previews_of_shown plain own came
    | error failure =>
      simp only [Session.plan, plannedRows, named, own, came, refuse]
      exact previews_of_unshown plain own came

/-! ## Previews and interruptions -/

/-- The user interrupts the loading of the book to use. -/
def Interrupted (shelf : Shelf) (file : Option String) : Prop :=
  ∃ text, Halts shelf file (.abort (.interrupted text))

theorem uninterrupted_of_halts
    {shelf : Shelf}
    {stop : Stop}
    (halts : Halts shelf file stop)
    (quiet : ¬Interrupted shelf file) :
    stop.Uninterrupted := by
  rintro text rfl
  exact quiet ⟨text, halts⟩

theorem answer_of_loads
    (trace : Stop → String)
    (action : Action)
    (loads : Loads world.shelf file book) :
    answer trace world ⟨false, file, action⟩ = perform ⟨false, trace⟩ world action book := by
  rcases withBook_of_loads ⟨false, trace⟩ loads with ⟨detail, discreet, answered⟩
  rw [answer, answered, discreet.absent rfl]
  exact Reply.after_none _

theorem answer_of_halts
    {stop : Stop}
    (trace : Stop → String)
    (action : Action)
    (halts : Halts world.shelf file stop) :
    answer trace world ⟨false, file, action⟩ = handle ⟨false, trace⟩ action stop := by
  rcases withBook_of_halts ⟨false, trace⟩ halts with ⟨detail, discreet, answered⟩
  rw [answer, answered, discreet.absent rfl]
  exact Reply.after_none _

theorem previews_of_uninterrupted
    (trace : Stop → String)
    (target : Option String)
    (quiet : ¬Interrupted world.shelf file) :
    ∃ happened,
      Previews (answer trace world ⟨false, file, .plan target⟩)
        (answer trace world ⟨false, file, .run target true⟩) happened ∧
      ∀ book, Loads world.shelf file book → happened = dryEvents world target book := by
  rcases loads_or_halts world.shelf file with ⟨book, loads⟩ | ⟨stop, halts⟩ | ⟨name, rfl, missing⟩
  · rw [answer_of_loads trace _ loads, answer_of_loads trace _ loads]
    refine ⟨dryEvents world target book, previews_of_book rfl world target book, ?_⟩
    intro other again
    rw [loads.unique again]
  · have uninterrupted := uninterrupted_of_halts halts quiet
    rw [answer_of_halts trace _ halts, answer_of_halts trace _ halts]
    refine ⟨[], ?_, fun book loads => absurd halts loads.not_halts⟩
    show Previews (refuse ⟨false, trace⟩ stop) (fail ⟨false, trace⟩ stop) []
    rw [refuse_of_uninterrupted uninterrupted]
    exact previews_fail rfl uninterrupted
  · rw [answer, answer, withBook_of_missing _ missing, withBook_of_missing _ missing]
    have told : (missingFile name).output.err ≠ "" := Output.err_errorLines_ne _ _
    refine ⟨[], .refused (by decide) told, fun book loads => ?_⟩
    cases loads with
    | stated present _ => cases present.symm.trans missing

/--
Without debugging, the reply to showing a plan previews the reply to a dry run
of the same target, in every world and for every recipe file, exactly if the
loading of the book is not interrupted.  If there is a book to use, it previews
what happens when this book is run dry.  If the loading is interrupted, the run
reports it with its own exit status, and showing the plan is aborted.
-/
theorem plan_previews_dryRun_iff
    (trace : Stop → String)
    (world : World)
    (file target : Option String) :
    let planned := answer trace world ⟨false, file, .plan target⟩
    let dry := answer trace world ⟨false, file, .run target true⟩
    ((planned.exitCode = dry.exitCode ∧ ∃ happened, Previews planned dry happened ∧
        ∀ book, Loads world.shelf file book → happened = dryEvents world target book) ↔
      ¬Interrupted world.shelf file) ∧
    (Interrupted world.shelf file →
      planned = ⟨1, ⟨"", "\nAborted!\n"⟩, []⟩ ∧
        dry = ⟨130, ⟨"\nInterrupted by user\n", ""⟩, []⟩) := by
  intro planned dry
  have apart : Interrupted world.shelf file →
      planned = ⟨1, ⟨"", "\nAborted!\n"⟩, []⟩ ∧
        dry = ⟨130, ⟨"\nInterrupted by user\n", ""⟩, []⟩ := by
    rintro ⟨text, halts⟩
    have shown : planned = aborted := answer_of_halts trace _ halts
    have ran : dry = ⟨130, Terminal.notice "\nInterrupted by user", []⟩ :=
      answer_of_halts trace _ halts
    rw [shown, ran]
    exact ⟨by decide, by decide⟩
  refine ⟨⟨?_, ?_⟩, apart⟩
  · rintro ⟨same, _⟩ interrupted
    rcases apart interrupted with ⟨shown, ran⟩
    rw [shown, ran] at same
    cases same
  · intro quiet
    rcases previews_of_uninterrupted trace target quiet with ⟨happened, previews, own⟩
    exact ⟨previews.exitCode_eq, happened, previews, own⟩

/-- A recipe program that the user interrupts: showing the plan is aborted, the dry run reports it. -/
theorem interrupted_program_previewed_otherwise :
    let program : Contents :=
      .program [⟨"RECIPES", false, .error (.abort (.interrupted ""))⟩]
    let world : World :=
      ⟨⟨["work"], [], [(["work", "reciperun_recipes.py"], program)], []⟩, fun _ _ => .exited 0⟩
    let planned := answer (fun _ => "") world ⟨false, none, .plan none⟩
    let dry := answer (fun _ => "") world ⟨false, none, .run none true⟩
    planned.exitCode ≠ dry.exitCode ∧ planned.output.err ≠ dry.output.err ∧
      planned = ⟨1, ⟨"", "\nAborted!\n"⟩, []⟩ ∧
      dry = ⟨130, ⟨"\nInterrupted by user\n", ""⟩, []⟩ := by
  decide +kernel

end Session

end Cookbook
