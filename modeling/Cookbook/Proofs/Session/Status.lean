import Cookbook.Proofs.Session.FirstFailure

/-!
# The exit status of a run

The exit status of a run is zero exactly if nothing is in the way of the run,
and otherwise the status that its first failure leads to.  That is never zero
and fits into an octet, whatever code a process may have returned.  The results
of the recipes are written exactly if the exit status is zero.
-/

namespace Cookbook

/-! ## The standard output of a run -/

namespace Job

/--
What a run writes on the standard output before it is known how the run ends:
nothing without a plan, else its opening and the recipes that it enters.
-/
inductive Progress (job : Job) (target : Option String) : String → Prop
  | unplanned {failure : Failure}
      (unplanned : job.book.plan target = .error failure) :
      Progress job target ""
  | planned {plan : List Recipe} {name : String} {entered : List String}
      (planned : job.book.plan target = .ok plan)
      (named : Session.targetOf job.book target = .ok name)
      (inOrder : entered <+: plan.map Recipe.name) :
      Progress job target
        ((Terminal.opening job.book.source name (plan.map Recipe.name)).out ++
          Terminal.banners entered)

/-- What a run that has an exit status writes at its end. -/
inductive Closing (job : Job) (target : Option String) : Nat → String → Prop
  | results {plan : List Recipe}
      (planned : job.book.plan target = .ok plan) :
      Closing job target 0
        (Terminal.summary (plan.map fun recipe => (recipe.name, job.status.text))).out
  | silence {status : Nat}
      (fails : status ≠ 0) :
      Closing job target status ""
  | interruption :
      Closing job target 130 "\nInterrupted by user\n"

end Job

/-- The block of results starts with a rule on a line of its own. -/
theorem Terminal.exists_summary
    (rows : List (String × String)) :
    ∃ rest, (Terminal.summary rows).out.toList = '\n' :: '=' :: rest := by
  rw [Terminal.summary, Output.lines, List.map_cons, String.join_cons, String.toList_append,
    String.toList_append]
  exact ⟨_, rfl⟩

/-- A run closes with the block of results exactly if its exit status is zero. -/
theorem Job.Closing.results_iff
    {job : Job}
    {target : Option String}
    {status : Nat}
    {text : String}
    (closing : job.Closing target status text) :
    (∃ rows, text = (Terminal.summary rows).out) ↔ status = 0 := by
  cases closing with
  | results planned => exact iff_of_true ⟨_, rfl⟩ rfl
  | silence fails =>
    refine iff_of_false ?_ fails
    rintro ⟨rows, same⟩
    rcases Terminal.exists_summary rows with ⟨rest, starts⟩
    rw [← same] at starts
    cases starts
  | interruption =>
    refine iff_of_false ?_ (by decide)
    rintro ⟨rows, same⟩
    rcases Terminal.exists_summary rows with ⟨rest, starts⟩
    rw [← same] at starts
    simp at starts

/-! ## How a run is answered -/

namespace Session

variable
    {world : World}
    {book : Book}
    {file target : Option String}
    {dryRun : Bool}

/-- A reply has the exit status of an end, and its standard output fits to a run of a target. -/
structure Reports (job : Job) (target : Option String) (ended : Except Stop Unit)
    (reply : Reply) : Prop where
  exitCode : reply.exitCode =
    match ended with
    | .ok () => 0
    | .error stop => exitCode stop
  output : ∃ progress closing, reply.output.out = progress ++ closing ∧
    job.Progress target progress ∧ job.Closing target reply.exitCode closing

section Reports

variable
    {job : Job}
    {ended : Except Stop Unit}
    {reply : Reply}

/-- What is written on the standard error output does not matter. -/
theorem Reports.after
    {detail : Output}
    (reports : Reports job target ended reply)
    (silent : detail.out = "") :
    Reports job target ended (reply.after detail) := by
  have same : (reply.after detail).output.out = reply.output.out := by
    rw [Reply.after, Output.out_append, silent, String.empty_append]
  constructor
  case exitCode => exact reports.exitCode
  case output =>
    rw [same]
    exact reports.output

theorem Reports.exitCode_eq_zero_iff
    (reports : Reports job target ended reply) :
    reply.exitCode = 0 ↔ ended = .ok () := by
  rw [reports.exitCode]
  cases ended with
  | ok _ => exact iff_of_true rfl rfl
  | error stop =>
    have positive := (exitCode_range stop).1
    refine iff_of_false (Nat.one_le_iff_ne_zero.mp positive) ?_
    rintro ⟨⟩

theorem Reports.exitCode_eq_iff
    {status : Nat}
    (reports : Reports job target ended reply) :
    (∃ stop, ended = .error stop ∧ Session.exitCode stop = status) ↔
      reply.exitCode = status ∧ status ≠ 0 := by
  rw [reports.exitCode]
  cases ended with
  | ok _ =>
    constructor
    · rintro ⟨stop, ⟨⟩, _⟩
    · rintro ⟨rfl, nonzero⟩
      exact absurd rfl nonzero
  | error stop =>
    have positive := (exitCode_range stop).1
    constructor
    · rintro ⟨other, ⟨⟩, rfl⟩
      exact ⟨rfl, Nat.one_le_iff_ne_zero.mp positive⟩
    · rintro ⟨rfl, _⟩
      exact ⟨stop, rfl, rfl⟩

theorem Reports.exitCode_le
    (reports : Reports job target ended reply) :
    reply.exitCode ≤ 255 := by
  rw [reports.exitCode]
  cases ended with
  | ok _ => exact Nat.zero_le 255
  | error stop => exact (exitCode_range stop).2

end Reports

theorem closing_report
    (job : Job)
    (target : Option String)
    (terminal : Terminal)
    (stop : Stop) :
    job.Closing target (exitCode stop) (report terminal stop).out := by
  have fails : exitCode stop ≠ 0 := Nat.one_le_iff_ne_zero.mp (exitCode_range stop).1
  unfold report
  split
  · exact .interruption
  · have silent : (terminal.stopNotice stop).out = "" := by
      unfold Terminal.stopNotice
      split <;> rfl
    rw [silent]
    exact .silence fails

/-- A run is answered by its progress and its end. -/
theorem reports_run
    (terminal : Terminal)
    (world : World)
    (target : Option String)
    (dryRun : Bool)
    (book : Book) :
    Reports ⟨book, none, dryRun⟩ target
      (Job.finale ⟨book, none, dryRun⟩ world.surroundings target)
      (run terminal world target dryRun book) := by
  let job : Job := ⟨book, none, dryRun⟩
  cases planned : book.plan target with
  | error failure =>
    have unplanned : job.book.plan target = .error failure := planned
    have ended : job.finale world.surroundings target = .error (.failure failure) := by
      simp only [Job.finale, unplanned]
    rw [run_of_unplanned terminal world dryRun planned, ended]
    refine ⟨rfl, "", (report terminal (.failure failure)).out, ?_, .unplanned unplanned, ?_⟩
    · exact String.empty_append.symm
    · exact closing_report job target terminal (.failure failure)
  | ok plan =>
    have runnable : job.book.plan target = .ok plan := planned
    have ended : job.finale world.surroundings target =
        (fun _ => ()) <$> (job.runPlan world.surroundings plan).result := by
      simp only [Job.finale, runnable, Job.result_runPlan]
    rcases exists_name_of_plan planned with ⟨name, named, own⟩
    have inOrder := Job.entered_runPlan job world.surroundings plan
    rw [run_of_planned terminal world dryRun named own, ended]
    cases came : (job.runPlan world.surroundings plan).result with
    | ok results =>
      rw [runTarget_of_ok terminal own came]
      refine ⟨rfl, (passage terminal world job name plan).out, _, rfl, ?_, .results runnable⟩
      rw [out_passage]
      exact .planned runnable named inOrder
    | error stop =>
      rw [runTarget_of_error terminal own came]
      refine ⟨rfl, (passage terminal world job name plan).out, _, rfl, ?_,
        closing_report job target terminal stop⟩
      rw [out_passage]
      exact .planned runnable named inOrder

/--
The exit status of a run with a book that loads is zero exactly if nothing is
in its way, and otherwise the status of its first failure, which is none but a
failure's.  On the standard output stands the progress of the run, and the
results of its recipes behind it exactly if the exit status is zero.
-/
theorem run_status
    (trace : Stop → String)
    (world : World)
    (debug : Bool)
    (target : Option String)
    (dryRun : Bool)
    (loads : Loads world.shelf file book) :
    let job : Job := ⟨book, none, dryRun⟩
    let reply := answer trace world ⟨debug, file, .run target dryRun⟩
    (reply.exitCode = 0 ↔ job.Completes world.surroundings target) ∧
      (∀ status, job.FirstFailure world.surroundings target status ↔
        reply.exitCode = status ∧ status ≠ 0) ∧
      reply.exitCode ≤ 255 ∧
      ∃ progress closing, reply.output.out = progress ++ closing ∧
        job.Progress target progress ∧ job.Closing target reply.exitCode closing ∧
        ((∃ rows, closing = (Terminal.summary rows).out) ↔ reply.exitCode = 0) := by
  intro job reply
  rcases withBook_of_loads ⟨debug, trace⟩ loads with ⟨detail, discreet, same⟩
  have answered : reply =
      (run ⟨debug, trace⟩ world target dryRun book).after detail := same _ _
  have reports : Reports job target (job.finale world.surroundings target) reply := by
    rw [answered]
    exact (reports_run ⟨debug, trace⟩ world target dryRun book).after discreet.silent
  rcases reports.output with ⟨progress, closing, whole, progresses, closes⟩
  refine ⟨?_, ?_, reports.exitCode_le, progress, closing, whole, progresses, closes,
    closes.results_iff⟩
  · rw [reports.exitCode_eq_zero_iff, Job.finale_eq_ok_iff]
  · intro status
    rw [Job.firstFailure_iff, reports.exitCode_eq_iff]

/-- Behind a change of directory, a process that is killed by signal nine decides the status. -/
theorem run_status_killed :
    let shelf : Shelf := ⟨[], [["frb_codegen"]], [], []⟩
    let world : World := ⟨shelf, fun _ _ => .exited (-9)⟩
    let job : Job := ⟨Book.builtin, none, false⟩
    Loads shelf none Book.builtin ∧
      (answer (fun _ => "") world ⟨false, none, .run (some "b") false⟩).exitCode = 137 ∧
      job.FirstFailure world.surroundings (some "b") 137 := by
  intro shelf world job
  have loads : Loads shelf none Book.builtin := .builtin (by with_unfolding_all rfl)
  have answered :
      (answer (fun _ => "") world ⟨false, none, .run (some "b") false⟩).exitCode = 137 := by
    decide +kernel
  have decides := (run_status (fun _ => "") world false (some "b") false loads).2.1
  exact ⟨loads, answered, (decides 137).mpr ⟨answered, by decide⟩⟩

end Session

end Cookbook
