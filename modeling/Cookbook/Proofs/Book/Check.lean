import Cookbook.Proofs.Catalog.Check
import Cookbook.Proofs.Execution.DryRun
import Cookbook.Proofs.Substitution
import Cookbook.Proofs.Template.Expansion

/-!
# What checking a book rules out

A check looks for the failures that can be seen without running anything: needs
that cannot be put into order, malformed placeholders, and variables without a
value.  A book that passes has none of them in any run.  A book that does not
pass has a recipe whose dry run fails.
-/

namespace Cookbook

open Template (namesIn)

/-- A failure of the needs, of a placeholder, or of a variable without a value. -/
def Failure.IsForeseeable : Failure → Prop
  | .unknownRecipe _ _ _ => True
  | .cyclicNeeds _ => True
  | .undefinedVariable _ _ _ => True
  | .badTemplate _ (.malformedPlaceholder _) _ => True
  | _ => False

/-- A command that fails when it is carried out is no failure of this kind. -/
theorem Failure.not_isForeseeable_of_arisesInAction
    {failure : Failure}
    (arises : (Stop.failure failure).ArisesInAction) :
    ¬failure.IsForeseeable := by
  cases failure with
  | commandFailed => exact not_false
  | unknownRecipe => exact arises.elim
  | nameTaken => exact arises.elim
  | variableTaken => exact arises.elim
  | unusableBook => exact arises.elim
  | cyclicNeeds => exact arises.elim
  | undefinedVariable => exact arises.elim
  | badTemplate => exact arises.elim
  | badJustfile => exact arises.elim

/-! ## Covered templates -/

namespace Bindings

variable
    {bindings : Bindings}
    {template : String}

/-- A template is well formed, and all of its variables have values. -/
def Covers (bindings : Bindings) (template : String) : Prop :=
  ∃ parts, Template.parts template = .ok parts ∧ ∀ name ∈ namesIn parts, name ∈ bindings.names

theorem covers_iff_expand
    (owner : Option String) :
    bindings.Covers template ↔ ∃ text, bindings.expand template owner = .ok text := by
  constructor
  · rintro ⟨parts, read, defined⟩
    exact ⟨_, expand_of_defined read defined⟩
  · rintro ⟨text, expanded⟩
    rcases exists_parts_of_expand expanded with ⟨parts, read, defined, _⟩
    exact ⟨parts, read, defined⟩

end Bindings

/-! ## Passing the check -/

namespace Book

variable
    {book : Book}
    {recipe template : String}
    {failure : Failure}
    {entries : List (String × String)}

theorem checkTemplate_eq_ok_iff :
    book.checkTemplate recipe template = .ok () ↔ book.bindings.Covers template := by
  simp only [checkTemplate, Template.variableNames, Bindings.Covers]
  cases Template.parts template with
  | error column => simp [Except.map]
  | ok parts =>
    simp only [Except.map, Except.ok.injEq, exists_eq_left']
    show _ ↔ ∀ name ∈ namesIn parts, name ∈ book.bindings.names
    split
    · rename_i name found
      have absent := List.find?_some found
      have named := List.mem_of_find?_eq_some found
      simp only [Bindings.contains, Bool.not_eq_true', List.contains_eq_mem,
        decide_eq_false_iff_not] at absent
      constructor
      · intro passed
        cases passed
      · intro defined
        exact absurd (defined name named) absent
    · rename_i unfound
      simp only [true_iff]
      intro name named
      have contained := List.find?_eq_none.mp unfound name named
      simpa [Bindings.contains] using contained

theorem checkTemplates_eq_ok_iff :
    book.checkTemplates entries = .ok () ↔
      ∀ entry ∈ entries, book.bindings.Covers entry.2 := by
  induction entries with
  | nil => simp [checkTemplates]
  | cons entry rest ih =>
    rw [checkTemplates, List.forall_mem_cons, ← @checkTemplate_eq_ok_iff book entry.1]
    cases checked : book.checkTemplate entry.1 entry.2 with
    | error failure => simp
    | ok _ => simp [ih]

theorem mem_allTemplates_iff :
    (recipe, template) ∈ book.allTemplates ↔
      ∃ owner ∈ book.catalog.recipes, owner.name = recipe ∧
        ∃ step ∈ owner.steps, template ∈ templates step := by
  simp only [allTemplates, List.mem_flatMap, List.mem_map, Prod.mk.injEq]
  constructor
  · rintro ⟨owner, present, written, ⟨step, member, inside⟩, named, rfl⟩
    exact ⟨owner, present, named, step, member, inside⟩
  · rintro ⟨owner, present, named, step, member, inside⟩
    exact ⟨owner, present, template, ⟨step, member, inside⟩, named, rfl⟩

/-- A step of which every template is covered. -/
def CoversStep (book : Book) (step : Step) : Prop :=
  ∀ template ∈ templates step, book.bindings.Covers template

/-- A check is passed exactly if every key has a plan and every template is covered. -/
theorem check_eq_ok_iff :
    book.check = .ok () ↔
      book.catalog.checkNeeds = .ok () ∧
        ∀ recipe ∈ book.catalog.recipes, ∀ step ∈ recipe.steps, book.CoversStep step := by
  have covered :
      (∀ entry ∈ book.allTemplates, book.bindings.Covers entry.2) ↔
        ∀ recipe ∈ book.catalog.recipes, ∀ step ∈ recipe.steps, book.CoversStep step := by
    constructor
    · intro all recipe present step member template inside
      exact all (recipe.name, template)
        (mem_allTemplates_iff.mpr ⟨recipe, present, rfl, step, member, inside⟩)
    · rintro all ⟨name, template⟩ entry
      rcases mem_allTemplates_iff.mp entry with ⟨recipe, present, _, step, member, inside⟩
      exact all recipe present step member template inside
  rw [← covered, ← checkTemplates_eq_ok_iff, check]
  cases book.catalog.checkNeeds with
  | error failure => simp
  | ok _ => simp

end Book

/-! ## Steps of a checked book -/

namespace Step

variable
    {step : Step}
    {book : Book}
    {bindings : Bindings}
    {recipe : Option String}
    {failure : Failure}

theorem isOperator_of_segments
    {line : String}
    {problem : TemplateProblem}
    (refused : Chain.segments line = .error problem) :
    ∃ operator column, problem = .shellOperator operator column := by
  simp only [Chain.segments] at refused
  split at refused
  · cases refused
  · rename_i found _
    cases refused
    exact ⟨_, _, rfl⟩

theorem words_of_covers
    (covers : bindings.Covers step.line)
    (refused : step.words bindings recipe = .error failure) :
    ¬failure.IsForeseeable := by
  cases refusal_of_words refused with
  | cut uncut =>
    rcases isOperator_of_segments uncut with ⟨operator, column, rfl⟩
    exact not_false
  | chain => exact not_false
  | expansion unexpanded =>
    rcases (Bindings.covers_iff_expand recipe).mp covers with ⟨text, expanded⟩
    rw [unexpanded] at expanded
    cases expanded
  | unfinished => exact not_false
  | empty => exact not_false

theorem exists_place_of_covers
    (covers : book.CoversStep step)
    (recipe : Option String) :
    ∃ directory, step.place book.bindings recipe = .ok directory := by
  cases given : step.directory with
  | none => exact ⟨none, by simp only [place, given]⟩
  | some directory =>
    have listed : directory ∈ Book.templates step := by
      simp [Book.templates, given]
    rcases (Bindings.covers_iff_expand recipe).mp (covers directory listed) with
      ⟨text, expanded⟩
    refine ⟨some text, ?_⟩
    simp only [place, given, expanded]
    rfl

/-- A step that can be filled in is covered. -/
theorem coversStep_of_filled
    {command : List String}
    {directory : Option String}
    (filled : step.words book.bindings recipe = .ok command)
    (placed : step.place book.bindings recipe = .ok directory) :
    book.CoversStep step := by
  intro template inside
  rcases List.mem_cons.mp inside with rfl | inDirectory
  · rcases exists_line_of_words filled with ⟨line, expanded, _⟩
    exact (Bindings.covers_iff_expand recipe).mpr ⟨line, expanded⟩
  · have given := Option.mem_toList.mp inDirectory
    simp only [place, Option.mem_def.mp given] at placed
    rcases exists_of_map_eq_ok placed with ⟨text, expanded, _⟩
    exact (Bindings.covers_iff_expand recipe).mpr ⟨text, expanded⟩

end Step

namespace Job

variable
    {job : Job}
    {task : Task}
    {tasks : List Task}
    {attempts : List Attempt}
    {stop : Stop}

theorem mem_tasksOf_iff
    {plan : List Recipe} :
    task ∈ tasksOf plan ↔
      ∃ recipe ∈ plan, recipe.name = task.recipe ∧ task.step ∈ recipe.steps := by
  rcases task with ⟨owner, step⟩
  simp only [tasksOf, Recipe.tasks, List.mem_flatMap, List.mem_map, Task.mk.injEq]
  constructor
  · rintro ⟨recipe, present, other, member, named, rfl⟩
    exact ⟨recipe, present, named, member⟩
  · rintro ⟨recipe, present, named, member⟩
    exact ⟨recipe, present, step, member, named, rfl⟩

/-- A covered task that cannot be filled in fails for a reason that a check does not look for. -/
theorem not_isForeseeable_of_attempt
    {failure : Failure}
    (covers : job.book.CoversStep task.step)
    (unfilled : job.attempt task = .error failure) :
    ¬failure.IsForeseeable := by
  rcases unfilled_of_attempt unfilled with words | place
  · exact Step.words_of_covers (covers task.step.line List.mem_cons_self) words
  · rcases Step.exists_place_of_covers covers (some task.recipe) with ⟨directory, placed⟩
    rw [placed] at place
    cases place

/-- A rehearsal is stopped by a task that cannot be filled in. -/
theorem Rehearsal.stopped
    (rehearsal : job.Rehearsal tasks attempts (.error stop)) :
    ∃ task ∈ tasks, ∃ failure, job.attempt task = .error failure ∧ stop = .failure failure := by
  generalize reached : Except.error (α := Unit) stop = result at rehearsal
  induction rehearsal with
  | done => cases reached
  | @unfilled task rest failure problem =>
    cases reached
    exact ⟨task, List.mem_cons_self, failure, problem, rfl⟩
  | @more first rest attempt later result _ _ ih =>
    rcases ih reached with ⟨task, member, failure, problem, same⟩
    exact ⟨task, List.mem_cons_of_mem first member, failure, problem, same⟩

/-- A rehearsal that comes to its end fills in each of its tasks. -/
theorem Rehearsal.exists_attempt
    (rehearsal : job.Rehearsal tasks attempts (.ok ()))
    (member : task ∈ tasks) :
    ∃ attempt, job.attempt task = .ok attempt := by
  generalize reached : Except.ok (ε := Stop) () = result at rehearsal
  induction rehearsal with
  | done => cases member
  | unfilled => cases reached
  | more filled _ ih =>
    rcases List.mem_cons.mp member with rfl | later
    · exact ⟨_, filled⟩
    · exact ih later reached

/-- A run of covered tasks meets no failure that a check looks for. -/
theorem not_isForeseeable_of_runPlan
    {plan : List Recipe}
    {failure : Failure}
    (surroundings : Surroundings)
    (covers : ∀ task ∈ tasksOf plan, job.book.CoversStep task.step)
    (failed : (job.runPlan surroundings plan).result = .error (.failure failure)) :
    ¬failure.IsForeseeable := by
  cases dry : job.dryRun with
  | true =>
    rcases runPlan_rehearses dry surroundings plan with ⟨attempts, rehearsal, _⟩
    rw [failed] at rehearsal
    rcases rehearsal.stopped with ⟨task, member, problem, unfilled, same⟩
    cases same
    exact not_isForeseeable_of_attempt (covers task member) unfilled
  | false =>
    rcases runPlan_follows dry surroundings plan with ⟨attempts, course, _⟩
    rw [failed] at course
    rcases course.stopped with fails | ⟨_, task, problem, next, unfilled, same⟩
    · rcases fails with ⟨front, last, cause, _, failed, same⟩
      have arises : (cause.ownedBy last.recipe).ArisesInAction :=
        arisesInAction_ownedBy (arisesInAction_of_outcome failed)
      rw [← same] at arises
      exact Failure.not_isForeseeable_of_arisesInAction arises
    · cases same
      exact not_isForeseeable_of_attempt (covers task (List.mem_of_getElem? next)) unfilled

end Job

/-! ## Whole books -/

/-- A target that a book has: one of its keys, or the default of a book with recipes. -/
def Book.HasTarget (book : Book) : Option String → Prop
  | some name => name ∈ book.catalog.keys
  | none =>
    book.catalog.recipes ≠ [] ∧ ∀ name, book.default = some name → name ∈ book.catalog.keys

namespace Book

variable
    {book : Book}
    {target : Option String}

theorem exists_implicitTarget
    (has : book.HasTarget none) :
    ∃ name ∈ book.catalog.keys, book.implicitTarget = .ok name := by
  rcases has with ⟨present, stated⟩
  unfold implicitTarget
  split
  · rename_i name given
    exact ⟨name, stated name given, rfl⟩
  · split
    · rename_i listed
      exact ⟨"default", (book.catalog.contains_iff "default").mp listed, rfl⟩
    · rcases List.exists_cons_of_ne_nil present with ⟨recipe, rest, whole⟩
      have names : book.catalog.names = recipe.name :: rest.map Recipe.name := by
        rw [Catalog.names, whole, List.map_cons]
      rw [names]
      refine ⟨recipe.name, ?_, rfl⟩
      have member : recipe ∈ book.catalog.recipes := by
        rw [whole]
        exact List.mem_cons_self
      exact Catalog.mem_keys_iff.mpr ⟨recipe, Catalog.find?_name member⟩

/-- In a checked book every target that it has is planned. -/
theorem exists_plan_of_hasTarget
    (checked : book.catalog.checkNeeds = .ok ())
    (has : book.HasTarget target) :
    ∃ name plan, book.plan target = .ok plan ∧ book.catalog.plan name = .ok plan := by
  cases target with
  | some name =>
    rcases Catalog.exists_plan_of_checkNeeds checked has with ⟨plan, planned⟩
    exact ⟨name, plan, planned, planned⟩
  | none =>
    rcases exists_implicitTarget has with ⟨name, known, implicit⟩
    rcases Catalog.exists_plan_of_checkNeeds checked known with ⟨plan, planned⟩
    refine ⟨name, plan, ?_, planned⟩
    simp only [Book.plan, implicit, planned]

theorem coversStep_of_mem_tasksOf
    (covered : ∀ recipe ∈ book.catalog.recipes, ∀ step ∈ recipe.steps, book.CoversStep step)
    {name : String}
    {plan : List Recipe}
    (planned : book.catalog.plan name = .ok plan) :
    ∀ task ∈ tasksOf plan, book.CoversStep task.step := by
  intro task member
  rcases Job.mem_tasksOf_iff.mp member with ⟨recipe, inPlan, _, inSteps⟩
  exact covered recipe (Catalog.mem_recipes_of_mem_plan planned inPlan) task.step inSteps

/-- A recipe with a step that is not covered fails when it is rehearsed. -/
theorem exists_failure_of_uncovered
    {recipe : Recipe}
    {step : Step}
    (checked : book.catalog.checkNeeds = .ok ())
    (member : recipe ∈ book.catalog.recipes)
    (inSteps : step ∈ recipe.steps)
    (uncovered : ¬book.CoversStep step)
    (worker : Worker)
    (workdir : Option Path)
    (surroundings : Surroundings) :
    ∃ failure,
      (worker.run ⟨book, workdir, true⟩ surroundings (some recipe.name)).2.result =
        .error (.failure failure) := by
  have found := Catalog.find?_name member
  have known : recipe.name ∈ book.catalog.keys := Catalog.mem_keys_iff.mpr ⟨recipe, found⟩
  rcases Catalog.exists_plan_of_checkNeeds checked known with ⟨plan, planned⟩
  have inPlan : recipe ∈ plan :=
    ((Catalog.isPlan_of_plan planned).exact recipe).mpr ⟨recipe, found, .refl⟩
  have listed : ⟨recipe.name, step⟩ ∈ tasksOf plan :=
    Job.mem_tasksOf_iff.mpr ⟨recipe, inPlan, rfl, inSteps⟩
  let job : Job := ⟨book, workdir, true⟩
  have ran := worker.run_of_ok surroundings (show job.book.plan (some recipe.name) = _ from planned)
  rw [show Job.mk book workdir true = job from rfl, ran]
  rcases Job.runPlan_rehearses (rfl : job.dryRun = true) surroundings plan with
    ⟨attempts, rehearsal, _⟩
  cases came : (job.runPlan surroundings plan).result with
  | error stop =>
    rw [came] at rehearsal
    rcases rehearsal.stopped with ⟨task, _, failure, _, rfl⟩
    exact ⟨failure, rfl⟩
  | ok results =>
    rw [came] at rehearsal
    rcases rehearsal.exists_attempt listed with ⟨attempt, filled⟩
    rcases Job.filled_of_attempt filled with ⟨words, place⟩
    exact absurd (Step.coversStep_of_filled words place) uncovered

end Book

/--
A book that passes the check meets no failure of needs, placeholders or
variables in any run, real or dry, of any target that it has.  A book that does
not pass has a recipe whose dry run fails, whatever its surroundings.
-/
theorem check_sound_and_complete
    (book : Book) :
    (book.check = .ok () →
      ∀ (target : Option String) (worker : Worker) (workdir : Option Path) (dryRun : Bool)
        (surroundings : Surroundings) (failure : Failure),
        book.HasTarget target →
          (worker.run ⟨book, workdir, dryRun⟩ surroundings target).2.result =
            .error (.failure failure) →
            ¬failure.IsForeseeable) ∧
    ∀ problem,
      book.check = .error problem →
        ∃ name ∈ book.catalog.names,
          ∀ (worker : Worker) (workdir : Option Path) (surroundings : Surroundings),
            ∃ failure,
              (worker.run ⟨book, workdir, true⟩ surroundings (some name)).2.result =
                .error (.failure failure) := by
  constructor
  · intro passed target worker workdir dryRun surroundings failure has failed
    rcases Book.check_eq_ok_iff.mp passed with ⟨checked, covered⟩
    rcases Book.exists_plan_of_hasTarget checked has with ⟨name, plan, planned, inCatalog⟩
    let job : Job := ⟨book, workdir, dryRun⟩
    have ran := worker.run_of_ok surroundings (show job.book.plan target = _ from planned)
    rw [show Job.mk book workdir dryRun = job from rfl, ran] at failed
    exact Job.not_isForeseeable_of_runPlan surroundings
      (Book.coversStep_of_mem_tasksOf covered inCatalog) failed
  · intro problem refused
    cases checked : book.catalog.checkNeeds with
    | error failure =>
      rw [Catalog.checkNeeds_eq_planEach] at checked
      rcases Catalog.exists_of_planEach_eq_error checked with ⟨name, member, unplanned⟩
      refine ⟨name, member, fun worker workdir surroundings => ⟨failure, ?_⟩⟩
      let job : Job := ⟨book, workdir, true⟩
      have ran := worker.run_of_error surroundings
        (show job.book.plan (some name) = _ from unplanned)
      rw [show Job.mk book workdir true = job from rfl, ran]
    | ok _ =>
      have uncovered :
          ¬∀ recipe ∈ book.catalog.recipes, ∀ step ∈ recipe.steps, book.CoversStep step := by
        intro covered
        rw [Book.check_eq_ok_iff.mpr ⟨checked, covered⟩] at refused
        cases refused
      push Not at uncovered
      rcases uncovered with ⟨recipe, member, step, inSteps, uncovered⟩
      exact ⟨recipe.name, List.mem_map_of_mem member,
        Book.exists_failure_of_uncovered checked member inSteps uncovered⟩

end Cookbook
