import Cookbook.Proofs.Chain.Steps
import Cookbook.Proofs.Execution.FailFast
import Cookbook.Proofs.Path.Join
import Cookbook.Proofs.Substitution

/-!
# Changes of directory

A change of directory is read twice.  When its line is cut, the words as they
are written fix the directory of the steps behind it; when it runs, the words
with the values of variables filled in say which directory has to be there.
The later steps run in the directory that was checked exactly when both
readings lead to one path.  They do on lines without braces; blanks inside a
placeholder, for one, tear them apart.
-/

namespace Cookbook

namespace Job

variable
    {job : Job}
    {surroundings : Surroundings}
    {past : List Start}
    {attempt : Attempt}
    {task : Task}

/-! ## Following a change -/

/-- The attempts of a run: the tasks that its history covers, filled in. -/
def attempted (job : Job) (tasks : List Task) (worker : Worker) : List Attempt :=
  (tasks.take worker.history.length).filterMap fun task => (job.attempt task).toOption

/--
Behind a change to a directory that is there, everything up to and including
the next change works at exactly that path.
-/
def FollowsChanges (job : Job) (surroundings : Surroundings)
    (attempts : List Attempt) : Prop :=
  ∀ front change between later back target,
    attempts = front ++ change :: (between ++ later :: back) →
      change.command = ["cd", target] →
        surroundings.isDirectory (job.starts front) (job.destination change target) = .ok true →
          (∀ other ∈ between, ∀ place, other.command ≠ ["cd", place]) →
            job.workplace later = job.destination change target

/-- A run can get past a task that can be filled in and changes to one directory if to any. -/
def Passes (job : Job) (task : Task) : Prop :=
  ∃ attempt, job.attempt task = .ok attempt ∧
    (attempt.command.head? = some "cd" → ∃ target, attempt.command = ["cd", target])

/--
The two readings of a task agree: if it changes to a directory when it runs,
then the directory fixed by its written words, filled in, is the same path.
-/
def Agrees (job : Job) (task : Task) : Prop :=
  ∀ words attempt target directory,
    Word.split task.step.line = .ok words →
      job.attempt task = .ok attempt →
        attempt.command = ["cd", target] →
          Step.place { task.step with
              directory := Chain.directoryAfter task.step.directory words }
            job.book.bindings (some task.recipe) = .ok directory →
            (job.startDirectory directory).getD Path.here = job.destination attempt target

/-- Every step agrees that a run of the steps can reach and get past. -/
def Settled (job : Job) (recipe : String) (steps : List Step) : Prop :=
  ∀ front change next back,
    steps = front ++ change :: next :: back →
      (∀ step ∈ front, job.Passes ⟨recipe, step⟩) →
        (∃ attempt, job.attempt ⟨recipe, next⟩ = .ok attempt) →
          job.Agrees ⟨recipe, change⟩

/-! ## From agreement to following -/

theorem place_congr
    {step other : Step}
    {bindings : Bindings}
    {recipe : Option String}
    (same : step.directory = other.directory) :
    step.place bindings recipe = other.place bindings recipe := by
  simp only [Step.place, same]

/--
As long as no attempt changes the directory, the directory of the first step
stays: no step whose written words change it can run without changing it.
-/
theorem Course.carried
    {recipe : String}
    {directory : Option String}
    {steps : List Step}
    {between back : List Attempt}
    {later : Attempt}
    {result : Except Stop Unit}
    (course : job.Course surroundings past (steps.map (Task.mk recipe))
      (between ++ later :: back) result)
    (linked : Chain.Linked directory steps)
    (stays : ∀ other ∈ between, ∀ place, other.command ≠ ["cd", place])
    (step : Step)
    (starts : step.directory = directory) :
    step.place job.book.bindings (some recipe) = .ok later.directory := by
  induction between generalizing past directory steps with
  | nil =>
    rcases course.uncons with ⟨task, rest, whole, filled, _⟩
    cases linked with
    | nil => cases whole
    | @cons first _ behind _ _ =>
      cases whole
      rw [@place_congr step first _ _ starts]
      exact (filled_of_attempt filled).2
  | cons other between ih =>
    rcases course.uncons with ⟨task, rest, whole, filled, behind⟩
    rcases behind (List.append_ne_nil_of_right_ne_nil _ (List.cons_ne_nil _ _)) with
      ⟨succeeds, course⟩
    cases linked with
    | nil => cases whole
    | @cons first words _ spelled further =>
      cases whole
      have unchanged : ∀ target, words ≠ ["cd", target] := by
        rintro target rfl
        have head := Step.head?_words spelled (by decide) (filled_of_attempt filled).1
        rcases changes_of_succeeds head succeeds with ⟨place, changes⟩
        exact stays other List.mem_cons_self place changes
      rw [Chain.directoryAfter_of_other unchanged] at further
      exact ih course further (fun next inside => stays next (List.mem_cons_of_mem other inside))
        starts

theorem Course.exists_next
    {recipe : String}
    {steps : List Step}
    {attempts : List Attempt}
    {result : Except Stop Unit}
    (course : job.Course surroundings past (steps.map (Task.mk recipe)) attempts result)
    (more : attempts ≠ []) :
    ∃ next back attempt, steps = next :: back ∧ job.attempt ⟨recipe, next⟩ = .ok attempt := by
  rcases List.exists_cons_of_ne_nil more with ⟨attempt, later, rfl⟩
  rcases course.uncons with ⟨task, rest, whole, filled, _⟩
  cases steps with
  | nil => cases whole
  | cons next back =>
    cases whole
    exact ⟨next, back, attempt, rfl, filled⟩

theorem Settled.behind
    {recipe : String}
    {step : Step}
    {rest : List Step}
    (settled : job.Settled recipe (step :: rest))
    (passes : job.Passes ⟨recipe, step⟩) :
    job.Settled recipe rest := by
  intro front change next back split earlier filled
  apply settled (step :: front) change next back (congrArg (step :: ·) split) ?_ filled
  intro other member
  rcases List.mem_cons.mp member with rfl | inside
  · exact passes
  · exact earlier other inside

/-- The attempts of a course follow changes of directory if the steps are settled. -/
theorem Course.followsChanges
    {recipe : String}
    {directory : Option String}
    {steps : List Step}
    {attempts : List Attempt}
    {result : Except Stop Unit}
    (course : job.Course surroundings past (steps.map (Task.mk recipe)) attempts result)
    (linked : Chain.Linked directory steps)
    (settled : job.Settled recipe steps) :
    job.FollowsChanges surroundings attempts := by
  rintro front change between later back target split changes - stays
  -- by induction on the attempts in front of the change
  induction front generalizing past directory steps attempts with
  | nil =>
    subst split
    have more : between ++ later :: back ≠ [] := by simp
    rcases course.uncons with ⟨task, rest, whole, filled, behind⟩
    rcases behind more with ⟨_, course⟩
    cases linked with
    | nil => cases whole
    | @cons step words steps spelled linked =>
      cases whole
      rcases course.exists_next more with ⟨next, further, attempt, same, nextFilled⟩
      have agrees := settled [] step next further (congrArg (step :: ·) same) (by simp)
        ⟨attempt, nextFilled⟩
      exact agrees words change target later.directory spelled filled changes
        (course.carried linked stays _ rfl)
  | cons first front ih =>
    subst split
    rcases course.uncons with ⟨task, rest, whole, filled, behind⟩
    rcases behind (by simp) with ⟨succeeds, course⟩
    cases linked with
    | nil => cases whole
    | @cons step words steps spelled linked =>
      cases whole
      have passes : job.Passes ⟨recipe, step⟩ :=
        ⟨first, filled, fun change => changes_of_succeeds change succeeds⟩
      exact ih course linked (settled.behind passes) rfl

/-! ## From following to agreement -/

/-- Every directory is there and every process ends with code zero. -/
def obliging : Surroundings :=
  ⟨fun _ _ => .ok true, fun _ _ => .exited 0⟩

theorem succeeds_obliging
    (single : attempt.command.head? = some "cd" → ∃ target, attempt.command = ["cd", target]) :
    job.Succeeds obliging past attempt := by
  by_cases change : attempt.command.head? = some "cd"
  · rcases single change with ⟨target, whole⟩
    simp only [Succeeds, start?, if_pos change]
    exact ⟨target, whole, rfl⟩
  · simp only [Succeeds, start?, if_neg change]
    rfl

/-- In obliging surroundings a run gets past every step that is well formed. -/
theorem Course.adjacent
    {recipe : String}
    {front back : List Step}
    {change next : Step}
    {first second : Attempt}
    {attempts : List Attempt}
    {result : Except Stop Unit}
    (course : job.Course obliging past
      ((front ++ change :: next :: back).map (Task.mk recipe)) attempts result)
    (passes : ∀ step ∈ front, job.Passes ⟨recipe, step⟩)
    (changing : job.attempt ⟨recipe, change⟩ = .ok first)
    (single : ∃ target, first.command = ["cd", target])
    (filled : job.attempt ⟨recipe, next⟩ = .ok second) :
    ∃ earlier later, attempts = earlier ++ first :: second :: later := by
  induction front generalizing past attempts with
  | nil =>
    rcases course.cons_of_filled changing with ⟨later, rfl, behind⟩
    rcases (behind (succeeds_obliging fun _ => single)).cons_of_filled filled with
      ⟨further, rfl, _⟩
    exact ⟨[], further, rfl⟩
  | cons step front ih =>
    rcases passes step List.mem_cons_self with ⟨attempt, stepFilled, one⟩
    rcases course.cons_of_filled stepFilled with ⟨later, rfl, behind⟩
    have others : ∀ other ∈ front, job.Passes ⟨recipe, other⟩ :=
      fun other inside => passes other (List.mem_cons_of_mem step inside)
    rcases ih (behind (succeeds_obliging one)) others with ⟨earlier, further, rfl⟩
    exact ⟨attempt :: earlier, further, rfl⟩

theorem settled_of_followsChanges
    {recipe : String}
    {directory : Option String}
    {steps : List Step}
    {attempts : List Attempt}
    {result : Except Stop Unit}
    (course : job.Course obliging [] (steps.map (Task.mk recipe)) attempts result)
    (linked : Chain.Linked directory steps)
    (follows : job.FollowsChanges obliging attempts) :
    job.Settled recipe steps := by
  intro front change next back split passes nextFilled words attempt target left spelled filled
    changes place
  rcases nextFilled with ⟨second, nextFilled⟩
  subst split
  rcases course.adjacent passes filled ⟨target, changes⟩ nextFilled with ⟨earlier, later, rfl⟩
  have works := follows earlier attempt [] second later target rfl changes rfl (by simp)
  rcases linked.adjacent with ⟨others, otherSpelled, inherits⟩
  rw [spelled] at otherSpelled
  cases otherSpelled
  rw [place_congr (show _ = next.directory from inherits.symm),
    (filled_of_attempt nextFilled).2] at place
  cases place
  exact works

/-! ## Lines without braces -/

theorem startDirectory_directoryAfter
    (directory : Option String)
    (target : String) :
    (job.startDirectory (Chain.directoryAfter directory ["cd", target])).getD Path.here =
      ((job.startDirectory directory).getD Path.here).join target := by
  cases directory with
  | none => rfl
  | some base => exact (Path.join_join _ base target).symm

theorem agrees_of_free
    {recipe : String}
    {step : Step}
    (line : '{' ∉ step.line.toList)
    (place : ∀ directory, step.directory = some directory → '{' ∉ directory.toList) :
    job.Agrees ⟨recipe, step⟩ := by
  intro words attempt target left spelled filled changes placed
  rcases filled_of_attempt filled with ⟨command, directory⟩
  have written := Step.words_of_free line spelled command
  rw [changes] at written
  subst written
  rw [Step.place_of_free place] at directory
  have free := Chain.not_mem_directoryAfter (by decide) spelled line place
  rw [Step.place_of_free free] at placed
  rw [← Except.ok.inj placed, startDirectory_directoryAfter, Except.ok.inj directory]
  rfl

theorem settled_of_free
    {recipe : String}
    {steps : List Step}
    (linked : Chain.Linked none steps)
    (free : ∀ step ∈ steps, '{' ∉ step.line.toList) :
    job.Settled recipe steps := by
  intro front change next back split _ _
  have member : change ∈ steps := by simp [split]
  apply agrees_of_free (free change member)
  exact linked.not_mem_directory (by decide) free (by simp) change member

/-! ## The attempts of a run -/

theorem attempted_eq
    {tasks : List Task}
    {attempts : List Attempt}
    {result : Except Stop Unit}
    {worker : Worker}
    (course : job.Course surroundings past tasks attempts result)
    (history : worker.history = attempts.map Attempt.record) :
    job.attempted tasks worker = attempts := by
  have filled := congrArg (List.filterMap Except.toOption) course.filled
  rw [List.filterMap_map, List.filterMap_map] at filled
  rw [attempted, history, List.length_map]
  exact filled.trans List.filterMap_some

theorem exists_course_of_run
    {target : Option String}
    {recipe : Recipe}
    (real : job.dryRun = false)
    (planned : job.book.plan target = .ok [recipe])
    (worker : Worker)
    (surroundings : Surroundings) :
    let ran := worker.run job surroundings target
    let attempts := job.attempted recipe.tasks ran.1
    ran.1.history = attempts.map Attempt.record ∧
      ran.2.starts = job.starts attempts ∧
        ∃ result, job.Course surroundings [] recipe.tasks attempts result := by
  intro ran attempts
  rcases runPlan_follows real surroundings [recipe] with ⟨found, course, same⟩
  rw [tasksOf, List.flatMap_singleton] at course
  have whole : ran = _ := worker.run_of_ok surroundings planned
  have history : ran.1.history = found.map Attempt.record := by
    rw [whole, Trace.history_eq_filterMap_actions, same, filterMap_record?_actions]
  have starts : ran.2.starts = job.starts found := by
    rw [whole]
    exact starts_eq_of_actions same
  have exact : attempts = found := attempted_eq course history
  rw [exact]
  exact ⟨history, starts, _, course⟩

end Job

/-- A book with one recipe. -/
def Book.ofRecipe (bindings : Bindings) (recipe : Recipe)
    (distinct : recipe.keys.Nodup) : Book :=
  ⟨bindings, ⟨[recipe], by simpa using distinct⟩, none, "<builtin>"⟩

/--
Fix a recipe with the steps of one command line, and a book whose plan is this
recipe.  Whatever the surroundings are, the later steps of the line run where a
change of directory led, exactly if the steps are settled; and they are settled
on lines without braces.
-/
theorem changes_followed_iff
    {book : Book}
    {target : Option String}
    {recipe : Recipe}
    {line : String}
    {quiet : Bool}
    (cut : Chain.steps line none quiet = .ok recipe.steps)
    (planned : book.plan target = .ok [recipe])
    (worker : Worker)
    (workdir : Option Path) :
    let job : Job := ⟨book, workdir, false⟩
    let ran := fun surroundings => worker.run job surroundings target
    let attempts := fun surroundings => job.attempted recipe.tasks (ran surroundings).1
    (∀ surroundings,
        (ran surroundings).1.history = (attempts surroundings).map Attempt.record ∧
          (ran surroundings).2.starts = job.starts (attempts surroundings)) ∧
      ((∀ surroundings, job.FollowsChanges surroundings (attempts surroundings)) ↔
        job.Settled recipe.name recipe.steps) ∧
      ('{' ∉ line.toList → job.Settled recipe.name recipe.steps) := by
  intro job ran attempts
  have linked := Chain.linked_of_steps cut
  have reached := @Job.exists_course_of_run job target recipe rfl planned worker
  refine ⟨fun surroundings => ⟨(reached surroundings).1, (reached surroundings).2.1⟩, ⟨?_, ?_⟩, ?_⟩
  · intro follows
    rcases reached Job.obliging with ⟨_, _, result, course⟩
    exact Job.settled_of_followsChanges course linked (follows Job.obliging)
  · intro settled surroundings
    rcases reached surroundings with ⟨_, _, result, course⟩
    exact course.followsChanges linked settled
  · intro free
    apply Job.settled_of_free linked
    intro step member brace
    exact free (Chain.mem_line_of_mem_step cut member brace)

/-- The runs of a quoted change of directory, on a line without braces. -/
theorem changes_followed_quoted :
    let recipe : Recipe :=
      { name := "a", steps := [⟨"cd 'my dir'", none, false⟩, ⟨"make", some "my dir", false⟩] }
    let job : Job := ⟨Book.ofRecipe Bindings.empty recipe (by decide), none, false⟩
    Chain.steps "cd 'my dir' && make" none false = .ok recipe.steps ∧
      job.book.plan (some "a") = .ok [recipe] ∧
        ∀ surroundings,
          job.FollowsChanges surroundings
            (job.attempted recipe.tasks
              (Worker.fresh.run job surroundings (some "a")).1) := by
  intro recipe job
  have cut : Chain.steps "cd 'my dir' && make" none false = .ok recipe.steps := by rfl
  have planned : job.book.plan (some "a") = .ok [recipe] := by with_unfolding_all rfl
  have whole := changes_followed_iff cut planned Worker.fresh none
  exact ⟨cut, planned, whole.2.1.mpr (whole.2.2 (by decide))⟩

/--
A blank inside the braces is enough: as it is written, the change has four
words and fixes no directory, but when it runs it has two and succeeds.
-/
theorem blank_in_placeholder_unfollowed :
    let recipe : Recipe :=
      { name := "a", steps := [⟨"cd {{ d }}", none, false⟩, ⟨"make", none, false⟩] }
    let job : Job :=
      ⟨Book.ofRecipe ⟨[("d", "sub")], by decide⟩ recipe (by decide), none, false⟩
    Chain.steps "cd {{ d }} && make" none false = .ok recipe.steps ∧
      job.book.plan (some "a") = .ok [recipe] ∧
        ¬∀ surroundings,
          job.FollowsChanges surroundings
            (job.attempted recipe.tasks
              (Worker.fresh.run job surroundings (some "a")).1) := by
  intro recipe job
  have planned : job.book.plan (some "a") = .ok [recipe] := by with_unfolding_all rfl
  refine ⟨by rfl, planned, ?_⟩
  intro follows
  have changing :
      job.attempt ⟨"a", ⟨"cd {{ d }}", none, false⟩⟩ =
        .ok ⟨"a", ["cd", "sub"], none, false⟩ := by
    with_unfolding_all rfl
  have filled :
      job.attempt ⟨"a", ⟨"make", none, false⟩⟩ = .ok ⟨"a", ["make"], none, false⟩ := by
    with_unfolding_all rfl
  rcases Job.exists_course_of_run rfl planned Worker.fresh Job.obliging with
    ⟨_, _, result, course⟩
  rcases @Job.Course.adjacent job [] "a" [] [] _ _ _ _ _ _ course (by simp) changing
    ⟨"sub", rfl⟩ filled with ⟨earlier, later, whole⟩
  have works := follows Job.obliging earlier _ [] _ later "sub" whole rfl rfl (by simp)
  exact absurd works (by decide)

end Cookbook
