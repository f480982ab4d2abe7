import Cookbook.Proofs.Chain.Whole
import Cookbook.Proofs.Justfile.Draft

/-!
# The steps of recipes in a justfile

Every step of a recipe that a justfile describes comes from cutting a command
line of its body, so its line is one command.  Where there are no steps, one
command line of one body cannot be cut.
-/

namespace Cookbook.Justfile

open Chain (Single)

variable
    {quiet : Bool}
    {step : Step}

theorem single_of_stepsOfCommand
    {command : List Char}
    {found : List Step}
    (cut : stepsOfCommand quiet command = .ok found)
    (member : step ∈ found) :
    Single step.line := by
  simp only [stepsOfCommand] at cut
  split at cut
  · cases cut
    cases member
  · cases cut
    cases member
  · split at cut
    · cases cut
      cases member
    · exact Chain.single_of_steps cut member
  · exact Chain.single_of_steps cut member

theorem single_of_stepsOfLines
    {lines : List Numbered}
    {found : List Step}
    (cut : stepsOfLines quiet lines = .ok found)
    (member : step ∈ found) :
    Single step.line := by
  induction lines generalizing found with
  | nil =>
    cases cut
    cases member
  | cons line rest ih =>
    simp only [stepsOfLines] at cut
    split at cut
    · cases cut
    · rename_i front first
      rcases exists_of_map_eq_ok cut with ⟨later, inner, rfl⟩
      rcases List.mem_append.mp member with now | behind
      · exact single_of_stepsOfCommand first now
      · exact ih inner behind

/-- Lines without steps have one whose command has none. -/
theorem exists_of_stepsOfLines
    {lines : List Numbered}
    {fault : Fault}
    (stopped : stepsOfLines quiet lines = .error fault) :
    ∃ line ∈ lines, ∃ problem,
      stepsOfCommand quiet (Text.trim line.text) = .error problem ∧
        fault = ⟨line.number, .command problem⟩ := by
  induction lines with
  | nil => cases stopped
  | cons line rest ih =>
    rw [stepsOfLines] at stopped
    split at stopped
    · rename_i problem refused
      cases stopped
      exact ⟨line, List.mem_cons_self, problem, refused, rfl⟩
    · rcases ih (eq_error_of_map_eq_error stopped) with ⟨found, member, cause⟩
      exact ⟨found, List.mem_cons_of_mem line member, cause⟩

theorem single_of_stepsOfBody
    {body : List Numbered}
    {found : List Step}
    (cut : stepsOfBody quiet body = .ok found)
    (member : step ∈ found) :
    Single step.line := by
  unfold stepsOfBody at cut
  split at cut
  · cases cut
  · exact single_of_stepsOfLines cut member

theorem Reading.single_of_recipesOf
    {reading : Reading}
    {sketches : List Sketch}
    {recipes : List Recipe}
    {recipe : Recipe}
    (made : reading.recipesOf sketches = .ok recipes)
    (present : recipe ∈ recipes)
    (member : step ∈ recipe.steps) :
    Single step.line := by
  induction sketches generalizing recipes with
  | nil =>
    cases made
    cases present
  | cons sketch rest ih =>
    simp only [recipesOf] at made
    split at made
    · cases made
    · rename_i steps cut
      rcases exists_of_map_eq_ok made with ⟨later, inner, rfl⟩
      rcases List.mem_cons.mp present with rfl | behind
      · exact single_of_stepsOfBody cut member
      · exact ih inner behind

/-- Recipes that cannot be made have one whose body has no steps. -/
theorem Reading.exists_of_recipesOf
    {reading : Reading}
    {sketches : List Sketch}
    {fault : Fault}
    (stopped : reading.recipesOf sketches = .error fault) :
    ∃ sketch ∈ sketches, stepsOfBody sketch.quiet sketch.body = .error fault := by
  induction sketches with
  | nil => cases stopped
  | cons sketch rest ih =>
    rw [recipesOf] at stopped
    split at stopped
    · rename_i broken
      cases stopped
      exact ⟨sketch, List.mem_cons_self, broken⟩
    · rcases ih (eq_error_of_map_eq_error stopped) with ⟨found, member, broken⟩
      exact ⟨found, List.mem_cons_of_mem sketch member, broken⟩

theorem Reading.single_of_draft
    {reading : Reading}
    {path : String}
    {draft : Draft}
    {recipe : Recipe}
    (drafted : reading.draft path = .ok draft)
    (present : recipe ∈ draft.recipes)
    (member : step ∈ recipe.steps) :
    Single step.line := by
  exact single_of_recipesOf (draft_eq_ok_iff.mp drafted).2.1 present member

/-- The line of every step in the book of a justfile is one command. -/
theorem single_of_book
    {text path : String}
    {book : Book}
    {recipe : Recipe}
    (described : Justfile.book text path = .ok book)
    (present : recipe ∈ book.catalog.recipes)
    (member : step ∈ recipe.steps) :
    Single step.line := by
  rcases exists_draft_of_book described with ⟨reading, draft, _, drafted, made⟩
  rw [(Draft.book_eq_ok_iff.mp made).1] at present
  exact Reading.single_of_draft drafted present member

end Cookbook.Justfile
