import Cookbook.Proofs.Filling
import Cookbook.Proofs.Justfile.Steps

/-!
# Steps need no second check

The steps of a justfile, and those of the texts that are stated as commands of
a recipe, come from cutting command lines.  Such a step stays what it is when it
is cut once more, and when it runs it fails only through what is filled in.
-/

namespace Cookbook

variable
    {step : Step}
    {text : String}
    {entries : List Entry}

/-- A step that needs no second check. -/
structure Step.Settled (step : Step) : Prop where
  segments : Chain.segments step.line = .ok [step.line]
  steps : Chain.steps step.line step.directory step.quiet = .ok [step]
  faults : ∀ bindings recipe failure,
    step.words bindings recipe = .error failure →
      FillingFault bindings step.line recipe failure

theorem Step.settled_of_single
    (single : Chain.Single step.line) :
    step.Settled where
  segments := single.segments
  steps := single.steps
  faults := fun _ _ _ => Step.fillingFault_of_words single

/-- A text is stated as a command line among entries, or inside a group of them. -/
inductive Entry.States (text : String) : List Entry → Prop
  | line {rest : List Entry} :
      States text (.line text :: rest)
  | group {inner rest : List Entry}
      (stated : States text inner) :
      States text (.group inner :: rest)
  | later {first : Entry} {rest : List Entry}
      (stated : States text rest) :
      States text (first :: rest)

/-- A text that is stated among entries is cut, and its steps stay together. -/
theorem Entry.States.exists_steps
    {found : List Step}
    (stated : Entry.States text entries)
    (cut : Entry.stepsOfAll entries = .ok found) :
    ∃ inner, Chain.steps text = .ok inner ∧ inner <:+: found := by
  induction stated generalizing found with
  | line =>
    simp only [Entry.stepsOfAll, Entry.steps, Step.ofLine] at cut
    split at cut
    · cases cut
    · rename_i front first
      rcases exists_of_map_eq_ok cut with ⟨later, _, rfl⟩
      split at first
      · cases first
      · rename_i inner chained
        cases first
        exact ⟨front, chained, (List.prefix_append front later).isInfix⟩
  | group _ ih =>
    simp only [Entry.stepsOfAll, Entry.steps] at cut
    split at cut
    · cases cut
    · rename_i front first
      rcases exists_of_map_eq_ok cut with ⟨later, _, rfl⟩
      rcases ih first with ⟨inner, chained, inside⟩
      exact ⟨inner, chained, inside.trans (List.prefix_append front later).isInfix⟩
  | later _ ih =>
    simp only [Entry.stepsOfAll] at cut
    split at cut
    · cases cut
    · rename_i front _
      rcases exists_of_map_eq_ok cut with ⟨later, rest, rfl⟩
      rcases ih rest with ⟨inner, chained, inside⟩
      exact ⟨inner, chained, inside.trans (List.suffix_append front later).isInfix⟩

/--
The steps that a command line is cut into need no second check, and neither do
those of a justfile or of the texts that are stated as commands of a recipe.
-/
theorem cut_steps_settled :
    (∀ line directory quiet found,
      Chain.steps line directory quiet = .ok found → ∀ step ∈ found, step.Settled) ∧
    (∀ text path book,
      Justfile.book text path = .ok book →
        ∀ recipe ∈ book.catalog.recipes, ∀ step ∈ recipe.steps, step.Settled) ∧
    (∀ name entries needs aliases doc recipe,
      Recipe.ofEntries name entries needs aliases doc = .ok recipe →
        ∀ text, Entry.States text entries →
          ∃ found, Chain.steps text = .ok found ∧ found <:+: recipe.steps ∧
            ∀ step ∈ found, step.Settled) := by
  refine ⟨?_, ?_, ?_⟩
  · intro line directory quiet found cut step member
    exact Step.settled_of_single (Chain.single_of_steps cut member)
  · intro text path book described recipe present step member
    exact Step.settled_of_single (Justfile.single_of_book described present member)
  · intro name entries needs aliases doc recipe made text stated
    rcases exists_of_map_eq_ok made with ⟨steps, cut, rfl⟩
    rcases stated.exists_steps cut with ⟨found, chained, inside⟩
    refine ⟨found, chained, inside, fun step member => ?_⟩
    exact Step.settled_of_single (Chain.single_of_steps chained member)

end Cookbook
