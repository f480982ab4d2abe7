import Cookbook.Proofs.Justfile.Draft
import Cookbook.Proofs.Justfile.Erased
import Cookbook.Proofs.Justfile.Known
import Mathlib.Data.List.Forall2

/-!
# Readings that mean the same

Two readings mean the same if they differ only in the numbers of lines and in
how the commands of bodies are laid out.  Reading one more line keeps that, and
so does reading many, and what means the same has the same draft.
-/

namespace Cookbook.Justfile

variable
    {number start : Nat}
    {quiet : Bool}
    {text : List Char}
    {kind : Line}
    {lines : List (List Char)}
    {back behind : List Numbered}
    {sketch twin : Sketch}
    {known twins : List Sketch}
    {reading other later : Reading}

/-! ## Recipes -/

/-- Recipes whose bodies have the same steps, also when they take up the same further lines. -/
structure Sketch.Alike (sketch other : Sketch) : Prop where
  name : other.name = sketch.name
  needs : other.needs = sketch.needs
  quiet : other.quiet = sketch.quiet
  doc : other.doc = sketch.doc
  steps : ∀ {back behind : List Numbered} {steps : List Step},
    behind.map Numbered.erased = back.map Numbered.erased →
      stepsOfBody sketch.quiet (sketch.body ++ back) = .ok steps →
        stepsOfBody other.quiet (other.body ++ behind) = .ok steps

namespace Sketch.Alike

theorem refl
    (sketch : Sketch) :
    sketch.Alike sketch where
  name := rfl
  needs := rfl
  quiet := rfl
  doc := rfl
  steps := by
    intro back behind steps alike cut
    refine stepsOfBody_of_erased ?_ cut
    rw [List.map_append, List.map_append, alike]

/-- Bodies that have the same steps take up the same lines. -/
theorem extend
    {line moved : Numbered}
    (alike : sketch.Alike twin)
    (same : moved.erased = line.erased) :
    Alike
      { sketch with body := sketch.body ++ [line] }
      { twin with body := twin.body ++ [moved] } where
  name := alike.name
  needs := alike.needs
  quiet := alike.quiet
  doc := alike.doc
  steps := by
    intro back behind steps further cut
    show stepsOfBody twin.quiet (twin.body ++ [moved] ++ behind) = .ok steps
    rw [List.append_assoc]
    refine @alike.steps (line :: back) (moved :: behind) steps ?_ ?_
    · rw [List.map_cons, List.map_cons, same, further]
    · rw [List.append_cons]
      exact cut

theorem steps_body
    {steps : List Step}
    (alike : sketch.Alike twin)
    (cut : stepsOfBody sketch.quiet sketch.body = .ok steps) :
    stepsOfBody twin.quiet twin.body = .ok steps := by
  have whole := @alike.steps [] [] steps rfl
  rw [List.append_nil, List.append_nil] at whole
  exact whole cut

end Sketch.Alike

theorem names_of_forall₂
    (alike : List.Forall₂ Sketch.Alike known twins) :
    twins.map Sketch.name = known.map Sketch.name := by
  induction alike with
  | nil => rfl
  | cons first _ ih => rw [List.map_cons, List.map_cons, first.name, ih]

/-! ## Readings -/

namespace Reading

/-- What is known by two readings that mean the same. -/
structure Alike (reading other : Reading) : Prop where
  definitions : other.definitions = reading.definitions
  aliases : other.aliases.map AliasLine.erased = reading.aliases.map AliasLine.erased
  complete : List.Forall₂ Sketch.Alike reading.complete other.complete
  current : Option.Rel Sketch.Alike reading.current other.current
  doc : other.doc = reading.doc

namespace Alike

theorem refl
    (reading : Reading) :
    reading.Alike reading where
  definitions := rfl
  aliases := rfl
  complete := List.forall₂_same.mpr fun sketch _ => .refl sketch
  current := by
    cases reading.current with
    | none => exact .none
    | some sketch => exact .some (.refl sketch)
  doc := rfl

theorem sketches
    (alike : reading.Alike other) :
    List.Forall₂ Sketch.Alike reading.sketches other.sketches := by
  apply List.rel_append alike.complete
  have current := alike.current
  generalize reading.current = sketch, other.current = twin at current ⊢
  cases current with
  | none => exact .nil
  | some same => exact .cons same .nil

/-- Closing keeps what readings mean. -/
theorem close
    (alike : reading.Alike other) :
    reading.close.Alike other.close where
  definitions := alike.definitions
  aliases := alike.aliases
  complete := alike.sketches
  current := .none
  doc := rfl

theorem skip
    (alike : reading.Alike other) :
    reading.skip.Alike other.skip := by
  have current := alike.current
  generalize opened : reading.current = sketch, found : other.current = twin at current
  cases current with
  | none =>
    simp only [Reading.skip, opened, found]
    exact { alike with current := .none, doc := rfl }
  | some same =>
    simp only [Reading.skip, opened, found]
    exact alike

/-- One more line is taken up alike, wherever it stands. -/
theorem moves
    (alike : reading.Alike other)
    (moved : reading.Moves ⟨number, text⟩ kind later) :
    ∃ again, other.Moves ⟨start, text⟩ kind again ∧ later.Alike again := by
  have closed := alike.close
  cases moved with
  | blank => exact ⟨_, .blank, alike.skip⟩
  | @indented sketch opened =>
    have current := alike.current
    rw [opened] at current
    generalize found : other.current = twin at current
    cases current with
    | some same =>
      refine ⟨_, .indented found, ?_⟩
      exact ⟨alike.definitions, alike.aliases, alike.complete, .some (same.extend rfl), alike.doc⟩
  | comment => exact ⟨_, .comment, { closed with doc := rfl }⟩
  | @nickname name target =>
    refine ⟨_, .nickname, { closed with aliases := ?_ }⟩
    rw [List.map_append, List.map_append, alike.aliases]
    rfl
  | @definition name written content fresh decoded =>
    rw [← alike.definitions] at fresh
    refine ⟨_, .definition fresh decoded, { closed with definitions := ?_ }⟩
    rw [alike.definitions]
  | header needed =>
    refine ⟨_, .header needed, { closed with current := ?_ }⟩
    rw [alike.doc]
    exact .some (.refl _)

theorem next
    (alike : reading.Alike other)
    (moved : reading.next ⟨number, text⟩ = .ok later) :
    ∃ again, other.next ⟨start, text⟩ = .ok again ∧ later.Alike again := by
  rcases alike.moves (moves_of_next moved) with ⟨again, moves, same⟩
  exact ⟨again, next_of_moves moves, same⟩

/-- Further lines are taken up alike, wherever they stand. -/
theorem continueFrom
    (alike : reading.Alike other)
    (known : reading.continueFrom number lines = .ok later) :
    ∃ again, other.continueFrom start lines = .ok again ∧ later.Alike again := by
  induction lines generalizing reading other number start with
  | nil =>
    cases known
    exact ⟨other, rfl, alike⟩
  | cons line rest ih =>
    rw [Reading.continueFrom] at known
    split at known
    · cases known
    · rename_i first moved
      have step : ∃ again, other.next ⟨start, Text.trimRight line⟩ = .ok again ∧
          first.Alike again := alike.next moved
      rcases step with ⟨again, taken, same⟩
      rw [Reading.continueFrom, taken]
      exact ih same known

/-! ## Drafts -/

theorem aliasesOf
    (alike : reading.Alike other)
    (name : String) :
    other.aliasesOf name = reading.aliasesOf name := by
  rw [← aliasesOf_erased, ← aliasesOf_erased reading]
  simp only [Reading.aliasesOf, erased, alike.aliases]

theorem recipesOf
    {recipes : List Recipe}
    (alike : reading.Alike other)
    (same : List.Forall₂ Sketch.Alike known twins)
    (made : reading.recipesOf known = .ok recipes) :
    other.recipesOf twins = .ok recipes := by
  induction same generalizing recipes with
  | nil => exact made
  | cons first later ih =>
    rw [Reading.recipesOf] at made ⊢
    split at made
    · cases made
    · rename_i steps cut
      rcases exists_of_map_eq_ok made with ⟨rest, inner, rfl⟩
      simp only [first.steps_body cut, ih inner, names_of_forall₂ later, first.name, first.needs,
        first.doc, alike.aliasesOf]
      rfl

/-- What means the same has the same draft. -/
theorem draft
    {path : String}
    {draft : Draft}
    (alike : reading.Alike other)
    (drafted : reading.draft path = .ok draft) :
    other.draft path = .ok draft := by
  rw [draft_eq_ok_iff] at drafted ⊢
  rcases drafted with ⟨targeted, made, definitions, default, source⟩
  refine ⟨?_, alike.recipesOf alike.sketches made, ?_, default, source⟩
  · have targets : ∀ written : AliasLine, written.erased.target = written.target := fun _ => rfl
    rw [names_of_forall₂ alike.sketches]
    intro written member
    have erased := @List.mem_map_of_mem _ _ _ _ AliasLine.erased member
    rw [alike.aliases] at erased
    rcases List.mem_map.mp erased with ⟨source, present, same⟩
    rw [← targets written, ← same]
    exact targeted source present
  · rw [definitions, alike.definitions]

end Alike

end Reading

end Cookbook.Justfile
