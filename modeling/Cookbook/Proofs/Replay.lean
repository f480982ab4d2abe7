import Cookbook.Proofs.Chain.Whole
import Cookbook.Proofs.Session.Lines
import Cookbook.Proofs.Template.Escape
import Cookbook.Proofs.Word.Join

/-!
# Running a shown command again

A command is shown as one line, in a trace, in a plan and in the message of its
failure.  That line, escaped, is a command line of a recipe: it is one step,
and the words of the step are those of the command, whatever characters they
hold.  The line needs no escaping exactly when no word holds two opening braces
in a row.
-/

namespace Cookbook

open Template (escape openingBraces)

variable
    {letter : Char}
    {word : List Char}
    {words : List (List Char)}

/-! ## Escaping a line escapes its words -/

namespace Word

theorem head?_flatMap_quotedCharacter :
    (word.flatMap quotedCharacter).head? = word.head? := by
  cases word with
  | nil => rfl
  | cons letter rest =>
    by_cases quotes : letter = '\''
    · subst quotes
      rfl
    · rw [List.flatMap_cons, quotedCharacter_of_ne quotes]
      rfl

theorem escape_flatMap_quotedCharacter :
    escape (word.flatMap quotedCharacter) = (escape word).flatMap quotedCharacter := by
  induction word using Template.escape_induction with
  | nil => rfl
  | pair rest ih =>
    show '{' :: '{' :: '{' :: '{' :: escape (rest.flatMap quotedCharacter) = _
    rw [ih]
    rfl
  | single letter rest single ih =>
    have still : ¬openingBraces <+: letter :: rest.flatMap quotedCharacter := by
      rw [Template.openingBraces_prefix_cons] at single ⊢
      rw [head?_flatMap_quotedCharacter]
      exact single
    rw [Template.escape_cons single, List.flatMap_cons, List.flatMap_cons, ← ih]
    by_cases quotes : letter = '\''
    · subst quotes
      rfl
    · rw [quotedCharacter_of_ne quotes]
      exact Template.escape_cons still

theorem escape_quote :
    escape (quote word) = quote (escape word) := by
  rw [quote, quote, Template.isEmpty_escape, Template.all_escape]
  split
  · rfl
  · split
    · rfl
    · show escape ([] ++ '\'' :: (word.flatMap quotedCharacter ++ ['\''])) = _
      rw [Template.escape_append_cons (by decide), Template.escape_append_cons (by decide),
        escape_flatMap_quotedCharacter]
      rfl

/-- A line is escaped by escaping each of its words. -/
theorem escape_joinCharacters :
    escape (joinCharacters words) = joinCharacters (words.map escape) := by
  induction words with
  | nil => rfl
  | cons word rest ih =>
    cases rest with
    | nil => exact escape_quote
    | cons next rest =>
      show escape (quote word ++ ' ' :: joinCharacters (next :: rest)) = _
      rw [Template.escape_append_cons (by decide), ih, escape_quote]
      rfl

theorem writes_escape_joinCharacters
    (present : words ≠ []) :
    Writes (escape (joinCharacters words)) (words.map escape) := by
  rw [escape_joinCharacters]
  exact writes_joinCharacters (mt List.map_eq_nil_iff.mp present)

/-- Escaping leaves a line as it is only if no word holds two opening braces in a row. -/
theorem escape_joinCharacters_eq_self_iff
    (present : words ≠ []) :
    escape (joinCharacters words) = joinCharacters words ↔
      ∀ word ∈ words, ¬openingBraces <:+: word := by
  have each : words.map escape = words.map id ↔ ∀ word ∈ words, ¬openingBraces <:+: word := by
    simp only [List.map_inj_left, id, Template.escape_eq_self_iff]
  rw [← each, List.map_id]
  constructor
  · intro same
    -- equal lines are read as equal words
    have escaped := writes_escape_joinCharacters present
    rw [same] at escaped
    exact escaped.spelled.symm.trans (writes_joinCharacters present).spelled
  · intro same
    rw [escape_joinCharacters, same]

end Word

/-! ## The steps of a written line -/

section Written

variable
    {line text : String}
    {written read : List (List Char)}
    {directory : Option String}
    {quiet : Bool}

theorem single_of_writes
    (writes : Word.Writes line.toList written) :
    Chain.Single line :=
  ⟨writes.guarded, writes.firm, writes.ends⟩

theorem split_of_writes
    (writes : Word.Writes line.toList written) :
    Word.split line = .ok (written.map String.ofList) := by
  apply Word.split_eq_ok_iff.mpr
  constructor
  · exact writes.ends
  · rw [writes.spelled]
    simp

/-- The words of a step are those of the text that its line expands to. -/
theorem words_of_writes
    (bindings : Bindings)
    (recipe : Option String)
    (writes : Word.Writes line.toList written)
    (expands : bindings.expand line recipe = .ok text)
    (reads : Word.Writes text.toList read)
    (present : read ≠ []) :
    Step.words ⟨line, directory, quiet⟩ bindings recipe = .ok (read.map String.ofList) := by
  simp only [Step.words, (single_of_writes writes).segments, expands, split_of_writes reads]
  cases read with
  | nil => exact absurd rfl present
  | cons word rest => simp

end Written

/-! ## Shown commands -/

/-- Whose command it was, in front of the report that it failed. -/
def Failure.owner (recipe : Option String) : String :=
  match Text.given recipe with
  | some name => "[" ++ name ++ "] "
  | none => ""

/-- A line stands for a command in the trace of a run, in a plan, and in a failure. -/
structure ShownAs (command : List String) (line : String) : Prop where
  traced : ∀ directory,
    Terminal.echo command directory = .errorLines [Terminal.note (Text.given directory) ++ line]
  planned : ∀ (bindings : Bindings) (recipe : String) (step : Step) (rest : List Step) directory,
    step.words bindings (some recipe) = .ok command →
      step.place bindings (some recipe) = .ok directory →
        Session.planLines bindings recipe (step :: rest) =
          ((Terminal.note directory ++ line) :: ·) <$> Session.planLines bindings recipe rest
  blamed : ∀ status recipe reason,
    Failure.message (.commandFailed command status recipe reason) =
      "\n".intercalate
        ((Failure.owner recipe ++ "command failed (exit=" ++ toString status ++ "): " ++ line) ::
          (Text.given reason).toList.map ("reason=" ++ ·))

theorem shownAs_join
    (command : List String) :
    ShownAs command (Word.join command) := by
  constructor
  · intro directory
    rw [Terminal.echo, Terminal.commandLine_eq]
  · intro bindings recipe step rest directory words place
    simp only [Session.planLines, Session.planLine_eq, words, place]
  · intro status recipe reason
    unfold Failure.message Failure.owner
    rfl

/--
The line that shows a command, escaped, is one step with the words of the
command, in every directory and whatever the variables are.  The line is shown
without escapes, and needs none exactly when no word holds two opening braces
in a row.
-/
theorem command_replayed
    (program : String)
    (arguments : List String) :
    let command := program :: arguments
    let line := Template.escaped (Word.join command)
    (∀ directory quiet,
      Chain.steps line directory quiet = .ok [⟨line, directory, quiet⟩] ∧
        ∀ bindings recipe,
          Step.words ⟨line, directory, quiet⟩ bindings recipe = .ok command) ∧
    (line = Word.join command ↔ ∀ word ∈ command, ¬openingBraces <:+: word.toList) ∧
    ShownAs command (Word.join command) := by
  intro command line
  have present : command.map String.toList ≠ [] := List.cons_ne_nil _ _
  have joined : (Word.join command).toList = Word.joinCharacters (command.map String.toList) :=
    String.toList_ofList
  have writes : Word.Writes line.toList ((command.map String.toList).map escape) := by
    rw [Template.toList_escaped, joined]
    exact Word.writes_escape_joinCharacters present
  have reads : Word.Writes (Word.join command).toList (command.map String.toList) := by
    rw [joined]
    exact Word.writes_joinCharacters present
  refine ⟨?_, ?_, shownAs_join command⟩
  · intro directory quiet
    constructor
    · exact (single_of_writes writes).steps
    · intro bindings recipe
      have expands := bindings.expand_escaped (Word.join command) recipe
      rw [words_of_writes bindings recipe writes expands reads present]
      simp
  · rw [← String.toList_inj, Template.toList_escaped, joined,
      Word.escape_joinCharacters_eq_self_iff present, List.forall_mem_map]

end Cookbook
