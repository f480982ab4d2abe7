import Cookbook.Proofs.Chain.Steps
import Cookbook.Proofs.Justfile.Item
import Cookbook.Proofs.Text.Trim

/-!
# Bodies as they are written

The command lines of a body are read as they were meant: none of them goes on
in the next one, the indentation is taken off, and the mark in front of a
command makes its steps quiet.
-/

namespace Cookbook.Justfile

open Text (Firm)

variable
    {quiet : Bool}
    {command : Command}
    {body : List Command}

/-- Lines with their numbers, counted from the first one. -/
def numberedFrom (number : Nat) : List (List Char) → List Numbered
  | [] => []
  | line :: rest => ⟨number, line⟩ :: numberedFrom (number + 1) rest

/-! ## Written commands -/

theorem Command.Sound.ne_nil
    (sound : command.Sound) :
    command.line.toList ≠ [] := by
  rcases sound.accepted with ⟨found, cut⟩
  exact mt String.toList_eq_nil_iff.mp (Chain.ne_empty_of_steps cut)

theorem Command.Sound.exists_last
    (sound : command.Sound) :
    ∃ letter ∈ command.line.toList.getLast?, letter ≠ '\\' ∧ Text.isBlank letter = false := by
  have ends := List.getLast?_eq_some_getLast sound.ne_nil
  exact ⟨_, ends, sound.last _ ends⟩

theorem Command.Sound.firm
    (sound : command.Sound) :
    Firm (mark command.quiet ++ command.line.toList) where
  first := by
    cases command.quiet with
    | true => exact ⟨'@', rfl, by decide⟩
    | false =>
      have starts := List.head?_eq_some_head sound.ne_nil
      exact ⟨_, starts, (sound.first _ starts).2.2⟩
  last := by
    rcases sound.exists_last with ⟨letter, ends, _, solid⟩
    refine ⟨letter, ?_, solid⟩
    rw [Option.mem_def] at ends ⊢
    rw [List.getLast?_append, ends]
    rfl

/-- The last letter of a written command is that of its line. -/
theorem Command.Sound.written_last
    (sound : command.Sound) :
    ∃ letter ∈ command.written.getLast?, letter ≠ '\\' ∧ Text.isBlank letter = false := by
  rcases sound.exists_last with ⟨letter, ends, kept⟩
  refine ⟨letter, ?_, kept⟩
  rw [Option.mem_def] at ends ⊢
  simp [Command.written, List.getLast?_append, ends]

theorem Command.Sound.trim_written
    (sound : command.Sound) :
    Text.trim command.written = mark command.quiet ++ command.line.toList := by
  have blank : Text.Blank command.indentation.toList := by
    intro letter inside
    rcases sound.margin letter inside with rfl | rfl
    · rfl
    · rfl
  rw [Command.written, Text.trim_append_of_blank blank, sound.firm.trim]

theorem Command.Sound.steps_line
    (sound : command.Sound)
    (quiet : Bool) :
    Chain.steps command.line none (quiet || command.quiet) = .ok (command.steps quiet) := by
  rcases sound.accepted with ⟨found, cut⟩
  simp only [Command.steps, Chain.steps_quiet cut]

theorem stepsOfCommand_written
    (sound : command.Sound) :
    stepsOfCommand quiet (Text.trim command.written) = .ok (command.steps quiet) := by
  have cut := sound.steps_line quiet
  rcases List.exists_cons_of_ne_nil sound.ne_nil with ⟨letter, others, whole⟩
  rcases sound.first letter (whole ▸ rfl) with ⟨noComment, noMark, solid⟩
  rw [sound.trim_written]
  cases marked : command.quiet with
  | true =>
    rw [marked, Bool.or_true] at cut
    have kept : Text.trimLeft command.line.toList = command.line.toList :=
      Text.trimLeft_of_first ⟨letter, whole ▸ rfl, solid⟩
    have content : command.line.toList.isEmpty = false := by
      rw [whole]
      rfl
    show stepsOfCommand quiet ('@' :: command.line.toList) = _
    simp only [stepsOfCommand, kept, content, String.ofList_toList]
    exact cut
  | false =>
    rw [marked, Bool.or_false] at cut
    show stepsOfCommand quiet command.line.toList = _
    unfold stepsOfCommand
    split
    · rename_i empty
      exact absurd empty sound.ne_nil
    · rename_i other
      rw [whole] at other
      exact absurd (List.cons.inj other).1 noComment
    · rename_i rest other
      rw [whole] at other
      exact absurd (List.cons.inj other).1 noMark
    · rw [String.ofList_toList]
      exact cut

/-! ## Written bodies -/

/-- Lines that do not go on are left as they are. -/
theorem merge_of_finished
    {lines : List Numbered}
    (finished : ∀ line ∈ lines, line.isUnfinished = false) :
    merge lines = .ok lines := by
  rw [merge]
  induction lines with
  | nil => rfl
  | cons line rest ih =>
    rcases List.forall_mem_cons.mp finished with ⟨first, later⟩
    have ends : (line.after none).isUnfinished = false := first
    simp only [mergeFrom, ends, ih later]
    rfl

theorem exists_of_mem_numberedFrom
    {number : Nat}
    {lines : List (List Char)}
    {line : Numbered}
    (member : line ∈ numberedFrom number lines) :
    line.text ∈ lines := by
  induction lines generalizing number with
  | nil => cases member
  | cons first rest ih =>
    rcases List.mem_cons.mp member with rfl | later
    · exact List.mem_cons_self
    · exact List.mem_cons_of_mem first (ih later)

theorem numberedFrom_append
    {number : Nat}
    (front back : List (List Char)) :
    numberedFrom number (front ++ back) =
      numberedFrom number front ++ numberedFrom (number + front.length) back := by
  induction front generalizing number with
  | nil => rfl
  | cons line rest ih =>
    rw [List.cons_append, numberedFrom, ih, numberedFrom, List.length_cons, Nat.add_assoc,
      Nat.add_comm 1, List.cons_append]

theorem stepsOfLines_written
    (sound : ∀ command ∈ body, command.Sound)
    (number : Nat) :
    stepsOfLines quiet (numberedFrom number (body.map Command.written)) =
      .ok (body.flatMap (Command.steps quiet)) := by
  induction body generalizing number with
  | nil => rfl
  | cons command rest ih =>
    rcases List.forall_mem_cons.mp sound with ⟨first, later⟩
    rw [List.map_cons, numberedFrom, stepsOfLines]
    simp only [stepsOfCommand_written first, ih later, List.flatMap_cons]
    rfl

/-- A written body has the steps of its commands. -/
theorem stepsOfBody_written
    (sound : ∀ command ∈ body, command.Sound)
    (number : Nat) :
    stepsOfBody quiet (numberedFrom number (body.map Command.written)) =
      .ok (body.flatMap (Command.steps quiet)) := by
  have finished : ∀ line ∈ numberedFrom number (body.map Command.written),
      line.isUnfinished = false := by
    intro line member
    rcases List.mem_map.mp (exists_of_mem_numberedFrom member) with ⟨command, present, same⟩
    rcases (sound command present).written_last with ⟨letter, ends, whole, _⟩
    rw [Numbered.isUnfinished, ← same, Option.mem_def.mp ends]
    simpa using whole
  simp only [stepsOfBody, merge_of_finished finished, stepsOfLines_written sound]

end Cookbook.Justfile
