import Cookbook.Proofs.Chain.Cut
import Cookbook.Proofs.Chain.Steps

/-!
# Command lines that are one command

A line that is one command is cut into itself: no operator of it counts, no
blank stands at its ends, and its words are complete.  Each step of a command
line is such a line, so cutting it again changes nothing, whatever directory
its line had reached.
-/

namespace Cookbook.Chain

open Word (Quoting)

variable
    {directory : Option String}
    {quiet : Bool}
    {line segment : String}
    {written : List String}
    {found : List Step}
    {step : Step}

/-- A line that is one command. -/
structure Single (line : String) : Prop where
  guarded : Guarded .bare line.toList
  firm : Text.Firm line.toList
  complete : Quoting.bare.after line.toList = .bare

theorem Single.segments
    (single : Single line) :
    Chain.segments line = .ok [line] := by
  rw [Chain.segments, pieces_of_guarded single.guarded]
  simp [single.firm.trim]

theorem Single.split
    (single : Single line) :
    ∃ words, Word.split line = .ok words := by
  refine ⟨(Word.wordsOfMarks (Word.marks .bare line.toList)).map String.ofList, ?_⟩
  apply Word.split_eq_ok_iff.mpr
  constructor
  · exact single.complete
  · simp

/-- One command is one step, wherever it runs. -/
theorem Single.steps
    (single : Single line) :
    Chain.steps line directory quiet = .ok [⟨line, directory, quiet⟩] := by
  have content : line.isEmpty = false := by
    have present := single.firm.ne_nil
    simpa using present
  rcases single.split with ⟨words, split⟩
  rw [Chain.steps, single.segments]
  show stepsOfSegments directory quiet [line] = _
  simp only [stepsOfSegments, content, split]
  rfl

/-! ## Steps are single commands -/

theorem guarded_of_mem_segments
    (cut : segments line = .ok written)
    (member : segment ∈ written) :
    Guarded .bare segment.toList ∧ Text.trim segment.toList = segment.toList := by
  simp only [segments] at cut
  split at cut
  · rename_i pieces separated
    cases cut
    rcases List.mem_map.mp member with ⟨piece, present, rfl⟩
    rw [String.toList_ofList]
    exact ⟨((cut_of_pieces separated).guarded piece present).trim, Text.trim_trim piece⟩
  · cases cut

theorem complete_of_mem_stepsOfSegments
    (cut : stepsOfSegments directory quiet written = .ok found)
    (member : segment ∈ written) :
    segment ≠ "" ∧ Quoting.bare.after segment.toList = .bare := by
  induction written generalizing directory found with
  | nil => cases member
  | cons first rest ih =>
    simp only [stepsOfSegments] at cut
    split at cut
    · cases cut
    · rename_i content
      split at cut
      · cases cut
      · rename_i words spelled
        rcases exists_of_map_eq_ok cut with ⟨later, inner, _⟩
        rcases List.mem_cons.mp member with rfl | behind
        · constructor
          · simpa using content
          · exact (Word.split_eq_ok_iff.mp spelled).1
        · exact ih inner behind

/-- The line of every step is one command. -/
theorem single_of_steps
    (cut : steps line directory quiet = .ok found)
    (member : step ∈ found) :
    Single step.line := by
  rcases exists_segments_of_steps cut with ⟨written, separated, inner⟩
  have present : step.line ∈ written := by
    rw [← (linked_of_stepsOfSegments inner).2]
    exact List.mem_map_of_mem member
  rcases guarded_of_mem_segments separated present with ⟨guarded, trimmed⟩
  rcases complete_of_mem_stepsOfSegments inner present with ⟨content, complete⟩
  have some : step.line.toList ≠ [] := by
    simpa using content
  rw [← trimmed] at some
  have firm := Text.firm_trim some
  rw [trimmed] at firm
  exact ⟨guarded, firm, complete⟩

end Cookbook.Chain
