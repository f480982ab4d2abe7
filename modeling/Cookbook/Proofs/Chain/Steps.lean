import Cookbook.Chain
import Cookbook.Proofs.Except
import Cookbook.Proofs.Text.Trim
import Cookbook.Proofs.Word.Gap

/-!
# The steps of a command line

Cutting a command line into steps invents no characters: the line of every step
is part of the command line.  The directory of each step follows from the step
before it, whose words are read as they are written.
-/

namespace Cookbook.Chain

variable
    {letter : Char}

/-! ## Pieces -/

theorem flatten_extend
    (letters : List Char)
    (found : List (List Char)) :
    (extend letters found).flatten = letters ++ found.flatten := by
  cases found with
  | nil => simp [extend]
  | cons piece rest => simp [extend]

/-- The pieces of a text hold characters of the text in order; only operators are left out. -/
theorem flatten_sublist_of_piecesFrom
    {column : Nat}
    {mark : Option Char}
    {text : List Char}
    {found : List (List Char)}
    (cut : piecesFrom column mark text = .ok found) :
    found.flatten.Sublist text := by
  fun_induction piecesFrom column mark text generalizing found with
  | case1 => cases cut; exact List.Sublist.refl []
  | case2 => cases cut
  | case3 column mark letter => cases cut; exact List.Sublist.refl [letter]
  | case4 column mark letter next rest escapes ih =>
    rcases exists_of_map_eq_ok cut with ⟨later, inner, rfl⟩
    rw [flatten_extend]
    exact ((ih inner).cons_cons next).cons_cons letter
  | case5 column letter next rest opened escapes ih =>
    rcases exists_of_map_eq_ok cut with ⟨later, inner, rfl⟩
    rw [flatten_extend]
    exact (ih inner).cons_cons letter
  | case6 column letter next rest opens escapes ih =>
    rcases exists_of_map_eq_ok cut with ⟨later, inner, rfl⟩
    rw [flatten_extend]
    exact (ih inner).cons_cons letter
  | case7 column letter next rest opens chains escapes ih =>
    rcases exists_of_map_eq_ok cut with ⟨later, inner, rfl⟩
    exact ((ih inner).cons next).cons letter
  | case8 => cases cut
  | case9 column letter next rest opens chains operates escapes ih =>
    rcases exists_of_map_eq_ok cut with ⟨later, inner, rfl⟩
    rw [flatten_extend]
    exact (ih inner).cons_cons letter

theorem mem_line_of_mem_segment
    {line segment : String}
    {found : List String}
    (cut : segments line = .ok found)
    (member : segment ∈ found)
    (inside : letter ∈ segment.toList) :
    letter ∈ line.toList := by
  simp only [segments] at cut
  split at cut
  · rename_i written separated
    cases cut
    rcases List.mem_map.mp member with ⟨piece, present, rfl⟩
    rw [String.toList_ofList] at inside
    have inPiece := (Text.trim_sublist piece).subset inside
    exact (flatten_sublist_of_piecesFrom separated).subset
      (List.mem_flatten_of_mem present inPiece)
  · cases cut

/-! ## Steps -/

/-- Each step starts in the directory that the words of the step before it leave. -/
inductive Linked : Option String → List Step → Prop
  | nil {directory : Option String} :
      Linked directory []
  | cons {step : Step} {words : List String} {rest : List Step}
      (spelled : Word.split step.line = .ok words)
      (later : Linked (directoryAfter step.directory words) rest) :
      Linked step.directory (step :: rest)

variable
    {directory : Option String}
    {quiet : Bool}
    {line : String}
    {found : List Step}

theorem linked_of_stepsOfSegments
    {written : List String}
    (cut : stepsOfSegments directory quiet written = .ok found) :
    Linked directory found ∧ found.map Step.line = written := by
  induction written generalizing directory found with
  | nil =>
    cases cut
    exact ⟨.nil, rfl⟩
  | cons segment rest ih =>
    simp only [stepsOfSegments] at cut
    split at cut
    · cases cut
    · split at cut
      · cases cut
      · rename_i words spelled
        rcases exists_of_map_eq_ok cut with ⟨later, inner, rfl⟩
        rcases ih inner with ⟨linked, lines⟩
        exact ⟨@Linked.cons ⟨segment, directory, quiet⟩ words later spelled linked,
          congrArg (segment :: ·) lines⟩

theorem exists_segments_of_steps
    (cut : steps line directory quiet = .ok found) :
    ∃ written, segments line = .ok written ∧
      stepsOfSegments directory quiet written = .ok found := by
  simp only [steps] at cut
  cases separated : segments line with
  | error problem =>
    rw [separated] at cut
    cases cut
  | ok written =>
    rw [separated] at cut
    exact ⟨written, rfl, cut⟩

theorem linked_of_steps
    (cut : steps line directory quiet = .ok found) :
    Linked directory found := by
  rcases exists_segments_of_steps cut with ⟨written, _, inner⟩
  exact (linked_of_stepsOfSegments inner).1

theorem mem_line_of_mem_step
    (cut : steps line directory quiet = .ok found)
    {step : Step}
    (member : step ∈ found)
    (inside : letter ∈ step.line.toList) :
    letter ∈ line.toList := by
  rcases exists_segments_of_steps cut with ⟨written, separated, inner⟩
  refine mem_line_of_mem_segment separated ?_ inside
  rw [← (linked_of_stepsOfSegments inner).2]
  exact List.mem_map_of_mem member

theorem stepsOfSegments_quiet
    {written : List String}
    (cut : stepsOfSegments directory quiet written = .ok found)
    (other : Bool) :
    stepsOfSegments directory other written =
      .ok (found.map fun step => { step with quiet := other }) := by
  induction written generalizing directory found with
  | nil =>
    cases cut
    rfl
  | cons segment rest ih =>
    simp only [stepsOfSegments] at cut ⊢
    split at cut
    · cases cut
    · rename_i content
      split at cut
      · cases cut
      · rename_i words spelled
        rcases exists_of_map_eq_ok cut with ⟨later, inner, rfl⟩
        rw [if_neg content, ih inner]
        rfl

/-- Whether steps are quiet has no part in how a line is cut. -/
theorem steps_quiet
    (cut : steps line directory quiet = .ok found)
    (other : Bool) :
    steps line directory other = .ok (found.map fun step => { step with quiet := other }) := by
  rcases exists_segments_of_steps cut with ⟨written, separated, inner⟩
  rw [steps, separated]
  exact stepsOfSegments_quiet inner other

theorem ne_empty_of_steps
    (cut : steps line directory quiet = .ok found) :
    line ≠ "" := by
  rintro rfl
  cases cut

/-! ## Directories -/

theorem destination?_eq_some_iff
    {words : List String}
    {target : String} :
    destination? words = some target ↔ words = ["cd", target] := by
  constructor
  · intro changes
    simp only [destination?] at changes
    split at changes
    · rw [Option.some.inj changes]
    · cases changes
  · rintro rfl
    rfl

theorem directoryAfter_of_other
    {words : List String}
    (other : ∀ target, words ≠ ["cd", target]) :
    directoryAfter directory words = directory := by
  simp only [directoryAfter]
  split
  · rfl
  · rename_i target changes
    exact absurd (destination?_eq_some_iff.mp changes) (other target)

theorem mem_joinText
    {base target : String}
    (inside : letter ∈ (Path.joinText base target).toList) :
    letter ∈ base.toList ∨ letter ∈ target.toList ∨ letter = '/' := by
  simp only [Path.joinText] at inside
  split at inside
  · exact Or.inr (Or.inl inside)
  · split at inside
    · rw [String.toList_append] at inside
      exact (List.mem_append.mp inside).imp_right Or.inl
    · simpa [String.toList_append, or_comm, or_left_comm] using inside

/-- The directory after some words holds characters of the one before and of the words. -/
theorem mem_directoryAfter
    {words : List String}
    {after : String}
    (left : directoryAfter directory words = some after)
    (inside : letter ∈ after.toList) :
    (∃ before, directory = some before ∧ letter ∈ before.toList) ∨
      (∃ word ∈ words, letter ∈ word.toList) ∨ letter = '/' := by
  simp only [directoryAfter] at left
  split at left
  · exact Or.inl ⟨after, left, inside⟩
  · rename_i target changes
    rw [destination?_eq_some_iff.mp changes]
    split at left
    · cases left
      exact Or.inr (Or.inl ⟨after, by simp, inside⟩)
    · rename_i base
      cases left
      rcases mem_joinText inside with before | named | slash
      · exact Or.inl ⟨base, rfl, before⟩
      · exact Or.inr (Or.inl ⟨target, by simp, named⟩)
      · exact Or.inr (Or.inr slash)

theorem not_mem_directoryAfter
    {words : List String}
    (ordinary : letter ≠ '\\' ∧ letter ≠ '/')
    (spelled : Word.split line = .ok words)
    (unwritten : letter ∉ line.toList)
    (start : ∀ before, directory = some before → letter ∉ before.toList)
    (after : String)
    (left : directoryAfter directory words = some after) :
    letter ∉ after.toList := by
  intro inside
  rcases mem_directoryAfter left inside with ⟨before, given, early⟩ | ⟨word, member, named⟩ | slash
  · exact start before given early
  · have present := List.mem_map_of_mem (f := String.toList) member
    rw [← (Word.split_eq_ok_iff.mp spelled).2] at present
    rcases Word.mem_line_of_mem_word present named with written | backslash
    · exact unwritten written
    · exact ordinary.1 backslash
  · exact ordinary.2 slash

/-- A character that no step of a line holds occurs in none of their directories either. -/
theorem Linked.not_mem_directory
    (linked : Linked directory found)
    (ordinary : letter ≠ '\\' ∧ letter ≠ '/')
    (unwritten : ∀ step ∈ found, letter ∉ step.line.toList)
    (start : ∀ before, directory = some before → letter ∉ before.toList) :
    ∀ step ∈ found, ∀ place, step.directory = some place → letter ∉ place.toList := by
  induction linked with
  | nil =>
    intro step member
    cases member
  | @cons first words rest spelled _ ih =>
    have later := not_mem_directoryAfter ordinary spelled
      (unwritten first List.mem_cons_self) start
    intro step member
    rcases List.mem_cons.mp member with rfl | behind
    · exact start
    · exact ih (fun step inside => unwritten step (List.mem_cons_of_mem first inside))
        later step behind

theorem Linked.directory_eq
    {step : Step}
    {rest : List Step}
    (linked : Linked directory (step :: rest)) :
    step.directory = directory := by
  cases linked
  rfl

theorem Linked.adjacent
    {front back : List Step}
    {change next : Step}
    (linked : Linked directory (front ++ change :: next :: back)) :
    ∃ words, Word.split change.line = .ok words ∧
      next.directory = directoryAfter change.directory words := by
  induction front generalizing directory with
  | nil =>
    cases linked with
    | cons spelled later =>
      exact ⟨_, spelled, later.directory_eq⟩
  | cons first front ih =>
    cases linked with
    | cons spelled later => exact ih later

end Cookbook.Chain
