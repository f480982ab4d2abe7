import Cookbook.Proofs.Chain.Ends
import Cookbook.Proofs.Chain.Position
import Cookbook.Proofs.Chain.Steps

/-!
# The words of a chain

A line falls into pieces in one way only.  Each piece becomes a step of its own,
and what the step has to keep are the words that the piece has as it is written.
It keeps them exactly if the piece is framed by separators: any other blank that
trimming takes away was part of a word.
-/

namespace Cookbook.Chain

open Word (Quoting)

variable
    {quoting : Quoting}
    {text front extra rest back piece : List Char}
    {found other written : List (List Char)}
    {line word : String}
    {words : List String}

/-! ## The pieces of a line -/

/-- A guarded piece does not reach beyond ampersands that are met in the bare state. -/
theorem Guarded.extra_eq_nil
    (guarded : Guarded quoting (front ++ extra))
    (ends : quoting.after front = .bare)
    (ahead : '&' :: rest = extra ++ back) :
    extra = [] := by
  cases extra with
  | nil => rfl
  | cons letter extra =>
    cases List.head_eq_of_cons_eq ahead
    exact absurd ends (guarded.not_bare (by decide))

/-- Ampersands that are met in the bare state end the piece in front of them. -/
theorem Cut.exists_behind
    (cut : Cut quoting (front ++ '&' :: '&' :: rest) found)
    (guarded : Guarded quoting front)
    (ends : quoting.after front = .bare) :
    ∃ later, found = front :: later ∧ Cut .bare rest later := by
  generalize whole : front ++ '&' :: '&' :: rest = text at cut
  cases cut with
  | last guardedWhole =>
    subst whole
    exact absurd ends (guardedWhole.not_bare (by decide))
  | @more _ piece _ later guardedPiece endsPiece cut =>
    rcases List.append_eq_append_iff.mp whole with ⟨extra, rfl, ahead⟩ | ⟨extra, rfl, ahead⟩
    · cases guardedPiece.extra_eq_nil ends ahead
      cases ahead
      exact ⟨later, by rw [List.append_nil], cut⟩
    · cases guarded.extra_eq_nil endsPiece ahead
      cases ahead
      exact ⟨later, by rw [List.append_nil], cut⟩

/-- A text falls into pieces in one way. -/
theorem Cut.unique
    (cut : Cut quoting text found)
    (again : Cut quoting text other) :
    found = other := by
  induction cut generalizing other with
  | last guarded => exact (again.eq_of_guarded guarded).symm
  | more guarded ends _ ih =>
    rcases again.exists_behind guarded ends with ⟨later, rfl, cutAgain⟩
    rw [ih cutAgain]

/-- The operator for which a text is refused is stray. -/
theorem Cut.stray
    {letter : Char}
    (cut : Cut quoting front found)
    (bare : quoting.after front = .bare)
    (operates : isOperator letter = true)
    (single : ¬PairAhead (letter :: back)) :
    Stray quoting (front ++ letter :: back) front.length := by
  rw [← Nat.add_zero front.length, (cut.passed (letter :: back)).closed.stray_iff, bare]
  exact stray_zero operates single

theorem pieces_eq_ok_iff :
    pieces text = .ok found ↔ Cut .bare text found := by
  refine ⟨cut_of_pieces, fun cut => ?_⟩
  have scanned := scanned_piecesFrom 1 text .outside
  rw [pieces]
  generalize piecesFrom 1 none text = result at scanned
  cases scanned with
  | cut again => rw [again.unique cut]
  | @refused front back letter _ cutFront bare operates single =>
    have stray := cutFront.stray bare operates single
    have clean := (cut.passed []).clean front.length (by simp)
    rw [List.append_nil] at clean
    exact absurd stray clean

theorem segments_of_cut
    (cut : Cut .bare line.toList written) :
    segments line = .ok (written.map fun piece => String.ofList (Text.trim piece)) := by
  rw [segments, pieces_eq_ok_iff.mpr cut]

/-! ## The words of pieces -/

theorem split_ofList_eq_ok_iff :
    Word.split (String.ofList piece) = .ok words ↔
      Word.splitCharacters piece = .ok (words.map String.toList) := by
  rw [Word.split_eq_ok_iff, Word.splitCharacters_eq_ok_iff, String.toList_ofList]

/-- Trimming a piece that has words keeps them exactly if the piece is framed. -/
theorem framed_iff
    (spelled : Word.split (String.ofList piece) = .ok (word :: words)) :
    Framed piece ↔
      Word.split (String.ofList (Text.trim piece)) = Word.split (String.ofList piece) := by
  rw [spelled]
  rw [split_ofList_eq_ok_iff] at spelled ⊢
  constructor
  · intro framed
    rw [← framed.splitCharacters_trim, spelled]
  · intro kept
    exact framed_of_splitCharacters_trim spelled kept (List.cons_ne_nil _ _)

/-! ## The steps of a chain -/

/-- Segments that have words become steps. -/
theorem exists_stepsOfSegments
    {directory : Option String}
    {quiet : Bool}
    {segments : List String}
    (complete :
      ∀ segment ∈ segments, ∃ word words, Word.split segment = .ok (word :: words)) :
    ∃ found, stepsOfSegments directory quiet segments = .ok found := by
  induction segments generalizing directory with
  | nil => exact ⟨[], rfl⟩
  | cons segment rest ih =>
    rcases List.forall_mem_cons.mp complete with ⟨⟨word, words, spelled⟩, later⟩
    rcases @ih (directoryAfter directory (word :: words)) later with ⟨found, inner⟩
    have content : segment ≠ "" := by
      rintro rfl
      cases spelled
    have kept : ¬segment.isEmpty = true := by simpa using content
    refine ⟨⟨segment, directory, quiet⟩ :: found, ?_⟩
    simp only [stepsOfSegments, if_neg kept, spelled, inner]
    rfl

/-- A line has steps if its pieces have words after trimming. -/
theorem exists_steps_of_cut
    {directory : Option String}
    {quiet : Bool}
    (cut : Cut .bare line.toList written)
    (complete :
      ∀ piece ∈ written, ∃ word words,
        Word.split (String.ofList (Text.trim piece)) = .ok (word :: words)) :
    ∃ found, steps line directory quiet = .ok found := by
  rw [steps, segments_of_cut cut]
  apply exists_stepsOfSegments
  intro segment present
  rcases List.mem_map.mp present with ⟨piece, member, rfl⟩
  exact complete piece member

/-- The words of the steps are those of the trimmed pieces. -/
theorem words_of_steps
    {directory : Option String}
    {quiet : Bool}
    {made : List Step}
    (cut : Cut .bare line.toList written)
    (succeeds : steps line directory quiet = .ok made) :
    made.map (fun step => Word.split step.line) =
      written.map fun piece => Word.split (String.ofList (Text.trim piece)) := by
  rcases exists_segments_of_steps succeeds with ⟨segments, separated, inner⟩
  cases Except.ok.inj ((segments_of_cut cut).symm.trans separated)
  have lines := congrArg (List.map Word.split) (linked_of_stepsOfSegments inner).2
  rw [List.map_map, List.map_map] at lines
  exact lines

/-- A line that falls into pieces has a step for each of them, with the words of the piece. -/
def KeepsWords (line : String) (written : List (List Char)) : Prop :=
  ∀ directory quiet, ∃ made, steps line directory quiet = .ok made ∧
    made.map (fun step => Word.split step.line) =
      written.map fun piece => Word.split (String.ofList piece)

/--
A line is cut at its double ampersands into pieces that all have words.  Then
the steps of the line have the words of the pieces exactly if every piece is
framed: the blanks at its ends are separators, and none of them is escaped.
-/
theorem words_kept_iff
    (cut : Cut .bare line.toList written)
    (spelled :
      ∀ piece ∈ written, ∃ word words, Word.split (String.ofList piece) = .ok (word :: words)) :
    KeepsWords line written ↔ ∀ piece ∈ written, Framed piece := by
  have framed : (∀ piece ∈ written, Framed piece) ↔
      ∀ piece ∈ written,
        Word.split (String.ofList (Text.trim piece)) = Word.split (String.ofList piece) := by
    refine forall₂_congr fun piece member => ?_
    rcases spelled piece member with ⟨word, words, splits⟩
    exact framed_iff splits
  rw [framed]
  constructor
  · intro keeps
    rcases keeps none false with ⟨made, succeeds, same⟩
    exact List.map_inj_left.mp ((words_of_steps cut succeeds).symm.trans same)
  · intro kept directory quiet
    have complete : ∀ piece ∈ written, ∃ word words,
        Word.split (String.ofList (Text.trim piece)) = .ok (word :: words) := by
      intro piece member
      rw [kept piece member]
      exact spelled piece member
    rcases @exists_steps_of_cut _ _ directory quiet cut complete with ⟨made, succeeds⟩
    exact ⟨made, succeeds, (words_of_steps cut succeeds).trans (List.map_inj_left.mpr kept)⟩

/-- Operators and blanks inside the words stay, in quotes as well as behind a backslash. -/
theorem words_kept_guarded :
    Cut .bare "echo 'a&&b' c\\ d &&\tmake ".toList
        ["echo 'a&&b' c\\ d ".toList, "\tmake ".toList] ∧
      Word.split "echo 'a&&b' c\\ d " = .ok ["echo", "a&&b", "c d"] ∧
      Word.split "\tmake " = .ok ["make"] ∧
      KeepsWords "echo 'a&&b' c\\ d &&\tmake "
        ["echo 'a&&b' c\\ d ".toList, "\tmake ".toList] := by
  have cut : Cut .bare "echo 'a&&b' c\\ d &&\tmake ".toList
      ["echo 'a&&b' c\\ d ".toList, "\tmake ".toList] :=
    cut_of_pieces (by decide)
  have first : Word.split "echo 'a&&b' c\\ d " = .ok ["echo", "a&&b", "c d"] := by rfl
  have second : Word.split "\tmake " = .ok ["make"] := by rfl
  have quoted : Framed "echo 'a&&b' c\\ d ".toList :=
    @Framed.mk [] "echo 'a&&b' c\\ d".toList [' '] (List.forall_mem_nil _)
      ⟨⟨'e', rfl, rfl⟩, ⟨'d', rfl, rfl⟩⟩ rfl (List.forall_mem_singleton.mpr rfl)
  have plain : Framed "\tmake ".toList :=
    @Framed.mk ['\t'] "make".toList [' '] (List.forall_mem_singleton.mpr rfl)
      ⟨⟨'m', rfl, rfl⟩, ⟨'e', rfl, rfl⟩⟩ rfl (List.forall_mem_singleton.mpr rfl)
  refine ⟨cut, first, second, (words_kept_iff cut ?_).mpr ?_⟩
  · exact List.forall_mem_cons.mpr ⟨⟨_, _, first⟩, List.forall_mem_singleton.mpr ⟨_, _, second⟩⟩
  · exact List.forall_mem_cons.mpr ⟨quoted, List.forall_mem_singleton.mpr plain⟩

/--
A blank at the end is taken away although it is escaped, and what is left ends
in a backslash and is refused.  A blank that is no separator is taken away with
the argument that it is.
-/
theorem words_lost_at_ends :
    (Cut .bare "echo \\ ".toList ["echo \\ ".toList] ∧
        Word.split "echo \\ " = .ok ["echo", " "] ∧
        steps "echo \\ " = .error (.unfinished .escape) ∧
        ¬KeepsWords "echo \\ " ["echo \\ ".toList]) ∧
      Cut .bare "echo \u00a0".toList ["echo \u00a0".toList] ∧
        Word.split "echo \u00a0" = .ok ["echo", "\u00a0"] ∧
        steps "echo \u00a0" = .ok [⟨"echo", none, false⟩] ∧
        ¬KeepsWords "echo \u00a0" ["echo \u00a0".toList] := by
  have refused : steps "echo \\ " = .error (.unfinished .escape) := by rfl
  have shortened : steps "echo \u00a0" = .ok [⟨"echo", none, false⟩] := by rfl
  refine ⟨⟨cut_of_pieces (by rfl), by rfl, refused, ?_⟩,
    cut_of_pieces (by rfl), by rfl, shortened, ?_⟩
  · intro keeps
    rcases keeps none false with ⟨made, succeeds, _⟩
    rw [refused] at succeeds
    cases succeeds
  · intro keeps
    rcases keeps none false with ⟨made, succeeds, same⟩
    rw [shortened] at succeeds
    cases succeeds
    cases same

end Cookbook.Chain
