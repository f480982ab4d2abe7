import Cookbook.Proofs.Chain.Whole
import Cookbook.Proofs.Chain.Words

/-!
# One command line behind another

A command line that has steps leaves the word reader in the bare state, so a
double ampersand behind it always counts.  What follows is cut as if nothing
stood in front of it, and its steps begin in the directory that the steps in
front have reached.
-/

namespace Cookbook.Chain

open Word (Quoting)

variable
    {quoting : Quoting}
    {text front back piece : List Char}
    {found other written : List (List Char)}
    {directory : Option String}
    {quiet : Bool}
    {line first second : String}
    {commands further whole : List String}
    {made reached : List Step}

/-! ## Pieces behind pieces -/

theorem Cut.append
    (cut : Cut quoting front found)
    (ends : quoting.after front = .bare)
    (more : Cut .bare back other) :
    Cut quoting (front ++ '&' :: '&' :: back) (found ++ other) := by
  induction cut with
  | last guarded => exact .more guarded ends more
  | @more quoting piece rest later guarded bare _ ih =>
    rw [Quoting.after_append, bare] at ends
    rw [List.append_assoc]
    exact .more guarded bare (ih ends)

/-- The pieces behind a double ampersand are those of the text that follows. -/
theorem Cut.append_iff
    (cut : Cut quoting front found)
    (ends : quoting.after front = .bare) :
    Cut quoting (front ++ '&' :: '&' :: back) written ↔
      ∃ other, Cut .bare back other ∧ written = found ++ other := by
  constructor
  · intro both
    induction cut generalizing written with
    | last guarded =>
      rcases both.exists_behind guarded ends with ⟨other, rfl, more⟩
      exact ⟨other, more, rfl⟩
    | @more quoting piece rest later guarded bare _ ih =>
      rw [Quoting.after_append, bare] at ends
      rw [List.append_assoc] at both
      rcases both.exists_behind guarded bare with ⟨behind, rfl, inner⟩
      rcases ih ends inner with ⟨other, more, rfl⟩
      exact ⟨other, more, rfl⟩
  · rintro ⟨other, more, rfl⟩
    exact cut.append ends more

/-! ## Spaces around a double ampersand -/

/-- Pieces as they are run: trimmed. -/
def trimmed (written : List (List Char)) : List String :=
  written.map fun piece => String.ofList (Text.trim piece)

theorem blank_space :
    Text.Blank [' '] :=
  List.forall_mem_singleton.mpr rfl

theorem guarded_space :
    Guarded quoting [' '] :=
  guarded_cons.mpr ⟨nofun, trivial⟩

/-- A space behind a text is trimmed with the last piece. -/
theorem Cut.exists_append_space
    (cut : Cut quoting text found) :
    ∃ spaced, Cut quoting (text ++ [' ']) spaced ∧ trimmed spaced = trimmed found := by
  induction cut with
  | @last quoting text guarded =>
    refine ⟨[text ++ [' ']], .last (guarded_append.mpr ⟨guarded, guarded_space⟩), ?_⟩
    rw [trimmed, trimmed, List.map_singleton, List.map_singleton, Text.trim_append blank_space]
  | @more quoting piece rest later guarded bare _ ih =>
    rcases ih with ⟨spaced, cut, same⟩
    refine ⟨piece :: spaced, ?_, congrArg (_ :: ·) same⟩
    rw [List.append_assoc]
    exact .more guarded bare cut

/-- A space in front of a text is trimmed with the first piece. -/
theorem Cut.trimmed_extend
    (cut : Cut quoting text found) :
    trimmed (Chain.extend [' '] found) = trimmed found := by
  have spaced : ∀ piece, Text.trim ([' '] ++ piece) = Text.trim piece :=
    fun _ => Text.trim_append_of_blank blank_space
  cases cut with
  | last => simp only [trimmed, Chain.extend, List.map_cons, spaced]
  | more => simp only [trimmed, Chain.extend, List.map_cons, spaced]

theorem Cut.exists_of_space
    (cut : Cut .bare (' ' :: text) written) :
    ∃ found, Cut .bare text found ∧ written = Chain.extend [' '] found := by
  generalize spaced : ' ' :: text = line at cut
  cases cut with
  | last guarded =>
    subst spaced
    exact ⟨[text], .last guarded.2, rfl⟩
  | @more _ piece rest later guarded ends cut =>
    cases piece with
    | nil => cases spaced
    | cons letter piece =>
      cases spaced
      exact ⟨piece :: later, .more guarded.2 ends cut, rfl⟩

/-! ## Commands behind commands -/

theorem segments_eq_ok_iff :
    segments line = .ok commands ↔
      ∃ written, Cut .bare line.toList written ∧ commands = trimmed written := by
  constructor
  · intro separated
    unfold segments at separated
    split at separated
    · rename_i written cut
      cases separated
      exact ⟨written, cut_of_pieces cut, rfl⟩
    · cases separated
  · rintro ⟨written, cut, rfl⟩
    exact segments_of_cut cut

theorem segments_space_append :
    segments (" " ++ line) = .ok commands ↔ segments line = .ok commands := by
  rw [segments_eq_ok_iff, segments_eq_ok_iff, String.toList_append]
  constructor
  · rintro ⟨written, cut, rfl⟩
    rcases cut.exists_of_space with ⟨found, inner, rfl⟩
    exact ⟨found, inner, inner.trimmed_extend⟩
  · rintro ⟨found, cut, rfl⟩
    refine ⟨Chain.extend [' '] found, ?_, cut.trimmed_extend.symm⟩
    exact @Cut.extend .bare line.toList [' '] found guarded_space cut

/-- Behind a complete line, another line has the commands that it has alone. -/
theorem segments_append_iff
    (separated : segments first = .ok commands)
    (ends : Quoting.bare.after first.toList = .bare) :
    segments (first ++ " && " ++ second) = .ok whole ↔
      ∃ further, segments second = .ok further ∧ whole = commands ++ further := by
  rcases segments_eq_ok_iff.mp separated with ⟨written, cut, rfl⟩
  rcases cut.exists_append_space with ⟨spaced, padded, same⟩
  have complete : Quoting.bare.after (first.toList ++ [' ']) = .bare := by
    rw [Quoting.after_append, ends]
    rfl
  have parts : (first ++ " && " ++ second).toList =
      (first.toList ++ [' ']) ++ '&' :: '&' :: (" " ++ second).toList := by
    simp
  simp only [← @segments_space_append second]
  rw [segments_eq_ok_iff, parts, ← same]
  constructor
  · rintro ⟨pieces, both, rfl⟩
    rcases (padded.append_iff complete).mp both with ⟨other, more, rfl⟩
    exact ⟨trimmed other, segments_eq_ok_iff.mpr ⟨other, more, rfl⟩, List.map_append⟩
  · rintro ⟨further, more, rfl⟩
    rcases segments_eq_ok_iff.mp more with ⟨other, behind, rfl⟩
    exact ⟨spaced ++ other, padded.append complete behind, List.map_append.symm⟩

/-! ## Complete lines -/

theorem after_of_trim
    (complete : Quoting.bare.after (Text.trim piece) = .bare) :
    Quoting.bare.after piece = .bare := by
  rcases Text.exists_blanks_around piece with ⟨front, back, leading, trailing, parts⟩
  rw [parts, Quoting.after_append, after_of_blank leading, Quoting.after_append, complete,
    after_of_blank trailing]

theorem Cut.after
    (cut : Cut .bare text found)
    (complete : ∀ piece ∈ found, Quoting.bare.after piece = .bare) :
    Quoting.bare.after text = .bare := by
  generalize start : Quoting.bare = quoting at cut
  induction cut with
  | last =>
    subst start
    exact complete _ (List.mem_singleton_self _)
  | @more _ piece rest later guarded bare _ ih =>
    subst start
    rw [Quoting.after_append, bare]
    exact ih (fun piece member => complete piece (List.mem_cons_of_mem _ member)) rfl

/-- Behind a line that has steps, no quotation is open and no escape is pending. -/
theorem after_of_steps
    (succeeds : steps line directory quiet = .ok made) :
    Quoting.bare.after line.toList = .bare := by
  rcases exists_segments_of_steps succeeds with ⟨commands, separated, inner⟩
  rcases segments_eq_ok_iff.mp separated with ⟨written, cut, rfl⟩
  refine cut.after fun piece member => after_of_trim ?_
  have present : String.ofList (Text.trim piece) ∈ trimmed written :=
    List.mem_map.mpr ⟨piece, member, rfl⟩
  have ended := (complete_of_mem_stepsOfSegments inner present).2
  rwa [String.toList_ofList] at ended

/-! ## Steps behind steps -/

/-- The directory that commands leave behind, as far as their words can be read. -/
def directoryBehind (directory : Option String) : List String → Option String
  | [] => directory
  | command :: rest =>
    match Word.split command with
    | .error _ => directoryBehind directory rest
    | .ok words => directoryBehind (directoryAfter directory words) rest

/-- Commands behind others start in the directory that those leave. -/
theorem stepsOfSegments_append
    (commands further : List String) :
    stepsOfSegments directory quiet (commands ++ further) =
      (stepsOfSegments directory quiet commands).bind fun made =>
        (made ++ ·) <$> stepsOfSegments (directoryBehind directory commands) quiet further := by
  induction commands generalizing directory with
  | nil =>
    show stepsOfSegments directory quiet further = id <$> stepsOfSegments directory quiet further
    rw [id_map]
  | cons command rest ih =>
    rw [List.cons_append, stepsOfSegments, stepsOfSegments, directoryBehind]
    split
    · rfl
    · cases Word.split command with
      | error cause => rfl
      | ok words =>
        simp only [ih]
        cases stepsOfSegments (directoryAfter directory words) quiet rest with
        | error problem => rfl
        | ok made => exact Functor.map_map _ _ _

/-- The steps of a line behind another one begin in the directory that this one leaves. -/
theorem steps_append_iff
    (succeeds : steps first directory quiet = .ok made) :
    steps (first ++ " && " ++ second) directory quiet = .ok reached ↔
      ∃ later,
        steps second (directoryBehind directory (made.map Step.line)) quiet = .ok later ∧
          reached = made ++ later := by
  have ends := after_of_steps succeeds
  rcases exists_segments_of_steps succeeds with ⟨commands, separated, inner⟩
  rw [(linked_of_stepsOfSegments inner).2]
  constructor
  · intro chained
    rcases exists_segments_of_steps chained with ⟨whole, cut, all⟩
    rcases (segments_append_iff separated ends).mp cut with ⟨further, more, rfl⟩
    rw [stepsOfSegments_append, inner] at all
    rcases exists_of_map_eq_ok all with ⟨later, follows, rfl⟩
    refine ⟨later, ?_, rfl⟩
    rw [steps, more]
    exact follows
  · rintro ⟨later, follows, rfl⟩
    rcases exists_segments_of_steps follows with ⟨further, more, behind⟩
    rw [steps, (segments_append_iff separated ends).mpr ⟨further, more, rfl⟩]
    show stepsOfSegments directory quiet (commands ++ further) = _
    rw [stepsOfSegments_append, inner]
    simp only [Except.bind, behind]
    rfl

/--
A line that has steps, a double ampersand, and another line have the steps of
both, if the other line has steps in the directory that the first one leaves,
and no steps otherwise.  That directory is the one in which any further
command of the first line would be run.
-/
theorem chained_lines_concatenate
    (succeeds : steps first directory quiet = .ok made) :
    ∃ front last, steps (first ++ " && " ++ "x") directory quiet = .ok (front ++ [last]) ∧
      ∀ second reached,
        steps (first ++ " && " ++ second) directory quiet = .ok reached ↔
          ∃ later, steps second last.directory quiet = .ok later ∧ reached = made ++ later := by
  refine ⟨made, ⟨"x", directoryBehind directory (made.map Step.line), quiet⟩, ?_, ?_⟩
  · exact (steps_append_iff succeeds).mpr ⟨_, rfl, rfl⟩
  · exact fun second reached => steps_append_iff succeeds

/-- Quoted operators and an absolute directory in the second line, nested ones in the first. -/
theorem chained_lines_concatenate_nested :
    steps "cd 'a && b' && cd c" (some "w") true =
        .ok [⟨"cd 'a && b'", some "w", true⟩, ⟨"cd c", some "w/a && b", true⟩] ∧
      steps ("cd 'a && b' && cd c" ++ " && " ++ "make \\; && cd /d && ls") (some "w") true =
        .ok [⟨"cd 'a && b'", some "w", true⟩, ⟨"cd c", some "w/a && b", true⟩,
          ⟨"make \\;", some "w/a && b/c", true⟩, ⟨"cd /d", some "w/a && b/c", true⟩,
          ⟨"ls", some "/d", true⟩] := by
  have succeeds : steps "cd 'a && b' && cd c" (some "w") true =
      .ok [⟨"cd 'a && b'", some "w", true⟩, ⟨"cd c", some "w/a && b", true⟩] := by
    rfl
  refine ⟨succeeds, ?_⟩
  rcases chained_lines_concatenate succeeds with ⟨front, last, probed, chained⟩
  have ended : steps ("cd 'a && b' && cd c" ++ " && " ++ "x") (some "w") true =
      .ok ([⟨"cd 'a && b'", some "w", true⟩, ⟨"cd c", some "w/a && b", true⟩] ++
        [⟨"x", some "w/a && b/c", true⟩]) := by
    rfl
  rcases List.append_inj' (Except.ok.inj (probed.symm.trans ended)) rfl with ⟨_, reached⟩
  cases reached
  exact (chained _ _).mpr ⟨_, by rfl, rfl⟩

end Cookbook.Chain
