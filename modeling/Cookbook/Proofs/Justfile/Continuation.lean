import Cookbook.Proofs.Justfile.Alike
import Cookbook.Proofs.Justfile.Placed

/-!
# Continued lines

A command may be written on one line or be spread out over several ones, each
but the last with a backslash at its end and perhaps with empty lines behind
it.  Both say the same, whatever the pieces look like: only the backslash at
the end of a line and the blanks around it are taken off, and comments, quiet
marks and quotes are looked for in the whole command.  So spreading out a
command leaves the book as it is.  What is wrong with the command is reported
at its first line.
-/

namespace Cookbook.Justfile

open Text (Blank Firm)

variable
    {number : Nat}
    {margin core piece trailing : List Char}
    {pieces lines : List (List Char)}
    {reading later : Reading}

/-! ## Lines that are spread out -/

/-- The spaces and tabs that indent a line. -/
structure Margin (text : List Char) : Prop where
  present : text ≠ []
  white : ∀ letter ∈ text, letter = ' ' ∨ letter = '\t'

/-- The pieces of a command on indented lines, one on each. -/
inductive Spread : List (List Char) → List (List Char) → Prop
  | last {margin piece trailing : List Char}
      (indented : Margin margin)
      (firm : Firm piece)
      (ends : piece.getLast? ≠ some '\\')
      (blank : Blank trailing) :
      Spread [piece] [margin ++ (piece ++ trailing)]
  | more {margin piece gap trailing : List Char} {pieces blanks lines : List (List Char)}
      (indented : Margin margin)
      (firm : Firm piece)
      (apart : Blank gap)
      (blank : Blank trailing)
      (empty : ∀ line ∈ blanks, Blank line)
      (later : Spread pieces lines) :
      Spread (piece :: pieces)
        ((margin ++ (piece ++ gap ++ ['\\'] ++ trailing)) :: (blanks ++ lines))

/-- Lines of which one, a line of a body, is spread out over several ones. -/
inductive SpreadOut : List (List Char) → List (List Char) → Prop
  | mk {before after physical pieces : List (List Char)} {line : List Char}
      (indented : Line.read (Text.trimRight line) = .indented)
      (spelled : Text.trim line = [' '].intercalate pieces)
      (spread : Spread pieces physical) :
      SpreadOut (before ++ line :: after) (before ++ (physical ++ after))

theorem Margin.blank
    (indented : Margin margin) :
    Blank margin := by
  intro letter inside
  rcases indented.white letter inside with rfl | rfl
  · rfl
  · rfl

/-- Only the blanks at the end of a line are taken off. -/
theorem trimRight_line
    (ends : ∃ letter ∈ core.getLast?, Text.isBlank letter = false)
    (blank : Blank trailing) :
    Text.trimRight (margin ++ (core ++ trailing)) = margin ++ core := by
  rcases ends with ⟨letter, final, solid⟩
  rw [← List.append_assoc, Text.trimRight_append blank]
  refine Text.trimRight_of_last ⟨letter, ?_, solid⟩
  rw [Option.mem_def] at final ⊢
  rw [List.getLast?_append, final]
  rfl

theorem Margin.read
    (indented : Margin margin)
    (ends : ∃ letter ∈ core.getLast?, Text.isBlank letter = false)
    (blank : Blank trailing) :
    Line.read (Text.trimRight (margin ++ (core ++ trailing))) = .indented := by
  rw [trimRight_line ends blank]
  exact read_indented indented.present indented.white

theorem bodyLines_margin
    (indented : Margin margin)
    (ends : ∃ letter ∈ core.getLast?, Text.isBlank letter = false)
    (blank : Blank trailing) :
    bodyLines number [margin ++ (core ++ trailing)] = [⟨number, margin ++ core⟩] := by
  rw [bodyLines_indented (indented.read ends blank), trimRight_line ends blank]

/-- The backslash at the end of a line is no blank. -/
theorem exists_getLast?_backslash
    (text : List Char) :
    ∃ letter ∈ (text ++ ['\\']).getLast?, Text.isBlank letter = false :=
  ⟨'\\', List.getLast?_concat, rfl⟩

theorem piece_last
    (indented : Margin margin)
    (firm : Firm piece)
    (ends : piece.getLast? ≠ some '\\') :
    Numbered.isUnfinished ⟨number, margin ++ piece⟩ = false ∧
      Numbered.piece ⟨number, margin ++ piece⟩ = piece := by
  rcases firm.last with ⟨letter, final, _⟩
  have whole : (margin ++ piece).getLast? = some letter := by
    rw [List.getLast?_append, final]
    rfl
  have finished : Numbered.isUnfinished ⟨number, margin ++ piece⟩ = false := by
    rw [Numbered.isUnfinished, whole, ← final]
    exact beq_eq_false_iff_ne.mpr ends
  refine ⟨finished, ?_⟩
  rw [Numbered.piece, Numbered.content_of_finished finished,
    Text.trim_append_of_blank indented.blank, firm.trim]

theorem piece_more
    {gap : List Char}
    (indented : Margin margin)
    (firm : Firm piece)
    (apart : Blank gap) :
    Numbered.isUnfinished ⟨number, margin ++ (piece ++ gap ++ ['\\'])⟩ = true ∧
      Numbered.piece ⟨number, margin ++ (piece ++ gap ++ ['\\'])⟩ = piece := by
  have goesOn : Numbered.isUnfinished ⟨number, margin ++ (piece ++ gap ++ ['\\'])⟩ = true := by
    rw [Numbered.isUnfinished, ← List.append_assoc, List.getLast?_concat]
    rfl
  refine ⟨goesOn, ?_⟩
  rw [Numbered.piece, Numbered.content_of_unfinished goesOn, ← List.append_assoc,
    List.dropLast_concat, Text.trim_append_of_blank indented.blank, Text.trim_append apart,
    firm.trim]

theorem bodyLines_of_blank
    (blank : ∀ line ∈ lines, Blank line) :
    bodyLines number lines = [] := by
  induction lines generalizing number with
  | nil => rfl
  | cons line rest ih =>
    rcases List.forall_mem_cons.mp blank with ⟨first, others⟩
    rw [bodyLines_cons, ih others, List.append_nil]
    exact bodyLines_blank (by rw [Text.trimRight_of_blank first]; rfl)

namespace Spread

theorem inner
    (spread : Spread pieces lines) :
    ∀ line ∈ lines, Inner line := by
  induction spread with
  | last indented firm _ blank =>
    exact List.forall_mem_singleton.mpr (.inr (indented.read firm.last blank))
  | more indented _ _ blank empty _ ih =>
    rw [List.forall_mem_cons]
    refine ⟨.inr (indented.read (exists_getLast?_backslash _) blank), ?_⟩
    refine List.forall_mem_append.mpr ⟨fun line member => .inl ?_, ih⟩
    rw [Text.trimRight_of_blank (empty line member)]
    rfl

/-- The lines that a command is spread over are those of one command with its pieces. -/
theorem oneCommand
    (spread : Spread pieces lines)
    (number : Nat) :
    OneCommand (bodyLines number lines) ∧
      (bodyLines number lines).map Numbered.piece = pieces := by
  induction spread generalizing number with
  | last indented firm ends blank =>
    rcases @piece_last number _ _ indented firm ends with ⟨finished, said⟩
    rw [bodyLines_margin indented firm.last blank]
    exact ⟨.last finished, congrArg List.singleton said⟩
  | @more margin piece gap trailing _ blanks lines indented firm apart blank empty _ ih =>
    have split : bodyLines number
          ((margin ++ (piece ++ gap ++ ['\\'] ++ trailing)) :: (blanks ++ lines)) =
        ⟨number, margin ++ (piece ++ gap ++ ['\\'])⟩ ::
          bodyLines (number + 1 + blanks.length) lines := by
      rw [bodyLines_cons, bodyLines_margin indented (exists_getLast?_backslash _) blank,
        bodyLines_append, bodyLines_of_blank empty]
      rfl
    rcases @piece_more number _ _ _ indented firm apart with ⟨goesOn, said⟩
    rcases ih (number + 1 + blanks.length) with ⟨one, others⟩
    rw [split, List.map_cons, said, others]
    exact ⟨.more goesOn one, rfl⟩

theorem firm
    (spread : Spread pieces lines) :
    ∀ piece ∈ pieces, Firm piece := by
  induction spread with
  | last _ firm _ _ => exact List.forall_mem_singleton.mpr firm
  | more _ firm _ _ _ _ ih => exact List.forall_mem_cons.mpr ⟨firm, ih⟩

/-- The last line of a command does not go on, and neither does the command on one line. -/
theorem exists_last
    (spread : Spread pieces lines) :
    ∃ letter ∈ ([' '].intercalate pieces).getLast?, letter ≠ '\\' := by
  induction spread with
  | last _ firm ends _ =>
    rcases firm.last with ⟨letter, final, _⟩
    rw [List.intercalate_singleton]
    refine ⟨letter, final, ?_⟩
    rintro rfl
    exact ends final
  | more _ _ _ _ _ later ih =>
    rcases ih with ⟨letter, final, other⟩
    refine ⟨letter, ?_, other⟩
    rw [Option.mem_def] at final ⊢
    -- in both cases there is a next piece, so the first one is followed by a space
    cases later
    all_goals
      rw [List.intercalate_cons_cons, List.getLast?_append, final]
      rfl

theorem wording_bodyLines
    (spread : Spread pieces lines)
    (number : Nat) :
    wording (bodyLines number lines) = [' '].intercalate pieces := by
  rw [wording, (spread.oneCommand number).2]
  exact Text.phrase_eq_intercalate fun piece member => (spread.firm piece member).ne_nil

end Spread

/-- A command that stands on one line is one command with the text of the line. -/
theorem oneCommand_line
    {line : List Char}
    (indented : Line.read (Text.trimRight line) = .indented)
    (ends : ∃ letter ∈ (Text.trim line).getLast?, letter ≠ '\\') :
    OneCommand (bodyLines number [line]) ∧ wording (bodyLines number [line]) = Text.trim line := by
  have finished : Numbered.isUnfinished ⟨number, Text.trimRight line⟩ = false := by
    rcases ends with ⟨letter, final, other⟩
    rcases Text.exists_blank_append_trimLeft (Text.trimRight line) with ⟨blanks, _, split⟩
    rw [Text.trimLeft_trimRight] at split
    rw [Numbered.isUnfinished]
    show ((Text.trimRight line).getLast? == some '\\') = false
    rw [split, List.getLast?_append, final]
    simpa using other
  rw [bodyLines_indented indented, wording_singleton, Numbered.piece,
    Numbered.content_of_finished finished, Text.trim_trimRight]
  exact ⟨.last finished, rfl⟩

/-- A line of a body and the lines that it is spread over are taken up alike. -/
theorem Spread.alike
    {line : List Char}
    {sketch : Sketch}
    (spread : Spread pieces lines)
    (kept : ∀ line ∈ sketch.body, line.Kept)
    (indented : Line.read (Text.trimRight line) = .indented)
    (spelled : Text.trim line = [' '].intercalate pieces)
    (number : Nat) :
    Sketch.Alike
      { sketch with body := sketch.body ++ bodyLines number [line] }
      { sketch with body := sketch.body ++ bodyLines number lines } where
  name := rfl
  needs := rfl
  quiet := rfl
  doc := rfl
  steps := by
    intro back behind steps alike cut
    have ends : ∃ letter ∈ (Text.trim line).getLast?, letter ≠ '\\' := by
      rw [spelled]
      exact spread.exists_last
    rcases @oneCommand_line number line indented ends with ⟨one, said⟩
    have same : wording (bodyLines number lines) = wording (bodyLines number [line]) := by
      rw [spread.wording_bodyLines, said, spelled]
    rw [List.append_assoc] at cut ⊢
    exact stepsOfBody_of_wording kept (fun _ => kept_of_mem_bodyLines)
      (fun _ => kept_of_mem_bodyLines) one (spread.oneCommand number).1 same alike cut

/-! ## Reading lines that are spread out -/

namespace Reading

/-- Lines of which one is spread out are read alike. -/
theorem exists_alike_of_spreadOut
    {others : List (List Char)}
    (spread : SpreadOut lines others)
    (known : start.continueFrom 1 lines = .ok reading) :
    ∃ again, start.continueFrom 1 others = .ok again ∧ reading.Alike again := by
  cases spread with
  | @mk before after physical pieces line indented spelled spread =>
    rcases exists_of_continueFrom_append known with ⟨front, first, behind⟩
    have placed : front.Placed before := placed_start.continueFrom first
    rw [continueFrom] at behind
    split at behind
    · cases behind
    · rename_i next moved
      have moves := moves_of_next moved
      rw [indented] at moves
      cases moves with
      | @indented sketch opened =>
        have kept : ∀ line ∈ sketch.body, line.Kept :=
          fun _ => (placed.current sketch opened).kept
        have inner := @continueFrom_inner (1 + before.length) _ _ _ opened spread.inner
        have same := spread.alike kept indented spelled (1 + before.length)
        rw [bodyLines_indented indented] at same
        have alike : Alike
            { front with
              current := some { sketch with
                body := sketch.body ++ [⟨1 + before.length, Text.trimRight line⟩] } }
            { front with
              current := some { sketch with
                body := sketch.body ++ bodyLines (1 + before.length) physical } } :=
          { Alike.refl front with current := .some same }
        rw [continueFrom_append first, continueFrom_append inner]
        exact alike.continueFrom behind

end Reading

/-- Spreading out a command over several lines leaves the book as it is. -/
theorem book_of_spreadOut
    {text rewritten path : String}
    {book : Book}
    (spread : SpreadOut (Text.lines text.toList) (Text.lines rewritten.toList))
    (described : Justfile.book text path = .ok book) :
    Justfile.book rewritten path = .ok book := by
  rcases exists_draft_of_book described with ⟨reading, draft, known, drafted, made⟩
  rcases Reading.exists_alike_of_spreadOut spread known with ⟨again, read, alike⟩
  simp only [Justfile.book, Justfile.read, read, alike.draft drafted, made]

/--
A command means the same on one line as spread out over several ones, so a
justfile that describes a book describes the same book with the command spread
out.  What is wrong with a command is reported at the first of its lines.
-/
theorem continued_lines_are_one_command
    (path : String) :
    (∀ {text rewritten : String} {book : Book},
      SpreadOut (Text.lines text.toList) (Text.lines rewritten.toList) →
        Justfile.book text path = .ok book → Justfile.book rewritten path = .ok book) ∧
      ∀ {text : String} {fault : Fault}, isOfCommand fault.problem = true →
        Justfile.book text path = .error (fault.failure path) →
          ∃ (sketch : Sketch) (behind : List (List Char)),
            sketch.Stands (Text.lines text.toList) behind ∧
              (∀ line ∈ behind.head?, ¬Inner line) ∧
              FaultIn sketch.quiet sketch.body fault :=
  ⟨book_of_spreadOut, exists_faultIn_of_book⟩

/-- One text continues a line of another one twice, and a third one has an operator behind that. -/
theorem continued_lines_are_one_command_three_lines :
    (∃ book,
      Justfile.book "hi:\n  echo a '# b' @c\n" "justfile" = .ok book ∧
        Justfile.book "hi:\n\techo a \\\n\n  '# b'\\  \n\t@c\n" "justfile" = .ok book) ∧
      ∃ (sketch : Sketch) (behind : List (List Char)),
        sketch.Stands
            (Text.lines "hi:\n  pwd\n  echo a \\\n\n    | b\nbye:\n".toList) behind ∧
          (∀ line ∈ behind.head?, ¬Inner line) ∧
          FaultIn sketch.quiet sketch.body ⟨3, .command (.shellOperator "|" 8)⟩ := by
  rcases continued_lines_are_one_command "justfile" with ⟨spreads, refuses⟩
  constructor
  · let book : Book :=
      { bindings := ⟨[], by decide⟩
        catalog := ⟨[⟨"hi", [⟨"echo a '# b' @c", none, false⟩], [], [], none⟩], by decide⟩
        default := some "hi"
        source := "justfile" }
    have described : Justfile.book "hi:\n  echo a '# b' @c\n" "justfile" = .ok book := rfl
    have tab : Margin ['\t'] := ⟨by decide, by simp⟩
    have spaces : Margin [' ', ' '] := ⟨by decide, by simp⟩
    have echo : Firm "echo a".toList := ⟨⟨'e', rfl, rfl⟩, ⟨'a', rfl, rfl⟩⟩
    have quoted : Firm "'# b'".toList := ⟨⟨'\'', rfl, rfl⟩, ⟨'\'', rfl, rfl⟩⟩
    have marked : Firm "@c".toList := ⟨⟨'@', rfl, rfl⟩, ⟨'c', rfl, rfl⟩⟩
    have last : Spread ["@c".toList] ["\t@c".toList] :=
      @Spread.last ['\t'] "@c".toList [] tab marked (by decide) (by decide)
    have middle : Spread ["'# b'".toList, "@c".toList] ["  '# b'\\  ".toList, "\t@c".toList] :=
      @Spread.more [' ', ' '] "'# b'".toList [] [' ', ' '] _ [] _ spaces quoted (by decide)
        (by decide) (by decide) last
    have spread : Spread ["echo a".toList, "'# b'".toList, "@c".toList]
        ["\techo a \\".toList, [], "  '# b'\\  ".toList, "\t@c".toList] :=
      @Spread.more ['\t'] "echo a".toList [' '] [] _ [[]] _ tab echo (by decide)
        (by decide) (by decide) middle
    have spreadOut : SpreadOut (Text.lines "hi:\n  echo a '# b' @c\n".toList)
        (Text.lines "hi:\n\techo a \\\n\n  '# b'\\  \n\t@c\n".toList) :=
      @SpreadOut.mk ["hi:".toList] [] _ _ "  echo a '# b' @c".toList rfl rfl spread
    exact ⟨book, described, spreads spreadOut described⟩
  · have refused :
        Justfile.book "hi:\n  pwd\n  echo a \\\n\n    | b\nbye:\n" "justfile" =
          .error (Fault.failure ⟨3, .command (.shellOperator "|" 8)⟩ "justfile") :=
      rfl
    exact refuses rfl refused

end Cookbook.Justfile
