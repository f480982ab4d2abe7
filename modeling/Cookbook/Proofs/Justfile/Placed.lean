import Cookbook.Proofs.Justfile.Merge
import Cookbook.Proofs.Justfile.Outcome
import Cookbook.Proofs.Justfile.Reading

/-!
# Bodies and the lines that they stand on

The body of a recipe stands right behind its header and goes on up to the first
line that is neither empty nor indented.  It has the lines of that stretch that
are not empty, each with its number in the text.  That is an invariant of
reading, so a fault of a body is reported at the line of the text on which a
command begins.
-/

namespace Cookbook.Justfile

variable
    {number : Nat}
    {line : List Char}
    {lines further behind inner : List (List Char)}
    {sketch : Sketch}
    {sketches : List Sketch}
    {reading later : Reading}
    {problem : LineProblem}
    {fault : Fault}

/-! ## The lines of a body -/

/-- A line that does not end a body. -/
def Inner (line : List Char) : Prop :=
  Line.read (Text.trimRight line) = .blank ∨ Line.read (Text.trimRight line) = .indented

/-- The lines of a body, of which the first one has a number. -/
def bodyLines (number : Nat) (lines : List (List Char)) : List Numbered :=
  (numberedFrom number (lines.map Text.trimRight)).filter (!·.text.isEmpty)

theorem bodyLines_append
    (front back : List (List Char)) :
    bodyLines number (front ++ back) =
      bodyLines number front ++ bodyLines (number + front.length) back := by
  rw [bodyLines, List.map_append, numberedFrom_append, List.filter_append, List.length_map,
    bodyLines, bodyLines]

theorem bodyLines_cons
    (line : List Char)
    (rest : List (List Char)) :
    bodyLines number (line :: rest) = bodyLines number [line] ++ bodyLines (number + 1) rest :=
  bodyLines_append [line] rest

/-- The lines of a body end in characters that are no blanks. -/
theorem kept_of_mem_bodyLines
    {line : Numbered}
    (member : line ∈ bodyLines number lines) :
    line.Kept := by
  rcases List.mem_filter.mp member with ⟨among, filled⟩
  rcases List.mem_map.mp (exists_of_mem_numberedFrom among) with ⟨source, _, same⟩
  have present : Text.trimRight source ≠ [] := by
    rw [same]
    simpa using filled
  have ends := List.rdropWhile_last_not Text.isBlank source present
  rw [Numbered.Kept, ← same]
  exact ⟨_, List.getLast?_eq_some_getLast present, Bool.eq_false_iff.mpr ends⟩

theorem bodyLines_blank
    (blank : Line.read (Text.trimRight line) = .blank) :
    bodyLines number [line] = [] := by
  rw [bodyLines, List.map_singleton, eq_nil_of_read blank]
  rfl

theorem bodyLines_indented
    (indented : Line.read (Text.trimRight line) = .indented) :
    bodyLines number [line] = [⟨number, Text.trimRight line⟩] := by
  have filled : Text.trimRight line ≠ [] := by
    intro empty
    rw [empty] at indented
    cases indented
  simp [bodyLines, numberedFrom, filled]

namespace Reading

/-- A recipe whose body is open takes up a line that does not end the body. -/
theorem next_inner
    (opened : reading.current = some sketch)
    (inner : Inner line) :
    reading.next ⟨number, Text.trimRight line⟩ =
      .ok { reading with
        current := some { sketch with body := sketch.body ++ bodyLines number [line] } } := by
  rcases inner with blank | indented
  · rw [next, blank, bodyLines_blank blank, List.append_nil, ← opened]
    simp only [skip, opened]
    rw [← opened]
  · rw [next, indented, bodyLines_indented indented]
    simp only [indent, opened]

theorem continueFrom_inner
    (opened : reading.current = some sketch)
    (inner : ∀ line ∈ lines, Inner line) :
    reading.continueFrom number lines =
      .ok { reading with
        current := some { sketch with body := sketch.body ++ bodyLines number lines } } := by
  induction lines generalizing reading sketch number with
  | nil =>
    rw [bodyLines, List.map_nil, numberedFrom, List.filter_nil, List.append_nil, ← opened]
    rfl
  | cons line rest ih =>
    rcases List.forall_mem_cons.mp inner with ⟨first, others⟩
    rw [continueFrom_cons (next_inner opened first), ih rfl others, bodyLines_cons line rest,
      List.append_assoc]

end Reading

/-! ## Where recipes stand -/

/-- A recipe that lines write, with the lines behind its body. -/
inductive Sketch.Stands (sketch : Sketch) : List (List Char) → List (List Char) → Prop
  | mk {front inner behind : List (List Char)} {header : List Char} {needs : List (List Char)}
      (headed : Line.read (Text.trimRight header) = .header sketch.quiet sketch.name needs)
      (inside : ∀ line ∈ inner, Inner line)
      (body : sketch.body = bodyLines (front.length + 2) inner) :
      sketch.Stands (front ++ header :: (inner ++ behind)) behind

/-- A recipe that lines write up to the end of its body. -/
def Sketch.Ended (sketch : Sketch) (lines : List (List Char)) : Prop :=
  ∃ line rest, ¬Inner line ∧ sketch.Stands lines (line :: rest)

/-- What is known after lines says where the recipes stand on them. -/
structure Reading.Placed (lines : List (List Char)) (reading : Reading) : Prop where
  complete : ∀ sketch ∈ reading.complete, sketch.Ended lines
  current : ∀ sketch ∈ reading.current, sketch.Stands lines []

namespace Sketch.Stands

theorem append
    (stands : sketch.Stands lines behind)
    (further : List (List Char)) :
    sketch.Stands (lines ++ further) (behind ++ further) := by
  cases stands with
  | @mk front inner _ header needs headed inside body =>
    rw [List.append_assoc, List.cons_append, List.append_assoc]
    exact .mk headed inside body

theorem kept
    {line : Numbered}
    (stands : sketch.Stands lines behind)
    (member : line ∈ sketch.body) :
    line.Kept := by
  cases stands with
  | mk headed inside body => exact kept_of_mem_bodyLines (body ▸ member)

/-- A body that is open takes up the next line. -/
theorem indent
    (stands : sketch.Stands lines [])
    (inside : Inner line) :
    Stands
      { sketch with body := sketch.body ++ bodyLines (lines.length + 1) [line] }
      (lines ++ [line]) [] := by
  cases stands with
  | @mk front stretch _ header needs headed within body =>
    have whole : front ++ header :: (stretch ++ []) ++ [line] =
        front ++ header :: ((stretch ++ [line]) ++ []) := by
      simp
    have count : (front ++ header :: (stretch ++ [])).length + 1 =
        front.length + 2 + stretch.length := by
      simp
      omega
    rw [whole]
    refine .mk headed ?_ ?_
    · exact List.forall_mem_append.mpr ⟨within, List.forall_mem_singleton.mpr inside⟩
    · rw [bodyLines_append, count, body]

end Sketch.Stands

theorem Sketch.Ended.append
    (ended : sketch.Ended lines)
    (further : List (List Char)) :
    sketch.Ended (lines ++ further) := by
  rcases ended with ⟨line, rest, stops, stands⟩
  exact ⟨line, rest ++ further, stops, stands.append further⟩

namespace Reading

theorem placed_start :
    start.Placed [] where
  complete := List.forall_mem_nil _
  current := by
    rintro sketch ⟨⟩

/-- A line that ends the open body stands behind it. -/
theorem Placed.close
    (placed : reading.Placed lines)
    (outer : ¬Inner line)
    (complete : later.complete = reading.sketches)
    (opened : ∀ sketch ∈ later.current, sketch.Stands (lines ++ [line]) []) :
    later.Placed (lines ++ [line]) := by
  refine ⟨?_, opened⟩
  rw [complete, sketches, List.forall_mem_append]
  constructor
  · exact fun sketch member => (placed.complete sketch member).append [line]
  · intro sketch member
    have stands := placed.current sketch (Option.mem_toList.mp member)
    exact ⟨line, [], outer, stands.append [line]⟩

/-- One more line keeps the invariant. -/
theorem Placed.next
    (placed : reading.Placed lines)
    (moved : reading.next ⟨lines.length + 1, Text.trimRight line⟩ = .ok later) :
    later.Placed (lines ++ [line]) := by
  have complete : ∀ sketch ∈ reading.complete, sketch.Ended (lines ++ [line]) :=
    fun sketch member => (placed.complete sketch member).append [line]
  by_cases inside : Inner line
  · cases opened : reading.current with
    | some sketch =>
      rw [next_inner opened inside] at moved
      cases moved
      refine ⟨complete, ?_⟩
      rintro _ ⟨⟩
      exact (placed.current sketch opened).indent inside
    | none =>
      rcases inside with blank | indented
      · rw [Reading.next, blank, skip, opened] at moved
        cases moved
        exact ⟨complete, by rintro _ ⟨⟩⟩
      · rw [Reading.next, indented, Reading.indent, opened] at moved
        cases moved
  · have moves := moves_of_next moved
    generalize read : Line.read (Text.trimRight line) = kind at moves
    cases moves with
    | blank => exact absurd (Or.inl read) inside
    | indented _ => exact absurd (Or.inr read) inside
    | comment => exact placed.close inside rfl (by rintro _ ⟨⟩)
    | nickname => exact placed.close inside rfl (by rintro _ ⟨⟩)
    | definition _ _ => exact placed.close inside rfl (by rintro _ ⟨⟩)
    | header _ =>
      refine placed.close inside rfl ?_
      rintro _ ⟨⟩
      exact @Sketch.Stands.mk _ lines [] [] line _ read (List.forall_mem_nil _) rfl

/-- Further lines keep the invariant. -/
theorem Placed.continueFrom
    (placed : reading.Placed lines)
    (known : reading.continueFrom (lines.length + 1) further = .ok later) :
    later.Placed (lines ++ further) := by
  induction further generalizing reading lines with
  | nil =>
    cases known
    rw [List.append_nil]
    exact placed
  | cons line rest ih =>
    rw [Reading.continueFrom] at known
    split at known
    · cases known
    · rename_i next moved
      have count : lines.length + 1 + 1 = (lines ++ [line]).length + 1 := by
        rw [List.length_append, List.length_singleton]
      rw [count] at known
      rw [List.append_cons]
      exact ih (placed.next moved) known

end Reading

/-! ## Faults of bodies -/

/-- Whether a problem is one of a command and not of a line on its own. -/
def isOfCommand : LineProblem → Bool
  | .danglingContinuation => true
  | .command _ => true
  | _ => false

theorem isOfCommand_of_decodeEscapes
    {escaped : List Char}
    (refused : decodeEscapes escaped = .error problem) :
    isOfCommand problem = false := by
  fun_induction decodeEscapes escaped with
  | case1 => cases refused
  | case2 =>
    cases refused
    rfl
  | case3 =>
    cases refused
    rfl
  | case4 letter rest meant found ih => exact ih (eq_error_of_map_eq_error refused)
  | case5 letter rest _ _ ih => exact ih (eq_error_of_map_eq_error refused)

theorem isOfCommand_of_decodeValue
    {written : List Char}
    (refused : decodeValue written = .error problem) :
    isOfCommand problem = false := by
  unfold decodeValue at refused
  split at refused
  · cases refused
  · split at refused
    · exact isOfCommand_of_decodeEscapes refused
    · cases refused
      rfl

namespace Reading

/-- A line that is refused as it is read is not refused for a command. -/
theorem isOfCommand_of_next
    {line : Numbered}
    (refused : reading.next line = .error problem) :
    isOfCommand problem = false := by
  unfold next at refused
  split at refused
  case h_1 => cases refused
  case h_2 =>
    unfold indent at refused
    split at refused
    · cases refused
      rfl
    · cases refused
  case h_3 => cases refused
  case h_4 => cases refused
  case h_5 =>
    unfold define at refused
    split at refused
    · cases refused
      rfl
    · split at refused
      · rename_i undecoded
        cases refused
        exact isOfCommand_of_decodeValue undecoded
      · cases refused
  case h_6 =>
    unfold openRecipe at refused
    split at refused
    · cases refused
      rfl
    · cases refused
  case h_7 =>
    cases refused
    rfl

theorem isOfCommand_of_continueFrom
    (refused : reading.continueFrom number lines = .error fault) :
    isOfCommand fault.problem = false := by
  induction lines generalizing reading number with
  | nil => cases refused
  | cons line rest ih =>
    rw [continueFrom] at refused
    split at refused
    · rename_i problem stopped
      cases refused
      exact isOfCommand_of_next stopped
    · exact ih refused

/-- A draft is refused for a command only if a body is. -/
theorem exists_of_draft
    {path : String}
    (ofCommand : isOfCommand fault.problem = true)
    (refused : reading.draft path = .error fault) :
    ∃ sketch ∈ reading.sketches, stepsOfBody sketch.quiet sketch.body = .error fault := by
  unfold Reading.draft at refused
  split at refused
  · cases refused
    cases ofCommand
  · split at refused
    · rename_i stopped
      cases refused
      exact exists_of_recipesOf stopped
    · cases refused

end Reading

theorem placed_of_read
    {text : String}
    (known : read text = .ok reading) :
    reading.Placed (Text.lines text.toList) :=
  Reading.placed_start.continueFrom known

/-- A justfile is refused for a line that is read or for what is known of all lines. -/
theorem fault_of_book
    {text path : String}
    (refused : Justfile.book text path = .error (fault.failure path)) :
    read text = .error fault ∨
      ∃ reading, read text = .ok reading ∧ reading.draft path = .error fault := by
  have injective : ∀ cause : Fault, cause.failure path = fault.failure path → cause = fault := by
    rintro ⟨number, problem⟩ same
    injection same with _ numbers problems
    exact congrArg₂ Fault.mk (Int.ofNat.inj numbers) problems
  unfold Justfile.book at refused
  split at refused
  · rename_i cause stopped
    exact .inl (injective cause (Except.error.inj refused) ▸ stopped)
  · rename_i reading known
    split at refused
    · rename_i cause stopped
      exact .inr ⟨reading, known, injective cause (Except.error.inj refused) ▸ stopped⟩
    · rename_i draft drafted
      have distinct : (draft.definitions.map Prod.fst).Nodup := by
        rw [(Reading.eq_of_draft drafted).1, List.map_map]
        exact (sound_of_read known).distinct
      rcases nameTaken_of_book distinct refused with ⟨name, holder, other⟩
      cases other

/-- A command is refused at its first line, and stands in the body of a recipe there. -/
theorem exists_faultIn_of_book
    {text path : String}
    (ofCommand : isOfCommand fault.problem = true)
    (refused : Justfile.book text path = .error (fault.failure path)) :
    ∃ (sketch : Sketch) (behind : List (List Char)),
      sketch.Stands (Text.lines text.toList) behind ∧
      (∀ line ∈ behind.head?, ¬Inner line) ∧ FaultIn sketch.quiet sketch.body fault := by
  rcases fault_of_book refused with stopped | ⟨reading, known, stopped⟩
  · rw [Reading.isOfCommand_of_continueFrom stopped] at ofCommand
    cases ofCommand
  · have placed := placed_of_read known
    rcases Reading.exists_of_draft ofCommand stopped with ⟨sketch, member, broken⟩
    rcases List.mem_append.mp member with ended | opened
    · rcases placed.complete sketch ended with ⟨line, rest, outer, stands⟩
      refine ⟨sketch, line :: rest, stands, ?_, ?_⟩
      · rintro _ ⟨⟩
        exact outer
      · exact faultIn_of_stepsOfBody (fun line member => stands.kept member) broken
    · have stands := placed.current sketch (Option.mem_toList.mp opened)
      refine ⟨sketch, [], stands, ?_, ?_⟩
      · rintro _ ⟨⟩
      · exact faultIn_of_stepsOfBody (fun line member => stands.kept member) broken

end Cookbook.Justfile
