import Cookbook.Proofs.Justfile.Kind
import Cookbook.Proofs.Justfile.Outcome
import Cookbook.Proofs.Justfile.Value
import Mathlib.Data.List.Forall2

/-!
# Variables of a justfile

The variables of a justfile are what its definition lines define, in order, and
each has the value that is read from what is written behind the sign.  So a
justfile makes a book only if all its definitions can be read as values, and
the values are complete literals unless one of them has its own quote inside.
-/

namespace Cookbook.Justfile

open Identifier (Stops)

variable
    {name : String}
    {line written gap rest : List Char}
    {lines : List (List Char)}
    {text path : String}
    {reading later : Reading}

/-! ## Definition lines -/

/-- A line that begins with a name and a definition sign, with what is written behind them. -/
structure Defines (line : List Char) (name : String) (written : List Char) : Prop where
  named : IsName name
  spelled :
    ∃ gap rest, Text.Blank gap ∧ line = name.toList ++ (gap ++ ':' :: '=' :: rest) ∧
      written = Text.trim rest

theorem stops_sign
    (blank : Text.Blank gap) :
    Stops (gap ++ ':' :: rest) := by
  cases gap with
  | nil => exact Identifier.stops_cons rfl
  | cons letter gap =>
    exact Identifier.stops_cons (Identifier.isPart_of_isBlank (blank letter List.mem_cons_self))

theorem trimLeft_sign
    (blank : Text.Blank gap) :
    Text.trimLeft (gap ++ ':' :: rest) = ':' :: rest := by
  rw [Text.trimLeft_append blank]
  exact Text.trimLeft_of_first ⟨':', rfl, rfl⟩

theorem exists_of_afterAliasWord?
    (found : afterAliasWord? line = some rest) :
    ∃ letter behind, line = aliasWord ++ letter :: behind ∧ Text.isBlank letter = true ∧
      rest = Text.trimLeft behind := by
  unfold afterAliasWord? at found
  split at found
  · rename_i letter behind
    split at found
    · rename_i blank
      cases found
      exact ⟨letter, behind, rfl, blank, rfl⟩
    · cases found
  · cases found

/-- Where the word of an alias line is defined itself, the sign stands in the alias's place. -/
theorem nickname?_sign
    (named : IsName name)
    (blank : Text.Blank gap) :
    nickname? (name.toList ++ (gap ++ ':' :: rest)) = none := by
  have unnamed : (afterAliasWord? (name.toList ++ (gap ++ ':' :: rest))).bind definition? =
      none := by
    cases found : afterAliasWord? (name.toList ++ (gap ++ ':' :: rest)) with
    | none => rfl
    | some aliased =>
      rcases exists_of_afterAliasWord? found with ⟨letter, behind, whole, white, rfl⟩
      -- the same identifier is taken off the line in both ways to see it
      have taken := take?_name named (@stops_sign gap rest blank)
      have again : Identifier.take? (aliasWord ++ letter :: behind) =
          some (aliasWord, letter :: behind) :=
        Identifier.take?_eq_some_iff.mpr
          ⟨rfl, rfl, Identifier.stops_cons (Identifier.isPart_of_isBlank white)⟩
      rw [whole, again] at taken
      have same : letter :: behind = gap ++ ':' :: rest := (Prod.mk.inj (Option.some.inj taken)).2
      have colon : Text.trimLeft behind = ':' :: rest := by
        rw [← trimLeft_sign blank, ← same]
        exact (List.dropWhile_cons_of_pos white).symm
      rw [colon]
      rfl
  simp only [nickname?, unnamed]

theorem assignment?_sign
    (named : IsName name)
    (blank : Text.Blank gap) :
    assignment? (name.toList ++ (gap ++ ':' :: '=' :: rest)) =
      if (Text.trimLeft rest).isEmpty then none else some (name, Text.trimLeft rest) := by
  have taken := take?_name named (@stops_sign gap ('=' :: rest) blank)
  have sign := @trimLeft_sign gap ('=' :: rest) blank
  simp only [assignment?, definition?, taken, sign, afterDefinitionSign?, String.ofList_toList]

theorem header?_sign
    (named : IsName name)
    (blank : Text.Blank gap) :
    header? (name.toList ++ (gap ++ ':' :: '=' :: rest)) = none := by
  have taken := take?_name named (@stops_sign gap ('=' :: rest) blank)
  have sign := @trimLeft_sign gap ('=' :: rest) blank
  have plain : plainHeader? (name.toList ++ (gap ++ ':' :: '=' :: rest)) = none := by
    simp only [plainHeader?, taken, sign, afterColon?]
  unfold header?
  split
  · rename_i unmarked whole
    rcases named.exists_cons with ⟨letter, others, spelled, unlike⟩
    rw [spelled] at whole
    exact absurd (List.cons.inj whole).1 (unlike '@' rfl)
  · rw [plain]
    rfl

/-- A line that begins with a name is a statement. -/
theorem read_name
    (named : IsName name) :
    Line.read (name.toList ++ rest) = .ofStatement (name.toList ++ rest) := by
  rcases named.exists_cons with ⟨letter, others, spelled, unlike⟩
  have space := unlike ' ' rfl
  have tab := unlike '\t' rfl
  have sharp := unlike '#' rfl
  rw [spelled, List.cons_append, Line.read]
  simp [space, tab, sharp]

/-- A definition line is read as one, unless it is not supported or nothing is defined. -/
theorem Defines.read
    (defines : Defines line name written) :
    Line.read (Text.trimRight line) = .definition name written ∨
      Line.read (Text.trimRight line) = .unsupported := by
  rcases defines with ⟨named, gap, rest, blank, rfl, rfl⟩
  have trimmed : Text.trimRight (name.toList ++ (gap ++ ':' :: '=' :: rest)) =
      name.toList ++ (gap ++ ':' :: '=' :: Text.trimRight rest) := by
    have colon : Text.isBlank ':' = false := rfl
    have equals : Text.isBlank '=' = false := rfl
    rw [← List.append_assoc, Text.trimRight_append_cons colon, Text.trimRight_cons equals,
      List.append_assoc]
  rw [trimmed, read_name named, Line.ofStatement, nickname?_sign named blank,
    assignment?_sign named blank, header?_sign named blank, Text.trimLeft_trimRight]
  split
  · exact Or.inr rfl
  · cases (Text.trim rest).isEmpty with
    | true => exact Or.inr rfl
    | false => exact Or.inl rfl

/-! ## What is known of variables -/

/-- The variable that a line defines, with what is written as its value. -/
def Line.defined? : Line → Option (String × List Char)
  | .definition name written => some (name, written)
  | _ => none

/-- The variables that are defined on lines, in order. -/
def definedIn (lines : List (List Char)) : List (String × List Char) :=
  lines.filterMap fun line => (Line.read (Text.trimRight line)).defined?

theorem definedIn_cons
    (line : List Char)
    (lines : List (List Char)) :
    definedIn (line :: lines) =
      (Line.read (Text.trimRight line)).defined?.toList ++ definedIn lines := by
  rw [definedIn, definedIn, List.filterMap_cons]
  cases (Line.read (Text.trimRight line)).defined? with
  | none => rfl
  | some definition => rfl

/-- A variable that has the value of a definition. -/
structure Valued (definition : String × List Char) (entry : String × String) : Prop where
  name : entry.1 = definition.1
  value : decodeValue definition.2 = .ok entry.2.toList

namespace Reading

theorem supported_of_next
    {line : Numbered}
    (moved : reading.next line = .ok later) :
    Line.read line.text ≠ .unsupported := by
  intro read
  rw [next, read] at moved
  cases moved

theorem definitions_skip
    (reading : Reading) :
    reading.skip.definitions = reading.definitions := by
  unfold skip
  split
  · rfl
  · rfl

/-- One more line defines one variable or none. -/
theorem definitions_next
    {line : Numbered}
    (moved : reading.next line = .ok later) :
    ∃ entries, later.definitions = reading.definitions ++ entries ∧
      List.Forall₂ Valued (Line.read line.text).defined?.toList entries := by
  have moves := moves_of_next moved
  generalize Line.read line.text = kind at moves ⊢
  cases moves with
  | blank => exact ⟨[], by rw [List.append_nil, definitions_skip], .nil⟩
  | indented _ => exact ⟨[], (List.append_nil _).symm, .nil⟩
  | comment => exact ⟨[], (List.append_nil _).symm, .nil⟩
  | nickname => exact ⟨[], (List.append_nil _).symm, .nil⟩
  | @definition name _ content _ decoded =>
    refine ⟨[(name, String.ofList content)], rfl, .cons ⟨rfl, ?_⟩ .nil⟩
    rw [String.toList_ofList]
    exact decoded
  | header _ => exact ⟨[], (List.append_nil _).symm, .nil⟩

/-- Each definition defines a variable of its value, and nothing else does. -/
theorem definitions_continueFrom
    {number : Nat}
    (known : reading.continueFrom number lines = .ok later) :
    ∃ entries, later.definitions = reading.definitions ++ entries ∧
      List.Forall₂ Valued (definedIn lines) entries := by
  induction lines generalizing reading number with
  | nil =>
    cases known
    exact ⟨[], (List.append_nil _).symm, .nil⟩
  | cons line rest ih =>
    rw [continueFrom] at known
    split at known
    · cases known
    · rename_i next moved
      rcases definitions_next moved with ⟨first, added, valued⟩
      rcases ih known with ⟨others, further, all⟩
      refine ⟨first ++ others, ?_, ?_⟩
      · rw [further, added, List.append_assoc]
      · rw [definedIn_cons]
        exact List.rel_append valued all

/-- Lines that are read are supported. -/
theorem supported_of_continueFrom
    {number : Nat}
    (known : reading.continueFrom number lines = .ok later) :
    ∀ line ∈ lines, Line.read (Text.trimRight line) ≠ .unsupported := by
  induction lines generalizing reading number with
  | nil => exact List.forall_mem_nil _
  | cons line rest ih =>
    rw [continueFrom] at known
    split at known
    · cases known
    · rename_i next moved
      exact List.forall_mem_cons.mpr ⟨supported_of_next moved, ih known⟩

end Reading

theorem exists_of_mem_of_forall₂
    {definitions : List (String × List Char)}
    {entries : List (String × String)}
    (valued : List.Forall₂ Valued definitions entries)
    (member : (name, written) ∈ definitions) :
    ∃ content, decodeValue written = .ok content ∧ (name, String.ofList content) ∈ entries := by
  induction valued with
  | nil => cases member
  | @cons definition entry _ _ first _ ih =>
    rcases List.mem_cons.mp member with rfl | later
    · refine ⟨entry.2.toList, first.value, ?_⟩
      have same : entry = (name, String.ofList entry.2.toList) :=
        Prod.ext first.name String.ofList_toList.symm
      exact same ▸ List.mem_cons_self
    · rcases ih later with ⟨content, decoded, present⟩
      exact ⟨content, decoded, List.mem_cons_of_mem entry present⟩

/-- A definition on a line that is read has a value, and its variable has this value. -/
theorem Defines.exists_value
    (known : Justfile.read text = .ok reading)
    (member : line ∈ Text.lines text.toList)
    (defines : Defines line name written) :
    ∃ content, Literal True written content ∧
      (name, String.ofList content) ∈ reading.definitions := by
  rcases defines.read with read | unsupported
  · rcases Reading.definitions_continueFrom known with ⟨entries, added, valued⟩
    have defined : (name, written) ∈ definedIn (Text.lines text.toList) := by
      refine List.mem_filterMap.mpr ⟨line, member, ?_⟩
      rw [read]
      rfl
    rcases exists_of_mem_of_forall₂ valued defined with ⟨content, decoded, present⟩
    refine ⟨content, decodeValue_eq_ok_iff.mp decoded, ?_⟩
    rw [added]
    exact List.mem_append_right _ present
  · exact absurd unsupported (Reading.supported_of_continueFrom known line member)

/-! ## Values of books -/

/--
The values of a justfile are literals of some kind: in a book each variable has
the content of its literal, and a text with any other definition is refused as
a justfile.
-/
structure ValuesAre (literal : List Char → List Char → Prop) (text path : String) : Prop where
  kept :
    ∀ book, Justfile.book text path = .ok book →
      ∀ line ∈ Text.lines text.toList, ∀ name written, Defines line name written →
        ∃ content, literal written content ∧
          book.bindings.value? name = some (String.ofList content)
  refused :
    ∀ line ∈ Text.lines text.toList, ∀ name written, Defines line name written →
      (¬∃ content, literal written content) →
        ∃ number problem, Justfile.book text path = .error (.badJustfile path number problem)

theorem valuesAre_literals
    (text path : String) :
    ValuesAre (Literal True) text path := by
  constructor
  case kept =>
    intro book made line member name written defines
    rcases exists_draft_of_book made with ⟨reading, draft, known, drafted, described⟩
    rcases defines.exists_value known member with ⟨content, literal, present⟩
    refine ⟨content, literal, Bindings.value?_of_mem ?_⟩
    rw [entries_of_draft drafted described]
    exact present
  case refused =>
    intro line member name written defines other
    unfold Justfile.book
    split
    · rename_i fault _
      exact ⟨fault.number, fault.problem, rfl⟩
    · rename_i reading known
      rcases defines.exists_value known member with ⟨content, literal, _⟩
      exact absurd ⟨content, literal⟩ other

/--
The values of a justfile are complete literals exactly if none of them is
interrupted by its own quote, or else the justfile is refused.  Nothing but the
quotes inside is ever missed: each value is read from a text between quotes of
one kind, with every escape decoded.
-/
theorem values_complete_iff
    (text path : String) :
    ValuesAre (Literal True) text path ∧
      (ValuesAre (Literal False) text path ↔
        (∀ line ∈ Text.lines text.toList, ∀ name written, Defines line name written →
            ¬Interrupted written) ∨
          ∃ number problem,
            Justfile.book text path = .error (.badJustfile path number problem)) := by
  have values := valuesAre_literals text path
  refine ⟨values, ?_, ?_⟩
  · intro complete
    by_cases refused : ∃ number problem,
        Justfile.book text path = .error (.badJustfile path number problem)
    · exact Or.inr refused
    · refine Or.inl fun line member name written defines interrupted => refused ?_
      refine complete.refused line member name written defines ?_
      rintro ⟨content, literal⟩
      exact literal.not_interrupted interrupted
  · rintro (uninterrupted | ⟨number, problem, refused⟩)
    · have whole : ∀ line ∈ Text.lines text.toList, ∀ name written content,
          Defines line name written → Literal True written content →
            Literal False written content := by
        intro line member name written content defines literal
        refine literal.complete_or_interrupted.resolve_right ?_
        exact uninterrupted line member name written defines
      constructor
      case kept =>
        intro book made line member name written defines
        rcases values.kept book made line member name written defines with
          ⟨content, literal, value⟩
        exact ⟨content, whole line member name written content defines literal, value⟩
      case refused =>
        intro line member name written defines other
        refine values.refused line member name written defines ?_
        rintro ⟨content, literal⟩
        exact other ⟨content, whole line member name written content defines literal⟩
    · constructor
      case kept =>
        intro book made
        rw [refused] at made
        cases made
      case refused => exact fun _ _ _ _ _ _ => ⟨number, problem, refused⟩

/-- Two literals with a sign between them are read as one value. -/
theorem interrupted_value_kept :
    (∃ book, Justfile.book "x := 'a' + 'b'\n" "justfile" = .ok book ∧
      book.bindings.entries = [("x", "a' + 'b")]) ∧
    ¬ValuesAre (Literal False) "x := 'a' + 'b'\n" "justfile" := by
  have made : ∃ book, Justfile.book "x := 'a' + 'b'\n" "justfile" = .ok book ∧
      book.bindings.entries = [("x", "a' + 'b")] :=
    ⟨_, rfl, rfl⟩
  refine ⟨made, ?_⟩
  intro complete
  rcases made with ⟨book, described, _⟩
  have defines : Defines "x := 'a' + 'b'".toList "x" "'a' + 'b'".toList :=
    ⟨rfl, [' '], " 'a' + 'b'".toList, by decide, by decide, by decide⟩
  rcases complete.kept book described _ List.mem_cons_self _ _ defines with ⟨content, literal, _⟩
  exact literal.not_interrupted (@Interrupted.single ['a'] " + 'b".toList)

end Cookbook.Justfile
