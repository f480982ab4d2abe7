import Cookbook.Proofs.Identifier
import Cookbook.Proofs.Justfile.Item

/-!
# The kinds of written lines

Every line that an item is written as is read as a line of its kind, with what
was written on it.  The first field of a line tells an alias from a variable
that is called `alias`, and what stands behind the colon tells a recipe from a
variable.
-/

namespace Cookbook.Justfile

open Identifier (Stops)

variable
    {name target value : String}
    {needs : List String}
    {word line rest : List Char}

/-! ## Names -/

theorem IsName.solid
    (named : IsName name) :
    Text.Solid name.toList :=
  fun _ inside => Identifier.isBlank_of_isPart (Identifier.isPart_of_mem named inside)

theorem IsName.ne_nil
    (named : IsName name) :
    name.toList ≠ [] :=
  Identifier.ne_nil_of_isIdentifier named

/-- A name begins with a letter that is no sign. -/
theorem IsName.exists_cons
    (named : IsName name) :
    ∃ letter others, name.toList = letter :: others ∧
      ∀ sign, Identifier.isPart sign = false → letter ≠ sign := by
  rcases List.exists_cons_of_ne_nil named.ne_nil with ⟨letter, others, whole⟩
  refine ⟨letter, others, whole, ?_⟩
  rintro sign special rfl
  have part := Identifier.isPart_of_mem named (whole ▸ List.mem_cons_self)
  rw [special] at part
  cases part

theorem IsName.last
    (named : IsName name) :
    ∃ letter ∈ name.toList.getLast?, Text.isBlank letter = false :=
  (Text.firm_of_solid named.solid named.ne_nil).last

theorem take?_name
    (named : IsName name)
    (stops : Stops rest) :
    Identifier.take? (name.toList ++ rest) = some (name.toList, rest) :=
  Identifier.take?_eq_some_iff.mpr ⟨named, rfl, stops⟩

theorem solid_head?_name
    (named : IsName name) :
    ∃ letter ∈ (name.toList ++ rest).head?, Text.isBlank letter = false := by
  rcases named.exists_cons with ⟨letter, others, whole, _⟩
  refine ⟨letter, ?_, named.solid letter (whole ▸ List.mem_cons_self)⟩
  rw [whole]
  rfl

/-! ## Definitions and aliases -/

theorem definition?_written
    (named : IsName name)
    (solid : ∃ letter ∈ word.head?, Text.isBlank letter = false) :
    definition? (name.toList ++ (definitionSign ++ word)) = some (name.toList, word) := by
  have stops : Stops (definitionSign ++ word) := Identifier.stops_cons rfl
  have blank : Text.Blank [' '] := List.forall_mem_singleton.mpr rfl
  have sign : afterDefinitionSign? (Text.trimLeft (definitionSign ++ word)) = some (' ' :: word) :=
    rfl
  have value : Text.trimLeft (' ' :: word) = word := by
    show Text.trimLeft ([' '] ++ word) = word
    rw [Text.trimLeft_append blank, Text.trimLeft_of_first solid]
  simp only [definition?, take?_name named stops, sign, value]

/-- A line whose first field is another word is no alias line. -/
theorem afterAliasWord?_of_field
    (solid : Text.Solid word)
    (present : word ≠ [])
    (ends : ∀ letter ∈ rest.head?, Text.isBlank letter = true)
    (other : word ≠ aliasWord) :
    afterAliasWord? (word ++ rest) = none := by
  have fields := Text.fields_append solid present ends
  unfold afterAliasWord?
  split
  · rename_i letter later whole
    split
    · rename_i blank
      have ends : ∀ first ∈ (letter :: later).head?, Text.isBlank first = true := by
        rintro first ⟨⟩
        exact blank
      have again : Text.fields (aliasWord ++ letter :: later) =
          aliasWord :: Text.fields (letter :: later) :=
        Text.fields_append (by decide) (by decide) ends
      rw [whole] at fields
      exact absurd (List.cons.inj (fields.symm.trans again)).1 other
    · rfl
  · rfl

theorem nickname?_definition
    (named : IsName name) :
    nickname? (name.toList ++ (definitionSign ++ word)) = none := by
  have unnamed : (afterAliasWord? (name.toList ++ (definitionSign ++ word))).bind definition? =
      none := by
    by_cases same : name.toList = aliasWord
    · -- what stands behind the name is no name
      rw [same]
      rfl
    · have ends : ∀ letter ∈ (definitionSign ++ word).head?, Text.isBlank letter = true := by
        rintro letter ⟨⟩
        rfl
      rw [afterAliasWord?_of_field named.solid named.ne_nil ends same]
      rfl
  simp only [nickname?, unnamed]

theorem nickname?_written
    (named : IsName name)
    (targeted : IsName target) :
    nickname? (aliasWord ++ ' ' :: (name.toList ++ (definitionSign ++ target.toList))) =
      some (name, target) := by
  have behind :
      afterAliasWord? (aliasWord ++ ' ' :: (name.toList ++ (definitionSign ++ target.toList))) =
        some (name.toList ++ (definitionSign ++ target.toList)) := by
    show some (Text.trimLeft _) = _
    rw [Text.trimLeft_of_first (solid_head?_name named)]
  have first : ∃ letter ∈ target.toList.head?, Text.isBlank letter = false := by
    have whole := @solid_head?_name target [] targeted
    rwa [List.append_nil] at whole
  have taken := take?_name targeted Stops.nil
  rw [List.append_nil] at taken
  simp only [nickname?, behind, Option.bind_some, definition?_written named first, taken]
  simp

/-! ## Headers -/

theorem eq_of_mem_head?_spaced
    {letter : Char}
    (ahead : letter ∈ (spaced needs).head?) :
    letter = ' ' := by
  cases needs with
  | nil => cases ahead
  | cons need others =>
    cases ahead
    rfl

theorem head?_spaced_ne :
    (spaced needs).head? ≠ some '=' := by
  intro sign
  cases eq_of_mem_head?_spaced sign

theorem fields_spaced
    (needed : ∀ need ∈ needs, IsName need) :
    Text.fields (spaced needs) = needs.map String.toList := by
  have each : ∀ field ∈ needs.map String.toList,
      field ≠ [] ∧ Text.Solid field := by
    intro field member
    rcases List.mem_map.mp member with ⟨need, present, rfl⟩
    exact ⟨(needed need present).ne_nil, (needed need present).solid⟩
  have whole : spaced needs = (needs.map String.toList).flatMap (' ' :: ·) := by
    rw [List.flatMap_map, spaced]
  rw [whole, Text.fields_flatMap each]

theorem definition?_header
    {quiet : Bool}
    (named : IsName name)
    (other : rest.head? ≠ some '=') :
    definition? (mark quiet ++ (name.toList ++ ':' :: rest)) = none := by
  cases quiet with
  | true => rfl
  | false =>
    have stops : Stops (':' :: rest) := Identifier.stops_cons rfl
    have colon : Text.trimLeft (':' :: rest) = ':' :: rest := rfl
    have sign : afterDefinitionSign? (':' :: rest) = none := by
      unfold afterDefinitionSign?
      split
      · rename_i same
        cases same
        exact absurd rfl other
      · rfl
    show definition? (name.toList ++ ':' :: rest) = none
    simp only [definition?, take?_name named stops, colon, sign]

theorem plainHeader?_written
    (named : IsName name)
    (other : rest.head? ≠ some '=') :
    plainHeader? (name.toList ++ ':' :: rest) = some (name, Text.fields rest) := by
  have stops : Stops (':' :: rest) := Identifier.stops_cons rfl
  have colon : Text.trimLeft (':' :: rest) = ':' :: rest := rfl
  have after : afterColon? (':' :: rest) = some rest := by
    unfold afterColon?
    split
    · rename_i same
      cases same
      exact absurd rfl other
    · rename_i same
      cases same
      rfl
    · rename_i unlike
      exact absurd rfl (unlike rest)
  simp only [plainHeader?, take?_name named stops, colon, after, String.ofList_toList]

theorem assignment?_header
    {quiet : Bool}
    (named : IsName name)
    (other : rest.head? ≠ some '=') :
    assignment? (mark quiet ++ (name.toList ++ ':' :: rest)) = none := by
  simp only [assignment?, definition?_header named other]

theorem header?_written
    {quiet : Bool}
    (named : IsName name)
    (other : rest.head? ≠ some '=') :
    header? (mark quiet ++ (name.toList ++ ':' :: rest)) =
      some (quiet, name, Text.fields rest) := by
  have plain := plainHeader?_written named other
  cases quiet with
  | true =>
    show (plainHeader? (name.toList ++ ':' :: rest)).map ((true, ·)) = _
    rw [plain]
    rfl
  | false =>
    show header? (name.toList ++ ':' :: rest) = _
    unfold header?
    split
    · rename_i unmarked whole
      rcases named.exists_cons with ⟨letter, others, spelled, unlike⟩
      rw [spelled] at whole
      exact absurd (List.cons.inj whole).1 (unlike '@' rfl)
    · rw [plain]
      rfl

/-! ## Kinds -/

/-- The first field of a line that is of a supported kind. -/
structure Heads (word : List Char) : Prop where
  solid : Text.Solid word
  first : ∃ letter ∈ word.head?, letter ≠ '#' ∧ letter ≠ '['
  free : isReserved word = false

theorem Heads.ne_nil
    (heads : Heads word) :
    word ≠ [] := by
  rintro rfl
  rcases heads.first with ⟨letter, absent, _⟩
  cases absent

/-- The kind of a line that goes on behind its first field. -/
theorem Heads.read_append
    (heads : Heads word)
    (ends : ∀ letter ∈ rest.head?, Text.isBlank letter = true) :
    Line.read (word ++ rest) =
      match nickname? (word ++ rest) with
      | some (name, target) => .nickname name target
      | none =>
        match assignment? (word ++ rest) with
        | some (name, value) => .definition name value
        | none =>
          match header? (word ++ rest) with
          | some (quiet, name, needs) => .header quiet name needs
          | none => .unsupported := by
  have fields := Text.fields_append heads.solid heads.ne_nil ends
  rcases heads.first with ⟨letter, ahead, noComment, noBracket⟩
  rcases List.head?_eq_some_iff.mp ahead with ⟨others, rfl⟩
  have solid := heads.solid letter List.mem_cons_self
  have supported :
      ((Text.fields (letter :: others ++ rest)).head?.any isReserved ||
        (letter :: others ++ rest).head? == some '[') = false := by
    rw [fields]
    simp [heads.free, noBracket]
  have kept : (letter == ' ' || letter == '\t') = false := by
    have space : letter ≠ ' ' := by
      rintro rfl
      cases solid
    have tab : letter ≠ '\t' := by
      rintro rfl
      cases solid
    simp [space, tab]
  rw [List.cons_append] at supported ⊢
  simp only [Line.read, kept, Line.ofStatement, supported, beq_eq_false_iff_ne.mpr noComment]
  rfl

theorem IsName.heads
    (named : IsName name)
    (free : name ∉ ["set", "export", "import", "mod"]) :
    Heads name.toList where
  solid := named.solid
  first := by
    rcases named.exists_cons with ⟨letter, others, whole, unlike⟩
    exact ⟨letter, whole ▸ rfl, unlike '#' rfl, unlike '[' rfl⟩
  free := by
    rw [isReserved, String.ofList_toList]
    simpa using free

theorem heads_aliasWord :
    Heads aliasWord where
  solid := by decide
  first := ⟨'a', rfl, by decide, by decide⟩
  free := by decide

theorem not_mem_of_isReserved
    (reserved : isReserved word = true) :
    ':' ∉ word := by
  have member : String.ofList word ∈ ["set", "export", "import", "mod"] := by
    simpa [isReserved] using reserved
  have each : ∀ text ∈ ["set", "export", "import", "mod"], ':' ∉ text.toList := by decide
  have outside := each _ member
  rwa [String.toList_ofList] at outside

/-- The first field of a header ends with its colon. -/
theorem heads_header
    {quiet : Bool}
    (named : IsName name) :
    Heads (mark quiet ++ (name.toList ++ [':'])) where
  solid := by
    have marked : Text.Solid (mark quiet) := by
      cases quiet <;> decide
    have colon : Text.Solid [':'] := by decide
    exact List.forall_mem_append.mpr ⟨marked, List.forall_mem_append.mpr ⟨named.solid, colon⟩⟩
  first := by
    cases quiet with
    | true => exact ⟨'@', rfl, by decide, by decide⟩
    | false =>
      rcases named.exists_cons with ⟨letter, others, whole, unlike⟩
      refine ⟨letter, ?_, unlike '#' rfl, unlike '[' rfl⟩
      rw [whole]
      rfl
  free := by
    cases reserved : isReserved (mark quiet ++ (name.toList ++ [':'])) with
    | false => rfl
    | true => exact absurd (by simp) (not_mem_of_isReserved reserved)

/-! ## Reading written lines -/

theorem read_definition
    (named : IsName name)
    (free : name ∉ ["set", "export", "import", "mod"])
    (solid : ∃ letter ∈ word.head?, Text.isBlank letter = false) :
    Line.read (name.toList ++ (definitionSign ++ word)) = .definition name word := by
  have ends : ∀ letter ∈ (definitionSign ++ word).head?, Text.isBlank letter = true := by
    rintro letter ⟨⟩
    rfl
  have present : word.isEmpty = false := by
    rcases solid with ⟨letter, ahead, _⟩
    cases word with
    | nil => cases ahead
    | cons => rfl
  have assigned : assignment? (name.toList ++ (definitionSign ++ word)) = some (name, word) := by
    simp [assignment?, definition?_written named solid, present]
  rw [(named.heads free).read_append ends, nickname?_definition named, assigned]

theorem read_nickname
    (named : IsName name)
    (targeted : IsName target) :
    Line.read (aliasWord ++ ' ' :: (name.toList ++ (definitionSign ++ target.toList))) =
      .nickname name target := by
  have ends : ∀ letter ∈ (' ' :: (name.toList ++ (definitionSign ++ target.toList))).head?,
      Text.isBlank letter = true := by
    rintro letter ⟨⟩
    rfl
  rw [heads_aliasWord.read_append ends, nickname?_written named targeted]

/-- A header does not begin with the word of an alias line. -/
theorem nickname?_header
    {quiet : Bool}
    (named : IsName name)
    (ends : ∀ letter ∈ rest.head?, Text.isBlank letter = true) :
    nickname? (mark quiet ++ (name.toList ++ [':']) ++ rest) = none := by
  have heads := @heads_header name quiet named
  have unlike : mark quiet ++ (name.toList ++ [':']) ≠ aliasWord := by
    intro same
    have colon : ':' ∈ mark quiet ++ (name.toList ++ [':']) := by simp
    rw [same] at colon
    revert colon
    decide
  have unaliased := afterAliasWord?_of_field heads.solid heads.ne_nil ends unlike
  simp only [nickname?, unaliased, Option.bind_none]

theorem read_header
    {quiet : Bool}
    (named : IsName name)
    (needed : ∀ need ∈ needs, IsName need) :
    Line.read (mark quiet ++ (name.toList ++ ':' :: spaced needs)) =
      .header quiet name (needs.map String.toList) := by
  have ends : ∀ letter ∈ (spaced needs).head?, Text.isBlank letter = true := by
    intro letter ahead
    rw [eq_of_mem_head?_spaced ahead]
    rfl
  have whole : mark quiet ++ (name.toList ++ [':']) ++ spaced needs =
      mark quiet ++ (name.toList ++ ':' :: spaced needs) := by
    simp
  have read := (@heads_header name quiet named).read_append ends
  rw [nickname?_header named ends, whole, assignment?_header named head?_spaced_ne,
    header?_written named head?_spaced_ne, fields_spaced needed] at read
  exact read

theorem ofStatement_ne_blank
    (line : List Char) :
    Line.ofStatement line ≠ .blank := by
  unfold Line.ofStatement
  repeat' split
  all_goals exact Line.noConfusion

/-- Only an empty line is blank. -/
theorem eq_nil_of_read
    (blank : Line.read line = .blank) :
    line = [] := by
  cases line with
  | nil => rfl
  | cons letter rest =>
    rw [Line.read] at blank
    split at blank
    · cases blank
    · split at blank
      · cases blank
      · exact absurd blank (ofStatement_ne_blank _)

theorem read_comment
    (text : List Char) :
    Line.read ('#' :: text) = .comment (docOfComment text) :=
  rfl

theorem read_indented
    {margin : List Char}
    (present : margin ≠ [])
    (white : ∀ letter ∈ margin, letter = ' ' ∨ letter = '\t') :
    Line.read (margin ++ rest) = .indented := by
  rcases List.exists_cons_of_ne_nil present with ⟨letter, others, rfl⟩
  rcases white letter List.mem_cons_self with rfl | rfl
  · rfl
  · rfl

end Cookbook.Justfile
