import Cookbook.Proofs.Justfile.Body
import Cookbook.Proofs.Justfile.Kind
import Cookbook.Proofs.Justfile.Literal

/-!
# Reading items

Reading the lines of an item adds what the item means to what is known, and
nothing else: a comment documents only the recipe right behind it, and a body
takes up its own lines only.  So the items of a justfile are read one after the
other, whatever kinds stand next to each other.
-/

namespace Cookbook.Justfile

open Text (Unbroken)

variable
    {number : Nat}
    {item : Item}
    {items : List Item}
    {command : Command}
    {line : List Char}
    {reading later : Reading}

/-! ## Written lines -/

theorem IsName.unbroken
    {name : String}
    (named : IsName name) :
    Unbroken name.toList :=
  Text.unbroken_of_solid named.solid

theorem unbroken_mark
    (quiet : Bool) :
    Unbroken (mark quiet) := by
  cases quiet <;> decide

theorem unbroken_spaced
    {needs : List String}
    (needed : ∀ need ∈ needs, IsName need) :
    Unbroken (spaced needs) := by
  intro letter inside
  rcases List.mem_flatMap.mp inside with ⟨need, member, part⟩
  rcases List.mem_cons.mp part with rfl | named
  · rfl
  · exact (needed need member).unbroken letter named

theorem unbroken_escapedCharacter
    {letter : Char}
    (kept : Text.isLineBreak letter = true → letter = '\n' ∨ letter = '\r') :
    Unbroken (escapedCharacter letter) := by
  unfold escapedCharacter
  split
  · decide
  · decide
  · decide
  · decide
  · decide
  · rename_i noFeed _ noReturn _ _
    refine List.forall_mem_singleton.mpr (Bool.eq_false_iff.mpr fun breaks => ?_)
    rcases kept breaks with feed | back
    · exact noFeed feed
    · exact noReturn back

theorem unbroken_quotedValue
    {value : String}
    (breaks : ∀ letter ∈ value.toList, Text.isLineBreak letter = true →
      letter = '\n' ∨ letter = '\r') :
    Unbroken (quotedValue value) := by
  have quote : Unbroken ['"'] := by decide
  have inner : Unbroken (value.toList.flatMap escapedCharacter) := by
    intro letter inside
    rcases List.mem_flatMap.mp inside with ⟨source, member, part⟩
    exact unbroken_escapedCharacter (breaks source member) letter part
  exact quote.append (inner.append quote)

theorem Command.Sound.unbroken_written
    (sound : command.Sound) :
    Unbroken command.written := by
  have margin : Unbroken command.indentation.toList := by
    intro letter inside
    rcases sound.margin letter inside with rfl | rfl
    · rfl
    · rfl
  exact margin.append ((unbroken_mark command.quiet).append sound.unbroken)

/-- An item is written as lines. -/
theorem Item.Sound.unbroken
    (sound : item.Sound) :
    ∀ line ∈ item.written, Unbroken line := by
  have sign : Unbroken definitionSign := by decide
  cases sound with
  | blank =>
    intro line member
    rw [List.mem_singleton.mp member]
    exact List.forall_mem_nil _
  | comment unbroken =>
    have front : Unbroken ['#', ' '] := by decide
    intro line member
    rw [List.mem_singleton.mp member]
    exact front.append unbroken
  | definition named _ breaks =>
    intro line member
    rw [List.mem_singleton.mp member]
    exact named.unbroken.append (sign.append (unbroken_quotedValue breaks))
  | nickname named targeted =>
    have front : Unbroken (aliasWord ++ [' ']) := by decide
    intro line member
    rw [List.mem_singleton.mp member, List.append_cons]
    exact front.append (named.unbroken.append (sign.append targeted.unbroken))
  | @recipe quiet name needs body named needed commands =>
    have colon : Unbroken [':'] := by decide
    intro line member
    rcases List.mem_cons.mp member with rfl | inBody
    · exact (unbroken_mark quiet).append
        (named.unbroken.append (colon.append (unbroken_spaced needed)))
    · rcases List.mem_map.mp inBody with ⟨command, present, rfl⟩
      exact (commands command present).unbroken_written

/-! ## One line after the other -/

theorem continueFrom_cons
    {rest : List (List Char)}
    (moved : reading.next ⟨number, Text.trimRight line⟩ = .ok later) :
    reading.continueFrom number (line :: rest) = later.continueFrom (number + 1) rest := by
  simp only [Reading.continueFrom, moved]

theorem continueFrom_append
    {front back : List (List Char)}
    (moved : reading.continueFrom number front = .ok later) :
    reading.continueFrom number (front ++ back) =
      later.continueFrom (number + front.length) back := by
  induction front generalizing reading number with
  | nil =>
    cases moved
    rfl
  | cons line front ih =>
    simp only [Reading.continueFrom] at moved
    split at moved
    · cases moved
    · rename_i next first
      rw [List.cons_append, continueFrom_cons first, ih moved, List.length_cons, Nat.add_assoc,
        Nat.add_comm 1]

/-- What is known after some lines and further ones is known after the first ones before. -/
theorem exists_of_continueFrom_append
    {front back : List (List Char)}
    (known : reading.continueFrom number (front ++ back) = .ok later) :
    ∃ middle, reading.continueFrom number front = .ok middle ∧
      middle.continueFrom (number + front.length) back = .ok later := by
  induction front generalizing reading number with
  | nil => exact ⟨reading, rfl, known⟩
  | cons line rest ih =>
    rw [List.cons_append, Reading.continueFrom] at known
    rw [Reading.continueFrom]
    split at known
    · cases known
    · rename_i next moved
      rcases ih known with ⟨middle, first, behind⟩
      refine ⟨middle, first, ?_⟩
      rw [List.length_cons, Nat.add_comm rest.length, ← Nat.add_assoc]
      exact behind

/-- The lines of a body are added to the recipe that is open. -/
theorem continueFrom_body
    {body : List Command}
    {sketch : Sketch}
    (sound : ∀ command ∈ body, command.Sound)
    (opened : reading.current = some sketch)
    (number : Nat) :
    reading.continueFrom number (body.map Command.written) =
      .ok { reading with
        current := some { sketch with
          body := sketch.body ++ numberedFrom number (body.map Command.written) } } := by
  induction body generalizing reading sketch number with
  | nil =>
    rw [List.map_nil, numberedFrom, List.append_nil, ← opened]
    rfl
  | cons command rest ih =>
    rcases List.forall_mem_cons.mp sound with ⟨first, others⟩
    rcases first.written_last with ⟨letter, ends, _, solid⟩
    have kept : Text.trimRight command.written = command.written :=
      Text.trimRight_of_last ⟨letter, ends, solid⟩
    have read : Line.read command.written = .indented :=
      read_indented (mt String.toList_eq_nil_iff.mp first.indented) first.margin
    have moved : reading.next ⟨number, Text.trimRight command.written⟩ =
        .ok { reading with
          current := some { sketch with
            body := sketch.body ++ [⟨number, command.written⟩] } } := by
      simp only [Reading.next, kept, read, Reading.indent, opened]
    rw [List.map_cons, continueFrom_cons moved, ih others rfl]
    simp only [numberedFrom, List.append_assoc, List.singleton_append]

/-! ## One item after the other -/

/-- The alias that an item adds, when its first line has a number. -/
def Item.aliasLines (number : Nat) : Item → List AliasLine
  | .nickname name target => [⟨number, name, target⟩]
  | _ => []

/-- The recipe that an item adds behind some documentation. -/
def Item.sketches (number : Nat) (doc : Option String) : Item → List Sketch
  | .recipe quiet name needs body =>
    [⟨name, needs, quiet, doc, numberedFrom (number + 1) (body.map Command.written)⟩]
  | _ => []

def aliasLinesFrom (number : Nat) : List Item → List AliasLine
  | [] => []
  | item :: rest =>
    item.aliasLines number ++ aliasLinesFrom (number + item.written.length) rest

def sketchesFrom (number : Nat) (doc : Option String) : List Item → List Sketch
  | [] => []
  | item :: rest =>
    item.sketches number doc ++ sketchesFrom (number + item.written.length) item.doc rest

/-- While a body is open, no comment is pending. -/
def Reading.Settled (reading : Reading) : Prop :=
  reading.current ≠ none → reading.doc = none

/-- What is known after an item is what was known before and what the item adds. -/
structure Adds (item : Item) (number : Nat) (reading later : Reading) : Prop where
  definitions : later.definitions = reading.definitions ++ item.definition?.toList
  aliases : later.aliases = reading.aliases ++ item.aliasLines number
  sketches : later.sketches = reading.sketches ++ item.sketches number reading.doc
  doc : later.doc = item.doc
  settled : later.Settled

theorem Reading.settled_of_closed
    (closed : reading.current = none) :
    reading.Settled :=
  fun opened => absurd closed opened

theorem adds_blank
    (settled : reading.Settled) :
    ∃ later, reading.continueFrom number Item.blank.written = .ok later ∧
      Adds .blank number reading later := by
  refine ⟨reading.skip, rfl, ?_⟩
  unfold Reading.skip
  split
  · rename_i closed
    constructor
    case definitions => exact (List.append_nil _).symm
    case aliases => exact (List.append_nil _).symm
    case sketches => exact (List.append_nil _).symm
    case doc => rfl
    case settled => exact Reading.settled_of_closed closed
  · rename_i sketch opened
    constructor
    case definitions => exact (List.append_nil _).symm
    case aliases => exact (List.append_nil _).symm
    case sketches => exact (List.append_nil _).symm
    case doc => exact settled (by rw [opened]; exact Option.some_ne_none sketch)
    case settled => exact settled

theorem docOfComment_trimRight
    (text : List Char) :
    docOfComment (Text.trimRight (' ' :: text)) = docOfComment text := by
  have blank : Text.Blank [' '] := by decide
  have same : Text.trim (' ' :: text) = Text.trim text := Text.trim_append_of_blank blank
  simp only [docOfComment, Text.trim_trimRight, same]

theorem adds_comment
    (text : String) :
    ∃ later, reading.continueFrom number (Item.comment text).written = .ok later ∧
      Adds (.comment text) number reading later := by
  have moved : reading.next ⟨number, Text.trimRight ('#' :: ' ' :: text.toList)⟩ =
      .ok { reading.close with doc := docOfComment text.toList } := by
    have kept : Text.trimRight ('#' :: ' ' :: text.toList) =
        '#' :: Text.trimRight (' ' :: text.toList) :=
      Text.trimRight_cons rfl
    simp only [Reading.next, kept, read_comment, docOfComment_trimRight]
  refine ⟨_, continueFrom_cons moved, ?_⟩
  constructor
  case definitions => exact (List.append_nil _).symm
  case aliases => exact (List.append_nil _).symm
  case sketches => rfl
  case doc => rfl
  case settled => exact Reading.settled_of_closed rfl

theorem adds_definition
    {name value : String}
    (named : IsName name)
    (free : name ∉ ["set", "export", "import", "mod"])
    (fresh : name ∉ reading.definitions.map Prod.fst) :
    ∃ later, reading.continueFrom number (Item.definition name value).written = .ok later ∧
      Adds (.definition name value) number reading later := by
  have kept : Text.trimRight (name.toList ++ (definitionSign ++ quotedValue value)) =
      name.toList ++ (definitionSign ++ quotedValue value) := by
    apply Text.trimRight_of_last
    refine ⟨'"', ?_, rfl⟩
    simp [quotedValue, List.getLast?_append, List.getLast?_cons]
  have read : Line.read (name.toList ++ (definitionSign ++ quotedValue value)) =
      .definition name (quotedValue value) :=
    read_definition named free ⟨'"', rfl, rfl⟩
  have unknown : (reading.definitions.map Prod.fst).contains name = false := by
    simpa using fresh
  have moved : reading.next
      ⟨number, Text.trimRight (name.toList ++ (definitionSign ++ quotedValue value))⟩ =
        .ok { reading.close with
          definitions := reading.definitions ++ [(name, value)] } := by
    simp only [Reading.next, kept, read, Reading.define, unknown, decodeValue_quotedValue,
      String.ofList_toList]
    rfl
  refine ⟨_, continueFrom_cons moved, ?_⟩
  constructor
  case definitions => rfl
  case aliases => exact (List.append_nil _).symm
  case sketches => rfl
  case doc => rfl
  case settled => exact Reading.settled_of_closed rfl

theorem adds_nickname
    {name target : String}
    (named : IsName name)
    (targeted : IsName target) :
    ∃ later, reading.continueFrom number (Item.nickname name target).written = .ok later ∧
      Adds (.nickname name target) number reading later := by
  have kept : Text.trimRight
      (aliasWord ++ ' ' :: (name.toList ++ (definitionSign ++ target.toList))) =
        aliasWord ++ ' ' :: (name.toList ++ (definitionSign ++ target.toList)) := by
    apply Text.trimRight_of_last
    rcases targeted.last with ⟨letter, ends, solid⟩
    refine ⟨letter, ?_, solid⟩
    rw [Option.mem_def] at ends ⊢
    simp [List.getLast?_append, List.getLast?_cons, ends]
  have moved : reading.next ⟨number, Text.trimRight
      (aliasWord ++ ' ' :: (name.toList ++ (definitionSign ++ target.toList)))⟩ =
        .ok { reading.close with
          aliases := reading.aliases ++ [⟨number, name, target⟩] } := by
    simp only [Reading.next, kept, read_nickname named targeted]
  refine ⟨_, continueFrom_cons moved, ?_⟩
  constructor
  case definitions => exact (List.append_nil _).symm
  case aliases => rfl
  case sketches => rfl
  case doc => rfl
  case settled => exact Reading.settled_of_closed rfl

/-- A header ends with its colon or with its last need. -/
theorem header_last
    {needs : List String}
    (needed : ∀ need ∈ needs, IsName need) :
    ∃ letter ∈ (':' :: spaced needs).getLast?, Text.isBlank letter = false := by
  rcases List.eq_nil_or_concat needs with rfl | ⟨front, need, rfl⟩
  · exact ⟨':', rfl, rfl⟩
  · rcases (needed need (by simp)).last with ⟨letter, ends, solid⟩
    refine ⟨letter, ?_, solid⟩
    rw [Option.mem_def] at ends ⊢
    simp [spaced, List.getLast?_append, List.getLast?_cons, ends]

theorem find?_needs
    {needs : List String}
    (needed : ∀ need ∈ needs, IsName need) :
    (needs.map String.toList).find? (!Identifier.isIdentifier ·) = none := by
  rw [List.find?_eq_none, List.forall_mem_map]
  intro need member
  have named : Identifier.isIdentifier need.toList = true := needed need member
  simp [named]

theorem adds_recipe
    {quiet : Bool}
    {name : String}
    {needs : List String}
    {body : List Command}
    (named : IsName name)
    (needed : ∀ need ∈ needs, IsName need)
    (commands : ∀ command ∈ body, command.Sound) :
    ∃ later, reading.continueFrom number (Item.recipe quiet name needs body).written = .ok later ∧
      Adds (.recipe quiet name needs body) number reading later := by
  let opened : Reading :=
    { reading.close with current := some ⟨name, needs, quiet, reading.doc, []⟩ }
  have kept : Text.trimRight (mark quiet ++ (name.toList ++ ':' :: spaced needs)) =
      mark quiet ++ (name.toList ++ ':' :: spaced needs) := by
    apply Text.trimRight_of_last
    rcases header_last needed with ⟨letter, ends, solid⟩
    refine ⟨letter, ?_, solid⟩
    rw [Option.mem_def] at ends ⊢
    simp only [List.getLast?_append, ends, Option.some_or]
  have moved : reading.next
      ⟨number, Text.trimRight (mark quiet ++ (name.toList ++ ':' :: spaced needs))⟩ =
        .ok opened := by
    simp only [Reading.next, kept, read_header named needed, Reading.openRecipe,
      find?_needs needed, List.map_map]
    simp [opened, Function.comp_def]
  have taken := @continueFrom_body opened body _ commands rfl (number + 1)
  refine ⟨_, (continueFrom_cons moved).trans taken, ?_⟩
  constructor
  case definitions => exact (List.append_nil _).symm
  case aliases => exact (List.append_nil _).symm
  case sketches => rfl
  case doc => rfl
  case settled =>
    intro _
    rfl

/-- Reading the lines of an item adds what the item means. -/
theorem exists_adds
    (sound : item.Sound)
    (settled : reading.Settled)
    (fresh : ∀ entry ∈ item.definition?, entry.1 ∉ reading.definitions.map Prod.fst) :
    ∃ later, reading.continueFrom number item.written = .ok later ∧
      Adds item number reading later := by
  cases sound with
  | blank => exact adds_blank settled
  | comment => exact adds_comment _
  | definition named free _ => exact adds_definition named free (fresh _ rfl)
  | nickname named targeted => exact adds_nickname named targeted
  | recipe named needed commands => exact adds_recipe named needed commands

/-- What is known after some items is what was known before and what each item adds. -/
structure Reads (items : List Item) (number : Nat) (reading later : Reading) : Prop where
  definitions : later.definitions = reading.definitions ++ definitionsIn items
  aliases : later.aliases = reading.aliases ++ aliasLinesFrom number items
  sketches : later.sketches = reading.sketches ++ sketchesFrom number reading.doc items

/-- Items are read one after the other. -/
theorem exists_reads
    (sound : ∀ item ∈ items, item.Sound)
    (settled : reading.Settled)
    (distinct : ((reading.definitions ++ definitionsIn items).map Prod.fst).Nodup) :
    ∃ later, reading.continueFrom number (items.flatMap Item.written) = .ok later ∧
      Reads items number reading later := by
  induction items generalizing reading number with
  | nil =>
    refine ⟨reading, rfl, ?_⟩
    constructor
    case definitions => exact (List.append_nil _).symm
    case aliases => exact (List.append_nil _).symm
    case sketches => exact (List.append_nil _).symm
  | cons item rest ih =>
    rcases List.forall_mem_cons.mp sound with ⟨first, others⟩
    have split : definitionsIn (item :: rest) = item.definition?.toList ++ definitionsIn rest := by
      rw [definitionsIn, List.filterMap_cons]
      cases item.definition? <;> rfl
    rw [split] at distinct
    have fresh : ∀ entry ∈ item.definition?,
        entry.1 ∉ reading.definitions.map Prod.fst := by
      intro entry defined known
      rw [Option.mem_def.mp defined, List.map_append] at distinct
      exact (List.nodup_append.mp distinct).2.2 _ known _ List.mem_cons_self rfl
    rcases @exists_adds number item reading first settled fresh with ⟨next, moved, adds⟩
    rw [← List.append_assoc, ← adds.definitions] at distinct
    rcases @ih (number + item.written.length) next others adds.settled distinct with
      ⟨later, read, reads⟩
    refine ⟨later, ?_, ?_⟩
    · rw [List.flatMap_cons, continueFrom_append moved, read]
    · constructor
      case definitions => rw [reads.definitions, adds.definitions, split, List.append_assoc]
      case aliases =>
        rw [reads.aliases, adds.aliases, aliasLinesFrom, List.append_assoc]
      case sketches =>
        rw [reads.sketches, adds.sketches, adds.doc, sketchesFrom, List.append_assoc]

end Cookbook.Justfile
