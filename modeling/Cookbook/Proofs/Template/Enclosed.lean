import Cookbook.Proofs.Filling

/-!
# Values inside single quotes

Values are filled in before a line falls into words, so they are read with the
rest of the line.  Inside single quotes every character but the closing mark is
a letter of its word.  So if each placeholder of a template is met there, the
words of the line are outlined before any value is known: each of them consists
of literal pieces and of places, and a value without a single quote fills its
places and does nothing else.
-/

namespace Cookbook

open Template (Spells namesIn)
open Word (Mark Quoting emit gather marks wordsOfMarks)

variable
    {name : String}
    {quoting later : Quoting}
    {letter : Char}
    {text : List Char}
    {part : Part}
    {parts : List Part}
    {value : String → Option String}

/-! ## Placeholders inside single quotes -/

namespace Template

/-- The text of parts whose variables have the given values. -/
def contents (value : String → Option String) (parts : List Part) : List Char :=
  parts.flatMap (Part.content value)

/--
Each placeholder of a template is met inside single quotes: the text in front
of it, which spells the parts in front of it, leads there.
-/
def InSingleQuotes (parts : List Part) (text : List Char) : Prop :=
  ∀ front name back before behind,
    parts = front ++ .placeholder name :: back → text = before ++ behind →
      Spells front before → Spells (.placeholder name :: back) behind →
        Quoting.bare.after before = .single

/-- Parts whose placeholders are met inside single quotes, when reading starts in a state. -/
def Enclosed (quoting : Quoting) : List Part → Prop
  | [] => True
  | .literal text :: rest => Enclosed (quoting.after text) rest
  | .placeholder _ :: rest => quoting = .single ∧ Enclosed .single rest

instance decidableEnclosed (quoting : Quoting) :
    (parts : List Part) → Decidable (Enclosed quoting parts)
  | [] => inferInstanceAs (Decidable True)
  | .literal text :: rest => decidableEnclosed (quoting.after text) rest
  | .placeholder _ :: rest =>
    have : Decidable (Enclosed .single rest) := decidableEnclosed .single rest
    inferInstanceAs (Decidable (quoting = .single ∧ Enclosed .single rest))

theorem after_slot_of_single
    (named : Identifier.isIdentifier name.toList = true)
    {slot : List Char}
    (slotted : Slot name slot) :
    Quoting.single.after slot = .single := by
  have written : slot ≠ [] := by
    rcases slotted with ⟨before, after, _, _, rfl⟩
    exact List.cons_ne_nil _ _
  rw [Quoting.after_of_plain (plain_slot named slotted) written]
  rfl

/-- The state in front of a placeholder depends only on the parts in front of it. -/
theorem Enclosed.after_front
    {front back : List Part}
    {before : List Char}
    (enclosed : Enclosed quoting (front ++ .placeholder name :: back))
    (sound : ∀ part ∈ front, Sound part)
    (spells : Spells front before) :
    quoting.after before = .single := by
  induction spells generalizing quoting with
  | nil => exact enclosed.1
  | @literal text rest front spells ih =>
    rw [Quoting.after_append, after_escape]
    exact ih enclosed (List.forall_mem_cons.mp sound).2
  | @placeholder other slot rest front slotted spells ih =>
    rcases List.forall_mem_cons.mp sound with ⟨named, others⟩
    rcases enclosed with ⟨rfl, behind⟩
    rw [Quoting.after_append, after_slot_of_single named slotted]
    exact ih behind others

theorem Spells.enclosed
    (spells : Spells parts text)
    (sound : ∀ part ∈ parts, Sound part)
    (met : ∀ front name back before behind,
      parts = front ++ .placeholder name :: back → text = before ++ behind →
        Spells front before → Spells (.placeholder name :: back) behind →
          quoting.after before = .single) :
    Enclosed quoting parts := by
  induction spells generalizing quoting with
  | nil => trivial
  | @literal literal rest parts spells ih =>
    apply ih (List.forall_mem_cons.mp sound).2
    rintro front name back before behind rfl rfl inFront inBack
    have state := met (.literal literal :: front) name back (escape literal ++ before) behind rfl
      (List.append_assoc _ _ _).symm (.literal inFront) inBack
    rwa [Quoting.after_append, after_escape] at state
  | @placeholder name slot rest parts slotted spells ih =>
    rcases List.forall_mem_cons.mp sound with ⟨named, others⟩
    have here : quoting = .single :=
      met [] name parts [] (slot ++ rest) rfl rfl .nil (.placeholder slotted spells)
    subst here
    refine ⟨rfl, ih others ?_⟩
    rintro front other back before behind rfl rfl inFront inBack
    have state := met (.placeholder name :: front) other back (slot ++ before) behind rfl
      (List.append_assoc _ _ _).symm (.placeholder slotted inFront) inBack
    rwa [Quoting.after_append, after_slot_of_single named slotted] at state

/-- Where the placeholders of a template are met can be told from its parts. -/
theorem Spells.inSingleQuotes_iff
    (spells : Spells parts text)
    (sound : ∀ part ∈ parts, Sound part) :
    InSingleQuotes parts text ↔ Enclosed .bare parts := by
  constructor
  · exact spells.enclosed sound
  · rintro enclosed front name back before behind rfl _ inFront _
    exact enclosed.after_front (fun part member => sound part (List.mem_append_left _ member))
      inFront

end Template

/-! ## Outlines -/

/-- Words with places for values; the first one may be open at its left end. -/
structure Outline where
  opened : Option (List Part)
  closed : List (List Part)

namespace Outline

def blank : Outline :=
  ⟨none, []⟩

/-- An outline behind one more mark. -/
def mark (outline : Outline) : Mark → Outline
  | .gap => ⟨none, outline.opened.toList ++ outline.closed⟩
  | .opening => ⟨some (outline.opened.getD []), outline.closed⟩
  | .letter character => ⟨some (Part.push character (outline.opened.getD [])), outline.closed⟩

/-- An outline behind one more place. -/
def place (outline : Outline) (name : String) : Outline :=
  ⟨some (.placeholder name :: outline.opened.getD []), outline.closed⟩

def words (outline : Outline) : List (List Part) :=
  outline.opened.toList ++ outline.closed

/-- The outline of parts that are read from a quoting state. -/
def ofParts (quoting : Quoting) : List Part → Outline
  | [] => blank
  | .literal text :: rest =>
    (marks quoting text).foldr (fun spelled outline => outline.mark spelled)
      (ofParts (quoting.after text) rest)
  | .placeholder name :: rest => (ofParts quoting rest).place name

end Outline

/-! ## Each place stands in an outline once -/

theorem Template.namesIn_push :
    namesIn (Part.push letter parts) = namesIn parts := by
  cases parts with
  | nil => rfl
  | cons part parts => cases part <;> rfl

theorem Template.namesIn_append
    (front back : List Part) :
    namesIn (front ++ back) = namesIn front ++ namesIn back :=
  List.filterMap_append

namespace Outline

variable
    {outline : Outline}

theorem namesIn_words_mark
    (spelled : Mark) :
    namesIn (outline.mark spelled).words.flatten = namesIn outline.words.flatten := by
  rcases outline with ⟨opened, closed⟩
  cases spelled with
  | gap => rfl
  | opening => cases opened <;> rfl
  | letter character =>
    show namesIn (Part.push character (opened.getD []) ++ closed.flatten) = _
    rw [Template.namesIn_append, Template.namesIn_push, ← Template.namesIn_append]
    cases opened <;> rfl

theorem namesIn_words_place :
    namesIn (outline.place name).words.flatten = name :: namesIn outline.words.flatten := by
  rcases outline with ⟨opened, closed⟩
  cases opened <;> rfl

theorem namesIn_words_ofParts :
    namesIn (ofParts quoting parts).words.flatten = namesIn parts := by
  induction parts generalizing quoting with
  | nil => rfl
  | cons part parts ih =>
    cases part with
    | literal text =>
      show namesIn (ofParts quoting (.literal text :: parts)).words.flatten = namesIn parts
      rw [ofParts, ← @ih (quoting.after text)]
      induction marks quoting text with
      | nil => rfl
      | cons spelled rest inner => rw [List.foldr_cons, namesIn_words_mark, inner]
    | placeholder name =>
      rw [ofParts, namesIn_words_place, ih]
      rfl

end Outline

/-! ## Outlines and words -/

open Template (Enclosed contents)

theorem Template.contents_push :
    contents value (Part.push letter parts) = letter :: contents value parts := by
  cases parts with
  | nil => rfl
  | cons part parts => cases part <;> rfl

/--
An outline with the values in place is what marks gather to.  The word that is
open inside single quotes has been opened further left, so only its letters
count.
-/
structure Outlines (value : String → Option String) (quoting : Quoting) (outline : Outline)
    (gathered : Option (List Char) × List (List Char)) : Prop where
  opened : quoting ≠ .single → gathered.1 = outline.opened.map (contents value)
  letters : gathered.1.getD [] = contents value (outline.opened.getD [])
  closed : gathered.2 = outline.closed.map (contents value)

section Outlines

variable
    {outline : Outline}
    {spelled : Mark}
    {rest : List Mark}

theorem Outlines.of_opened
    {gathered : Option (List Char) × List (List Char)}
    (opened : gathered.1 = outline.opened.map (contents value))
    (closed : gathered.2 = outline.closed.map (contents value)) :
    Outlines value quoting outline gathered where
  opened := fun _ => opened
  letters := by
    rw [opened]
    cases outline.opened <;> rfl
  closed := closed

theorem Outlines.mark_opening
    (outlines : Outlines value later outline (gather rest)) :
    Outlines value quoting (outline.mark .opening) (gather (.opening :: rest)) :=
  .of_opened (congrArg some outlines.letters) outlines.closed

theorem Outlines.mark_letter
    (outlines : Outlines value later outline (gather rest))
    (character : Char) :
    Outlines value quoting (outline.mark (.letter character))
      (gather (.letter character :: rest)) := by
  refine .of_opened ?_ outlines.closed
  show some (character :: (gather rest).1.getD []) = _
  rw [outlines.letters, ← Template.contents_push]
  rfl

theorem Outlines.mark_gap
    (outlines : Outlines value later outline (gather rest))
    (outside : later ≠ .single) :
    Outlines value quoting (outline.mark .gap) (gather (.gap :: rest)) := by
  refine .of_opened rfl ?_
  show (gather rest).1.toList ++ (gather rest).2 = _
  rw [outlines.opened outside, outlines.closed, Outline.mark, List.map_append]
  cases outline.opened <;> rfl

/-- A character without marks does not lead into single quotes. -/
theorem Outlines.silent
    (outlines : Outlines value later outline (gather rest))
    (outside : later ≠ .single) :
    Outlines value quoting outline (gather rest) :=
  .of_opened (outlines.opened outside) outlines.closed

/-- The marks of one character go in front. -/
theorem Outlines.emit
    (outlines : Outlines value (quoting.next letter) outline (gather rest)) :
    Outlines value quoting
      ((emit quoting letter).foldr (fun spelled outline => outline.mark spelled) outline)
      (gather (emit quoting letter ++ rest)) := by
  cases quoting with
  | bare =>
    by_cases separates : Word.isSeparator letter = true
    · rw [Word.next_separator separates] at outlines
      simp only [Word.emit, if_pos separates]
      exact outlines.mark_gap (by decide)
    · by_cases opens : (letter == '\'' || letter == '"') = true
      · simp only [Word.emit, if_neg separates, if_pos opens]
        exact outlines.mark_opening
      · by_cases escapes : letter = '\\'
        · subst escapes
          exact outlines.silent (by decide)
        · simp only [Word.emit, if_neg separates, if_neg opens, beq_iff_eq, if_neg escapes]
          exact outlines.mark_letter letter
  | single =>
    by_cases closes : letter = '\''
    · subst closes
      exact outlines.silent (by decide)
    · simp only [Word.emit, beq_iff_eq, if_neg closes]
      exact outlines.mark_letter letter
  | double =>
    by_cases closes : letter = '"'
    · subst closes
      exact outlines.silent (by decide)
    · by_cases escapes : letter = '\\'
      · subst escapes
        exact outlines.silent (by decide)
      · have kept : ¬(letter == '"' || letter == '\\') = true := by simp [closes, escapes]
        simp only [Word.emit, if_neg kept]
        exact outlines.mark_letter letter
  | bareEscape => exact outlines.mark_letter letter
  | doubleEscape =>
    by_cases kept : (letter == '"' || letter == '\\') = true
    · simp only [Word.emit, if_pos kept]
      exact outlines.mark_letter letter
    · simp only [Word.emit, if_neg kept]
      exact (@Outlines.mark_letter .double _ _ _ _ outlines letter).mark_letter '\\'

/-- A literal goes in front. -/
theorem Outlines.literal
    (outlines : Outlines value (quoting.after text) outline (gather rest)) :
    Outlines value quoting
      ((marks quoting text).foldr (fun spelled outline => outline.mark spelled) outline)
      (gather (marks quoting text ++ rest)) := by
  induction text generalizing quoting with
  | nil => exact outlines
  | cons letter text ih =>
    rw [marks, List.foldr_append, List.append_assoc]
    exact (ih outlines).emit

/-- A value between single quotes is read letter by letter. -/
theorem marks_single
    (unquoted : '\'' ∉ text) :
    marks .single text = text.map .letter ∧ Quoting.single.after text = .single := by
  induction text with
  | nil => exact ⟨rfl, rfl⟩
  | cons letter text ih =>
    rcases not_or.mp (mt List.mem_cons.mpr unquoted) with ⟨other, others⟩
    have kept : (letter == '\'') = false := beq_eq_false_iff_ne.mpr (Ne.symm other)
    have state : Quoting.single.next letter = .single := by simp [Quoting.next, kept]
    rcases ih others with ⟨letters, stays⟩
    rw [marks, Quoting.after_cons, state, letters]
    refine ⟨?_, stays⟩
    simp [Word.emit, kept]

theorem gather_letters
    (text : List Char)
    (rest : List Mark) :
    (gather (text.map .letter ++ rest)).1.getD [] = text ++ (gather rest).1.getD [] ∧
      (gather (text.map .letter ++ rest)).2 = (gather rest).2 := by
  induction text with
  | nil => exact ⟨rfl, rfl⟩
  | cons letter text ih =>
    rcases ih with ⟨letters, closed⟩
    exact ⟨congrArg (letter :: ·) letters, closed⟩

/-- A value goes in front, and may be empty: the word around it is open already. -/
theorem Outlines.place
    (outlines : Outlines value .single outline (gather rest))
    (unquoted : '\'' ∉ (Part.placeholder name).content value) :
    Outlines value .single (outline.place name)
      (gather (marks .single ((Part.placeholder name).content value) ++ rest)) := by
  rw [(marks_single unquoted).1]
  rcases gather_letters ((Part.placeholder name).content value) rest with ⟨letters, closed⟩
  constructor
  case opened => exact fun outside => absurd rfl outside
  case letters =>
    rw [letters, outlines.letters]
    rfl
  case closed => rw [closed, outlines.closed, Outline.place]

theorem outlines_ofParts
    (enclosed : Enclosed quoting parts)
    (unquoted : ∀ name ∈ namesIn parts, '\'' ∉ (Part.placeholder name).content value) :
    Outlines value quoting (.ofParts quoting parts)
      (gather (marks quoting (contents value parts))) := by
  induction parts generalizing quoting with
  | nil => exact .of_opened rfl rfl
  | cons part parts ih =>
    cases part with
    | literal text =>
      show Outlines value quoting _ (gather (marks quoting (text ++ contents value parts)))
      rw [Word.marks_append]
      exact (ih enclosed unquoted).literal
    | placeholder name =>
      rcases enclosed with ⟨rfl, behind⟩
      rcases List.forall_mem_cons.mp unquoted with ⟨first, others⟩
      show Outlines value .single _
        (gather (marks .single ((Part.placeholder name).content value ++ contents value parts)))
      rw [Word.marks_append, (marks_single first).2]
      exact (ih behind others).place first

end Outlines

/-- Under values without single quotes the words of parts are those of their outline. -/
theorem wordsOfMarks_contents
    (enclosed : Enclosed .bare parts)
    (unquoted : ∀ name ∈ namesIn parts, '\'' ∉ (Part.placeholder name).content value) :
    wordsOfMarks (marks .bare (contents value parts)) =
      (Outline.ofParts .bare parts).words.map (contents value) := by
  have outlines := outlines_ofParts enclosed unquoted
  rw [wordsOfMarks, outlines.opened (by decide), outlines.closed, Outline.words, List.map_append]
  cases (Outline.ofParts .bare parts).opened <;> rfl

/-- Under values without single quotes a text ends in the state in which its template ends. -/
theorem Template.Spells.after_contents
    (spells : Spells parts text)
    (sound : ∀ part ∈ parts, Template.Sound part)
    (enclosed : Enclosed quoting parts)
    (unquoted : ∀ name ∈ namesIn parts, '\'' ∉ (Part.placeholder name).content value) :
    quoting.after (contents value parts) = quoting.after text := by
  induction spells generalizing quoting with
  | nil => rfl
  | @literal text rest parts spells ih =>
    show quoting.after (text ++ contents value parts) = _
    rw [Quoting.after_append, Quoting.after_append, Template.after_escape]
    exact ih (List.forall_mem_cons.mp sound).2 enclosed unquoted
  | @placeholder name slot rest parts slotted spells ih =>
    rcases enclosed with ⟨rfl, behind⟩
    rcases List.forall_mem_cons.mp sound with ⟨named, others⟩
    rcases List.forall_mem_cons.mp unquoted with ⟨first, later⟩
    show Quoting.single.after ((Part.placeholder name).content value ++ contents value parts) = _
    rw [Quoting.after_append, Quoting.after_append, (marks_single first).2,
      Template.after_slot_of_single named slotted]
    exact ih others behind later

/-! ## Commands with values inside single quotes -/

/-- The variables that some parts name have values without a single quote. -/
def Bindings.Unquoted (bindings : Bindings) (parts : List Part) : Prop :=
  ∀ name ∈ namesIn parts, ∃ given, bindings.value? name = some given ∧ '\'' ∉ given.toList

theorem Bindings.Unquoted.expand
    {bindings : Bindings}
    {template : String}
    (unquoted : bindings.Unquoted parts)
    (read : Template.parts template = .ok parts)
    (recipe : Option String) :
    bindings.expand template recipe = .ok (String.ofList (contents bindings.value? parts)) ∧
      ∀ name ∈ namesIn parts, '\'' ∉ (Part.placeholder name).content bindings.value? := by
  constructor
  · apply Bindings.expand_of_defined read
    intro name named
    rcases unquoted name named with ⟨given, found, _⟩
    rw [← Bindings.isSome_value?_iff, found]
    rfl
  · intro name named
    rcases unquoted name named with ⟨given, found, outside⟩
    rw [Part.content, found]
    exact outside

/-- Whether a line is complete, and what is unfinished if not, shows in the state at its end. -/
theorem Word.splitCharacters_of_after
    {line : List Char}
    (unfinished : Quoting.bare.after line ≠ .bare) :
    ∃ cause, ∀ other, Quoting.bare.after other = Quoting.bare.after line →
      splitCharacters other = .error cause := by
  cases ends : Quoting.bare.after line with
  | bare => exact absurd ends unfinished
  | single => exact ⟨.quotation, fun other same => by rw [splitCharacters, same]⟩
  | double => exact ⟨.quotation, fun other same => by rw [splitCharacters, same]⟩
  | bareEscape => exact ⟨.escape, fun other same => by rw [splitCharacters, same]⟩
  | doubleEscape => exact ⟨.escape, fun other same => by rw [splitCharacters, same]⟩

/--
If a step is one command and each of its placeholders is met inside single
quotes, then its words are outlined by its line alone: under every store whose
values hold no single quote they are the outline with the values in place, in
which each placeholder stands once.  Or the line alone decides that the step
has no words, and why.
-/
theorem enclosed_values_fill_places
    {step : Step}
    {parts : List Part}
    {segment : String}
    (read : Template.parts step.line = .ok parts)
    (single : Chain.segments step.line = .ok [segment])
    (inside : Template.InSingleQuotes parts step.line.toList) :
    (∃ outline : List (List Part),
      namesIn outline.flatten = namesIn parts ∧
        ∀ bindings recipe, bindings.Unquoted parts →
          step.words bindings recipe =
            .ok (outline.map fun word => String.ofList (contents bindings.value? word))) ∨
      ∃ problem, ∀ bindings recipe, bindings.Unquoted parts →
        step.words bindings recipe = .error (.badTemplate step.line problem recipe) := by
  rcases Template.parts_eq_ok_iff.mp read with ⟨wellFormed, spells⟩
  have enclosed := (spells.inSingleQuotes_iff wellFormed.sound).mp inside
  have alone : ¬1 < [segment].length := Nat.lt_irrefl 1
  by_cases complete : Quoting.bare.after step.line.toList = .bare
  · have split : ∀ bindings : Bindings, bindings.Unquoted parts →
        Word.split (String.ofList (contents bindings.value? parts)) =
          .ok ((Outline.ofParts .bare parts).words.map fun word =>
            String.ofList (contents bindings.value? word)) := by
      intro bindings unquoted
      have values := (unquoted.expand read none).2
      apply Word.split_eq_ok_iff.mpr
      rw [String.toList_ofList, spells.after_contents wellFormed.sound enclosed values,
        wordsOfMarks_contents enclosed values]
      simp [complete]
    cases outlined : (Outline.ofParts .bare parts).words with
    | nil =>
      refine Or.inr ⟨.emptyCommand, fun bindings recipe unquoted => ?_⟩
      have words := split bindings unquoted
      rw [outlined] at words
      simp only [Step.words, single, if_neg alone, (unquoted.expand read recipe).1, words,
        List.map_nil]
    | cons first others =>
      refine Or.inl ⟨first :: others, ?_, fun bindings recipe unquoted => ?_⟩
      · rw [← outlined]
        exact Outline.namesIn_words_ofParts
      · have words := split bindings unquoted
        rw [outlined] at words
        simp only [Step.words, single, if_neg alone, (unquoted.expand read recipe).1, words,
          List.map_cons]
  · rcases Word.splitCharacters_of_after complete with ⟨cause, refused⟩
    refine Or.inr ⟨.unfinished cause, fun bindings recipe unquoted => ?_⟩
    rcases unquoted.expand read recipe with ⟨expanded, values⟩
    have words : Word.split (String.ofList (contents bindings.value? parts)) = .error cause := by
      rw [Word.split, String.toList_ofList,
        refused _ (spells.after_contents wellFormed.sound enclosed values)]
      rfl
    simp only [Step.words, single, if_neg alone, expanded, words]

/-- Two values that touch, the first of them empty and the second full of shell characters. -/
theorem enclosed_values_fill_places_adjoining :
    let step : Step := ⟨"echo '{{a}}{{ b }}'", none, false⟩
    let parts : List Part :=
      [ .literal ['e', 'c', 'h', 'o', ' ', '\''], .placeholder "a", .placeholder "b",
        .literal ['\''] ]
    let bindings : Bindings := ⟨[("a", ""), ("b", "x && \"\\ {{a}}")], by decide⟩
    Template.parts step.line = .ok parts ∧
      Chain.segments step.line = .ok [step.line] ∧
      Template.InSingleQuotes parts step.line.toList ∧
      bindings.Unquoted parts ∧
      step.words bindings none = .ok ["echo", "x && \"\\ {{a}}"] ∧
      ∃ outline : List (List Part),
        namesIn outline.flatten = ["a", "b"] ∧
          ∀ bindings recipe, bindings.Unquoted parts →
            step.words bindings recipe =
              .ok (outline.map fun word => String.ofList (contents bindings.value? word)) := by
  intro step parts bindings
  have read : Template.parts step.line = .ok parts := by decide +kernel
  have single : Chain.segments step.line = .ok [step.line] := by decide +kernel
  rcases Template.parts_eq_ok_iff.mp read with ⟨wellFormed, spells⟩
  have inside : Template.InSingleQuotes parts step.line.toList :=
    (spells.inSingleQuotes_iff wellFormed.sound).mpr (by decide)
  have unquoted : bindings.Unquoted parts := by
    refine List.forall_mem_cons.mpr ⟨⟨_, rfl, by decide⟩, ?_⟩
    exact List.forall_mem_singleton.mpr ⟨_, rfl, by decide⟩
  have words : step.words bindings none =
      .ok ["echo", "x && \"\\ {{a}}"] := by
    decide +kernel
  refine ⟨read, single, inside, unquoted, words, ?_⟩
  rcases enclosed_values_fill_places read single inside with outlined | ⟨problem, refused⟩
  · exact outlined
  · have none := refused bindings none unquoted
    rw [words] at none
    cases none

end Cookbook
