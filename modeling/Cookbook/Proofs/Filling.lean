import Cookbook.Proofs.Chain.Whole
import Cookbook.Proofs.Substitution
import Cookbook.Proofs.Template.Expansion
import Cookbook.Proofs.Word.Plain

/-!
# What filling in values can break

The steps that command lines are cut into are read a second time when they run,
with the values of variables in place of their placeholders.  Braces, blanks
and names are plain, so a plain value leaves every quote where it is, and a line
that is complete stays complete.  What can still go wrong is the fault of a
placeholder, of a variable without a value, or of the values.
-/

namespace Cookbook

open Template (Slot WellFormed escape namesIn openingBraces)
open Word (Plain Quoting)

variable
    {letter : Char}
    {name line : String}
    {text slot : List Char}
    {parts : List Part}
    {value : String → Option String}

/-! ## Plain values keep the quotes -/

theorem Identifier.plain_of_isIdentifier
    (named : Identifier.isIdentifier text = true) :
    Plain text := by
  intro letter inside
  have safe := Identifier.isSafe_of_isPart (Identifier.isPart_of_mem named inside)
  exact ⟨Word.ne_of_isSafe safe rfl, Word.ne_of_isSafe safe rfl, Word.ne_of_isSafe safe rfl⟩

theorem Template.plain_slot
    (named : Identifier.isIdentifier name.toList = true)
    (slotted : Slot name slot) :
    Plain slot := by
  rcases slotted with ⟨before, after, blankBefore, blankAfter, rfl⟩
  have opening : Plain openingBraces := by decide
  have closing : Plain Template.closingBraces := by decide
  have inner := (Word.plain_of_blank blankBefore).append (Identifier.plain_of_isIdentifier named)
  exact opening.append ((inner.append (Word.plain_of_blank blankAfter)).append closing)

theorem Template.after_escape
    (quoting : Quoting)
    (text : List Char) :
    quoting.after (escape text) = quoting.after text := by
  induction text using Template.escape_induction generalizing quoting with
  | nil => rfl
  | pair rest ih =>
    -- four braces lead to the same state as two
    have two : Plain openingBraces := by decide
    have same : quoting.after (openingBraces ++ openingBraces) = quoting.after openingBraces := by
      rw [Quoting.after_of_plain (two.append two) (by decide),
        Quoting.after_of_plain two (by decide)]
    show quoting.after ((openingBraces ++ openingBraces) ++ escape rest) =
      quoting.after (openingBraces ++ rest)
    rw [Quoting.after_append _ _ (escape rest), same, ih, Quoting.after_append]
  | single letter rest single ih =>
    rw [Template.escape_cons single, Quoting.after_cons, Quoting.after_cons, ih]

/--
With plain values that are not empty, parts put together lead to the same
quoting state as their spelling.
-/
theorem Template.Spells.after_content
    (spells : Template.Spells parts text)
    (sound : ∀ part ∈ parts, Template.Sound part)
    (kept : ∀ name ∈ namesIn parts,
      (Part.placeholder name).content value ≠ [] ∧
        Plain ((Part.placeholder name).content value))
    (quoting : Quoting) :
    quoting.after (parts.flatMap (Part.content value)) = quoting.after text := by
  induction spells generalizing quoting with
  | nil => rfl
  | @literal literal rest later spells ih =>
    rcases List.forall_mem_cons.mp sound with ⟨_, others⟩
    rw [List.flatMap_cons, Quoting.after_append, Quoting.after_append, ih others kept,
      Template.after_escape]
    rfl
  | @placeholder name slot rest later slotted spells ih =>
    rcases List.forall_mem_cons.mp sound with ⟨named, others⟩
    rcases List.forall_mem_cons.mp kept with ⟨⟨present, plain⟩, behind⟩
    have written : slot ≠ [] := by
      rcases slotted with ⟨before, after, _, _, rfl⟩
      exact List.cons_ne_nil _ _
    rw [List.flatMap_cons, Quoting.after_append, Quoting.after_append, ih others behind,
      Quoting.after_of_plain plain present,
      Quoting.after_of_plain (Template.plain_slot named slotted) written]

/-- A text that is nothing but separators begins with a value, if its template is firm. -/
theorem Template.Spells.namesIn_ne_nil
    (spells : Template.Spells parts text)
    (sound : ∀ part ∈ parts, Template.Sound part)
    (firm : Text.Firm text)
    (separates : ∀ letter ∈ parts.flatMap (Part.content value),
      Word.isSeparator letter = true) :
    namesIn parts ≠ [] := by
  cases spells with
  | nil => exact absurd rfl firm.ne_nil
  | @literal literal rest later spells =>
    -- a literal would begin with the letter that makes the template firm
    have present : literal ≠ [] := (List.forall_mem_cons.mp sound).1
    rcases List.exists_cons_of_ne_nil present with ⟨letter, others, rfl⟩
    rcases firm.first with ⟨first, ahead, solid⟩
    rw [List.head?_append, Template.head?_escape] at ahead
    cases ahead
    have blank := Word.isBlank_of_isSeparator (separates letter List.mem_cons_self)
    rw [solid] at blank
    cases blank
  | placeholder slotted spells => exact List.cons_ne_nil _ _

/-! ## Faults -/

/-- What can go wrong with a single command when values are filled in. -/
inductive FillingFault (bindings : Bindings) (line : String) (recipe : Option String) :
    Failure → Prop
  | placeholder {column : Nat}
      (malformed : Template.Malformed line.toList column) :
      FillingFault bindings line recipe
        (.badTemplate line (.malformedPlaceholder column) recipe)
  | variable {parts : List Part} {name : String}
      (read : Template.parts line = .ok parts)
      (named : name ∈ namesIn parts)
      (undefined : name ∉ bindings.names) :
      FillingFault bindings line recipe (.undefinedVariable name (some line) recipe)
  /-- A value that is empty, or that holds a quote or a backslash. -/
  | quoting {parts : List Part} {name value : String} {cause : Word.Unfinished}
      (read : Template.parts line = .ok parts)
      (named : name ∈ namesIn parts)
      (given : bindings.value? name = some value)
      (breaks : value = "" ∨ ¬Plain value.toList) :
      FillingFault bindings line recipe (.badTemplate line (.unfinished cause) recipe)
  /-- Values that are all blank or empty. -/
  | emptiness {parts : List Part}
      (read : Template.parts line = .ok parts)
      (named : namesIn parts ≠ [])
      (blank : ∀ name ∈ namesIn parts, ∃ value, bindings.value? name = some value ∧
        ∀ letter ∈ value.toList, Word.isSeparator letter = true) :
      FillingFault bindings line recipe (.badTemplate line .emptyCommand recipe)

section Faults

variable
    {bindings : Bindings}
    {recipe : Option String}
    {failure : Failure}

theorem FillingFault.of_unexpanded
    (unexpanded : bindings.Unexpanded line recipe failure) :
    FillingFault bindings line recipe failure := by
  cases unexpanded with
  | malformed refused => exact .placeholder (Template.parts_eq_error_iff.mp refused)
  | undefined read named absent => exact .variable read named absent

theorem FillingFault.of_unfinished
    {filled : String}
    {cause : Word.Unfinished}
    (single : Chain.Single line)
    (expanded : bindings.expand line recipe = .ok filled)
    (refused : Word.split filled = .error cause) :
    FillingFault bindings line recipe (.badTemplate line (.unfinished cause) recipe) := by
  rcases Bindings.exists_parts_of_expand expanded with ⟨parts, read, defined, spelled⟩
  rcases Template.parts_eq_ok_iff.mp read with ⟨wellFormed, spells⟩
  by_contra faultless
  have kept : ∀ name ∈ namesIn parts,
      (Part.placeholder name).content bindings.value? ≠ [] ∧
        Plain ((Part.placeholder name).content bindings.value?) := by
    intro name named
    have present := Bindings.isSome_value?_iff.mpr (defined name named)
    rcases Option.isSome_iff_exists.mp present with ⟨value, given⟩
    simp only [Part.content, given, Option.getD_some]
    constructor
    · intro empty
      exact faultless (.quoting read named given (Or.inl (String.toList_eq_nil_iff.mp empty)))
    · by_contra special
      exact faultless (.quoting read named given (Or.inr special))
  have ends := spells.after_content wellFormed.sound kept .bare
  rw [single.complete, ← spelled] at ends
  have complete : Word.split filled =
      .ok ((Word.wordsOfMarks (Word.marks .bare filled.toList)).map String.ofList) :=
    Word.split_eq_ok_iff.mpr ⟨ends, by simp⟩
  rw [refused] at complete
  cases complete

theorem FillingFault.of_empty
    {filled : String}
    (single : Chain.Single line)
    (expanded : bindings.expand line recipe = .ok filled)
    (none : Word.split filled = .ok []) :
    FillingFault bindings line recipe (.badTemplate line .emptyCommand recipe) := by
  rcases Bindings.exists_parts_of_expand expanded with ⟨parts, read, defined, spelled⟩
  rcases Template.parts_eq_ok_iff.mp read with ⟨wellFormed, spells⟩
  have separates := Word.isSeparator_of_split none
  rw [spelled] at separates
  apply FillingFault.emptiness read
  · exact spells.namesIn_ne_nil wellFormed.sound single.firm separates
  · intro name named
    have present := Bindings.isSome_value?_iff.mpr (defined name named)
    rcases Option.isSome_iff_exists.mp present with ⟨value, given⟩
    refine ⟨value, given, fun letter inside => separates letter ?_⟩
    rcases List.mem_filterMap.mp named with ⟨part, member, same⟩
    cases part with
    | literal text => cases same
    | placeholder other =>
      cases same
      apply List.mem_flatMap.mpr
      refine ⟨.placeholder name, member, ?_⟩
      rw [Part.content, given]
      exact inside

/-- A single command fails only through what is filled in. -/
theorem Step.fillingFault_of_words
    {step : Step}
    (single : Chain.Single step.line)
    (refused : step.words bindings recipe = .error failure) :
    FillingFault bindings step.line recipe failure := by
  cases Step.refusal_of_words refused with
  | cut uncut =>
    rw [single.segments] at uncut
    cases uncut
  | chain cut several =>
    rw [single.segments] at cut
    cases cut
    exact absurd several (Nat.lt_irrefl 1)
  | expansion unexpanded => exact .of_unexpanded (Bindings.unexpanded_of_expand unexpanded)
  | unfinished expanded unfinished => exact .of_unfinished single expanded unfinished
  | empty expanded none => exact .of_empty single expanded none

end Faults

end Cookbook
