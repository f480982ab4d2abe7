import Cookbook.Text.Blank
import Mathlib.Data.List.DropRight

/-!
# Trimmed texts

Trimming takes away the blanks at the ends of a text.  It leaves alone a text
that begins and ends with other characters, so a trimmed text is either empty
or of this kind, and trimming twice is trimming once.
-/

namespace Cookbook.Text

variable
    {letter : Char}
    {text front middle back : List Char}

/-! ## Blank texts -/

/-- Every character of a text is a blank. -/
def Blank (text : List Char) : Prop :=
  ∀ letter ∈ text, isBlank letter = true

/-- No character of a text is a blank. -/
def Solid (text : List Char) : Prop :=
  ∀ letter ∈ text, isBlank letter = false

instance (text : List Char) : Decidable (Blank text) :=
  List.decidableBAll _ text

instance (text : List Char) : Decidable (Solid text) :=
  List.decidableBAll _ text

theorem Blank.nil :
    Blank [] :=
  List.forall_mem_nil _

theorem blank_takeWhile
    (text : List Char) :
    Blank (text.takeWhile isBlank) :=
  fun _ => List.mem_takeWhile_imp

/-- Blanks in front of a text are trimmed with those of the text. -/
theorem trimLeft_append
    (blank : Blank front) :
    trimLeft (front ++ text) = trimLeft text :=
  List.dropWhile_append_of_pos blank

theorem trimLeft_of_blank
    (blank : Blank text) :
    trimLeft text = [] :=
  List.dropWhile_eq_nil_iff.mpr blank

/-- What is trimmed at the left end is blank. -/
theorem exists_blank_append_trimLeft
    (text : List Char) :
    ∃ blanks, Blank blanks ∧ text = blanks ++ trimLeft text :=
  ⟨text.takeWhile isBlank, blank_takeWhile text, List.takeWhile_append_dropWhile.symm⟩

/-- What is trimmed at the right end is blank. -/
theorem exists_trimRight_append_blank
    (text : List Char) :
    ∃ blanks, Blank blanks ∧ text = trimRight text ++ blanks :=
  ⟨text.rtakeWhile isBlank, fun _ => List.mem_rtakeWhile_imp,
    List.rdropWhile_append_rtakeWhile.symm⟩

theorem trimRight_append
    (blank : Blank back) :
    trimRight (text ++ back) = trimRight text := by
  have reversed : Blank back.reverse := fun letter inside =>
    blank letter (List.mem_reverse.mp inside)
  rw [trimRight, trimRight, List.reverse_append, List.dropWhile_append_of_pos reversed]

theorem trimRight_of_blank
    (blank : Blank text) :
    trimRight text = [] :=
  @trimRight_append [] text blank

/-! ## Texts without blanks at their ends -/

/-- A text that is not empty and begins and ends with a letter that is no blank. -/
structure Firm (text : List Char) : Prop where
  first : ∃ letter ∈ text.head?, isBlank letter = false
  last : ∃ letter ∈ text.getLast?, isBlank letter = false

theorem Firm.ne_nil
    (firm : Firm text) :
    text ≠ [] := by
  rintro rfl
  rcases firm.first with ⟨letter, present, _⟩
  cases present

theorem Firm.around
    (starts : Firm front)
    (ends : Firm back) :
    Firm (front ++ middle ++ back) := by
  rcases starts.first with ⟨first, atFront, solid⟩
  rcases ends.last with ⟨last, atBack, solidLast⟩
  constructor
  · refine ⟨first, ?_, solid⟩
    rw [Option.mem_def] at atFront ⊢
    simp [List.head?_append, atFront]
  · refine ⟨last, ?_, solidLast⟩
    rw [Option.mem_def] at atBack ⊢
    simp [List.getLast?_append, atBack]

theorem firm_of_solid
    (solid : Solid text)
    (present : text ≠ []) :
    Firm text := by
  constructor
  · exact ⟨text.head present, List.head?_eq_some_head present, solid _ (List.head_mem present)⟩
  · exact ⟨text.getLast present, List.getLast?_eq_some_getLast present,
      solid _ (List.getLast_mem present)⟩

theorem dropWhile_isBlank
    (first : ∃ letter ∈ text.head?, isBlank letter = false) :
    text.dropWhile isBlank = text := by
  rcases first with ⟨letter, present, solid⟩
  cases text with
  | nil => cases present
  | cons other rest =>
    cases present
    exact List.dropWhile_cons_of_neg (by simp [solid])

theorem trimLeft_of_first
    (first : ∃ letter ∈ text.head?, isBlank letter = false) :
    trimLeft text = text :=
  dropWhile_isBlank first

theorem trimRight_of_last
    (last : ∃ letter ∈ text.getLast?, isBlank letter = false) :
    trimRight text = text := by
  have reversed : ∃ letter ∈ text.reverse.head?, isBlank letter = false := by
    rw [List.head?_reverse]
    exact last
  rw [trimRight, dropWhile_isBlank reversed, List.reverse_reverse]

/-- Trimming leaves a text as it is if no blank stands at its ends. -/
theorem Firm.trim
    (firm : Firm text) :
    Text.trim text = text := by
  rw [Text.trim, trimLeft_of_first firm.first, trimRight_of_last firm.last]

theorem trimRight_cons
    (solid : isBlank letter = false) :
    trimRight (letter :: text) = letter :: trimRight text := by
  have kept : ¬isBlank letter = true := Bool.eq_false_iff.mp solid
  rw [trimRight, List.reverse_cons, List.dropWhile_append, List.dropWhile_cons_of_neg kept]
  split
  · rename_i none
    rw [trimRight, List.isEmpty_iff.mp none]
    rfl
  · rw [List.reverse_append]
    rfl

/-- A letter that is no blank stays, and so does what stands in front of it. -/
theorem trimRight_append_cons
    (solid : isBlank letter = false) :
    trimRight (front ++ letter :: text) = front ++ letter :: trimRight text := by
  have kept := @trimRight_cons letter text solid
  have some : ((letter :: text).reverse.dropWhile isBlank).isEmpty ≠ true := by
    intro none
    rw [trimRight, List.isEmpty_iff.mp none] at kept
    cases kept
  rw [← kept, trimRight, List.reverse_append, List.dropWhile_append, if_neg some,
    List.reverse_append, List.reverse_reverse, trimRight]

/-! ## Trimmed texts -/

theorem trimLeft_trimLeft
    (text : List Char) :
    trimLeft (trimLeft text) = trimLeft text :=
  List.dropWhile_idempotent isBlank text

theorem trimRight_trimRight
    (text : List Char) :
    trimRight (trimRight text) = trimRight text :=
  List.rdropWhile_idempotent isBlank text

theorem trim_trimLeft
    (text : List Char) :
    trim (trimLeft text) = trim text := by
  rw [trim, trimLeft_trimLeft, trim]

theorem trim_prefix_trimLeft
    (text : List Char) :
    trim text <+: trimLeft text :=
  List.rdropWhile_prefix isBlank (trimLeft text)

theorem trim_sublist
    (text : List Char) :
    (trim text).Sublist text :=
  (trim_prefix_trimLeft text).sublist.trans (List.dropWhile_sublist isBlank)

/-- A text is firm after trimming, unless nothing is left of it. -/
theorem firm_trim
    (present : trim text ≠ []) :
    Firm (trim text) := by
  constructor
  · have kept := trim_prefix_trimLeft text
    have some : trimLeft text ≠ [] := by
      intro none
      rw [none, List.prefix_nil] at kept
      exact present kept
    refine ⟨(trim text).head present, List.head?_eq_some_head present, ?_⟩
    rw [kept.head present]
    exact List.head_dropWhile_not isBlank some
  · refine ⟨(trim text).getLast present, List.getLast?_eq_some_getLast present, ?_⟩
    exact Bool.eq_false_iff.mpr (List.rdropWhile_last_not isBlank (trimLeft text) present)

theorem trim_trim
    (text : List Char) :
    trim (trim text) = trim text := by
  by_cases present : trim text = []
  · rw [present, trim_nil]
  · exact (firm_trim present).trim

/-- A text is what it is trimmed to, between blanks. -/
theorem exists_blanks_around
    (text : List Char) :
    ∃ front back, Blank front ∧ Blank back ∧ text = front ++ (trim text ++ back) := by
  rcases exists_blank_append_trimLeft text with ⟨front, leading, split⟩
  rcases exists_trimRight_append_blank (trimLeft text) with ⟨back, trailing, splitLeft⟩
  exact ⟨front, back, leading, trailing, by rw [trim, ← splitLeft, ← split]⟩

/-- Blanks behind a text do not matter to what it is trimmed to. -/
theorem trim_append
    (blank : Blank back) :
    trim (text ++ back) = trim text := by
  by_cases whole : Blank text
  · have both : Blank (text ++ back) := List.forall_mem_append.mpr ⟨whole, blank⟩
    rw [trim, trim, trimLeft_of_blank both, trimLeft_of_blank whole]
  · have some : (text.dropWhile isBlank).isEmpty ≠ true := by
      rw [ne_eq, List.isEmpty_iff, List.dropWhile_eq_nil_iff]
      exact whole
    rw [trim, trimLeft, List.dropWhile_append, if_neg some, trimRight_append blank]
    rfl

/-- Blanks in front of a text do not matter to what it is trimmed to. -/
theorem trim_append_of_blank
    (blank : Blank front) :
    trim (front ++ text) = trim text := by
  rw [trim, trimLeft_append blank, trim]

theorem trim_trimRight
    (text : List Char) :
    trim (trimRight text) = trim text := by
  rcases exists_trimRight_append_blank text with ⟨blanks, blank, whole⟩
  have same := @trim_append (trimRight text) blanks blank
  rw [← whole] at same
  exact same.symm

/-- The ends of a text are trimmed in either order. -/
theorem trimLeft_trimRight
    (text : List Char) :
    trimLeft (trimRight text) = trim text := by
  induction text with
  | nil => rfl
  | cons letter rest ih =>
    cases blank : isBlank letter with
    | false =>
      have first : ∃ other ∈ (letter :: trimRight rest).head?, isBlank other = false :=
        ⟨letter, rfl, blank⟩
      rw [trim, trimRight_cons blank, trimLeft_of_first first,
        trimLeft_of_first ⟨letter, rfl, blank⟩, trimRight_cons blank]
    | true =>
      have white : Blank [letter] := List.forall_mem_singleton.mpr blank
      have skipped : trim (letter :: rest) = trim rest := @trim_append_of_blank rest [letter] white
      rw [skipped, ← ih, trimRight, List.reverse_cons, List.dropWhile_append]
      split
      · rename_i none
        rw [trimRight, List.isEmpty_iff.mp none, List.dropWhile_cons_of_pos blank]
        rfl
      · rw [List.reverse_append]
        exact @trimLeft_append (trimRight rest) [letter] white

/-- The last letter of a text is not trimmed if it is no blank. -/
theorem trim_concat
    (text : List Char)
    (solid : isBlank letter = false) :
    trim (text ++ [letter]) = trimLeft text ++ [letter] := by
  have kept : trimRight (text ++ [letter]) = text ++ [letter] := trimRight_append_cons solid
  have stops : ¬isBlank letter = true := Bool.eq_false_iff.mp solid
  rw [← trimLeft_trimRight, kept, trimLeft, List.dropWhile_append,
    List.dropWhile_cons_of_neg stops]
  split
  · rename_i none
    rw [trimLeft, List.isEmpty_iff.mp none]
    rfl
  · rfl

end Cookbook.Text
