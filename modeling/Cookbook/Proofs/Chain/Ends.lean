import Cookbook.Proofs.Chain.Cut
import Cookbook.Proofs.Text.Trim
import Cookbook.Proofs.Word.Plain

/-!
# Blanks at the ends of a command

Before the words of a command are read, it is trimmed of the blanks at its ends.
But there are more blanks than separators of words, and a separator at the end
may be escaped by a backslash in front of it.  Trimming keeps the words of just
those commands that have nothing but separators around a complete text.
-/

namespace Cookbook.Chain

open Word (Quoting Mark)

variable
    {letter : Char}
    {text piece front core back : List Char}
    {spelled : List Mark}
    {words : List (List Char)}

/-- A complete text without blanks at its ends, between separators. -/
inductive Framed : List Char → Prop
  | mk {front core back : List Char}
      (leading : ∀ letter ∈ front, Word.isSeparator letter = true)
      (firm : Text.Firm core)
      (complete : Quoting.bare.after core = .bare)
      (trailing : ∀ letter ∈ back, Word.isSeparator letter = true) :
      Framed (front ++ (core ++ back))

/-! ## Separators around a text -/

theorem blank_of_separators
    (separates : ∀ letter ∈ text, Word.isSeparator letter = true) :
    Text.Blank text :=
  fun letter inside => Word.isBlank_of_isSeparator (separates letter inside)

theorem after_of_blank
    (blank : Text.Blank text) :
    Quoting.bare.after text = .bare := by
  by_cases none : text = []
  · rw [none, Quoting.after_nil]
  · exact Quoting.after_of_plain (Word.plain_of_blank blank) none

theorem marks_of_separators
    (separates : ∀ letter ∈ text, Word.isSeparator letter = true) :
    Word.marks .bare text = text.map fun _ => .gap := by
  induction text with
  | nil => rfl
  | cons letter rest ih =>
    rcases List.forall_mem_cons.mp separates with ⟨first, later⟩
    rw [Word.marks, Word.emit, if_pos first, Word.next_separator first, ih later]
    rfl

theorem wordsOfMarks_gaps_append :
    Word.wordsOfMarks ((text.map fun _ => Mark.gap) ++ spelled) = Word.wordsOfMarks spelled := by
  induction text with
  | nil => rfl
  | cons letter rest ih => rw [List.map_cons, List.cons_append, Word.wordsOfMarks_gap, ih]

theorem wordsOfMarks_append_gaps :
    Word.wordsOfMarks (spelled ++ text.map fun _ => Mark.gap) = Word.wordsOfMarks spelled := by
  cases text with
  | nil => rw [List.map_nil, List.append_nil]
  | cons letter rest =>
    have none := @wordsOfMarks_gaps_append rest []
    rw [List.append_nil] at none
    rw [List.map_cons, Word.wordsOfMarks_append_gap, none, Word.wordsOfMarks_nil,
      List.append_nil]

/-- A framed command is trimmed to its core, and keeps its words. -/
theorem Framed.splitCharacters_trim
    (framed : Framed piece) :
    Word.splitCharacters piece = Word.splitCharacters (Text.trim piece) := by
  cases framed with
  | @mk front core back leading firm complete trailing =>
    have bare := after_of_blank (blank_of_separators leading)
    have bareLater := after_of_blank (blank_of_separators trailing)
    have trimmed : Text.trim (front ++ (core ++ back)) = core := by
      rw [Text.trim_append_of_blank (blank_of_separators leading),
        Text.trim_append (blank_of_separators trailing), firm.trim]
    have alone : Word.splitCharacters core = .ok (Word.wordsOfMarks (Word.marks .bare core)) :=
      Word.splitCharacters_eq_ok_iff.mpr ⟨complete, rfl⟩
    rw [trimmed, alone, Word.splitCharacters_eq_ok_iff]
    constructor
    · rw [Quoting.after_append, bare, Quoting.after_append, complete, bareLater]
    · rw [Word.marks_append, bare, Word.marks_append, complete, marks_of_separators leading,
        marks_of_separators trailing, wordsOfMarks_gaps_append, wordsOfMarks_append_gaps]

/-! ## Blanks that are no separators -/

theorem emit_of_blank
    (blank : Text.Blank [letter])
    (other : Word.isSeparator letter = false) :
    Word.emit .bare letter = [.letter letter] := by
  rcases List.forall_mem_singleton.mp (Word.plain_of_blank blank) with ⟨single, double, escape⟩
  simp [Word.emit, other, single, double, escape]

/-- A blank outside quotes that separates no words is a letter of a word. -/
theorem letters_of_blank
    (blank : Text.Blank text) :
    (Word.marks .bare text).filterMap Mark.letter? = text.filter (!Word.isSeparator ·) := by
  induction text with
  | nil => rfl
  | cons letter rest ih =>
    rcases List.forall_mem_cons.mp blank with ⟨first, later⟩
    rw [Word.marks, next_blank first, List.filterMap_append, ih later]
    cases separates : Word.isSeparator letter with
    | true =>
      rw [Word.emit, if_pos separates, List.filter_cons_of_neg (by simp [separates])]
      rfl
    | false =>
      rw [emit_of_blank (List.forall_mem_singleton.mpr first) separates,
        List.filter_cons_of_pos (by simp [separates])]
      rfl

theorem separators_of_letters
    (blank : Text.Blank text)
    (silent : (Word.marks .bare text).filterMap Mark.letter? = []) :
    ∀ letter ∈ text, Word.isSeparator letter = true := by
  rw [letters_of_blank blank, List.filter_eq_nil_iff] at silent
  intro letter inside
  simpa using silent letter inside

/-- A command that has words and keeps them when it is trimmed is framed. -/
theorem framed_of_splitCharacters_trim
    (spelled : Word.splitCharacters piece = .ok words)
    (kept : Word.splitCharacters (Text.trim piece) = .ok words)
    (some : words ≠ []) :
    Framed piece := by
  rcases Word.splitCharacters_eq_ok_iff.mp spelled with ⟨_, whole⟩
  rcases Word.splitCharacters_eq_ok_iff.mp kept with ⟨complete, trimmed⟩
  rcases Text.exists_blanks_around piece with ⟨front, back, blankFront, blankBack, parts⟩
  have firm : Text.Firm (Text.trim piece) := by
    apply Text.firm_trim
    intro none
    rw [none] at trimmed
    exact some trimmed.symm
  generalize Text.trim piece = core at parts firm complete trimmed
  subst parts
  have letters := congrArg List.flatten (whole.trans trimmed.symm)
  rw [Word.flatten_wordsOfMarks, Word.flatten_wordsOfMarks, Word.marks_append,
    after_of_blank blankFront, Word.marks_append, complete, List.filterMap_append,
    List.filterMap_append] at letters
  have lengths := congrArg List.length letters
  rw [List.length_append, List.length_append] at lengths
  refine .mk (separators_of_letters blankFront ?_) firm complete
    (separators_of_letters blankBack ?_)
  · apply List.eq_nil_of_length_eq_zero
    omega
  · apply List.eq_nil_of_length_eq_zero
    omega

end Cookbook.Chain
