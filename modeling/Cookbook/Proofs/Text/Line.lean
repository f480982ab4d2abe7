import Cookbook.Proofs.Text.Trim
import Cookbook.Text.Line

/-!
# Lines of a written text

Lines that hold no line boundary, each ended by a line feed, are the lines of
the text that they make.  Any text may stand in front of a line feed: its lines
and those of what follows are the lines of the whole.
-/

namespace Cookbook.Text

variable
    {letter : Char}
    {line front back rest : List Char}
    {written : List (List Char)}

/-- A text in which no line ends. -/
def Unbroken (text : List Char) : Prop :=
  ∀ letter ∈ text, isLineBreak letter = false

instance (text : List Char) : Decidable (Unbroken text) :=
  List.decidableBAll _ text

theorem Unbroken.append
    (starts : Unbroken front)
    (ends : Unbroken back) :
    Unbroken (front ++ back) :=
  List.forall_mem_append.mpr ⟨starts, ends⟩

theorem isBlank_of_isLineBreak
    (breaks : isLineBreak letter = true) :
    isBlank letter = true := by
  simp only [isLineBreak, isBlank, Bool.or_eq_true, Bool.and_eq_true, decide_eq_true_eq,
    beq_iff_eq] at breaks ⊢
  omega

/-- A text without blanks is one in which no line ends. -/
theorem unbroken_of_solid
    (solid : Solid line) :
    Unbroken line := by
  intro letter inside
  cases breaks : isLineBreak letter with
  | false => rfl
  | true =>
    have blank := isBlank_of_isLineBreak breaks
    rw [solid letter inside] at blank
    cases blank

theorem lines_cons_of_not_isLineBreak
    (continues : isLineBreak letter = false) :
    lines (letter :: rest) =
      match lines rest with
      | [] => [[letter]]
      | line :: further => (letter :: line) :: further := by
  rw [lines]
  · exact if_neg (Bool.eq_false_iff.mp continues)
  · rintro later rfl
    cases continues

/-- A line feed ends the line in front of it. -/
theorem lines_append_newline
    (unbroken : Unbroken line) :
    lines (line ++ '\n' :: rest) = line :: lines rest := by
  induction line with
  | nil =>
    show lines ('\n' :: rest) = [] :: lines rest
    rw [lines]
    · rfl
    · rintro later same
      cases same
  | cons letter line ih =>
    rcases List.forall_mem_cons.mp unbroken with ⟨first, later⟩
    rw [List.cons_append, lines_cons_of_not_isLineBreak first, ih later]

/-- Lines that are ended by line feeds are read back. -/
theorem lines_flatMap
    (unbroken : ∀ line ∈ written, Unbroken line) :
    lines (written.flatMap (· ++ ['\n'])) = written := by
  induction written with
  | nil => rfl
  | cons line rest ih =>
    rcases List.forall_mem_cons.mp unbroken with ⟨first, later⟩
    rw [List.flatMap_cons, List.append_assoc, List.singleton_append, lines_append_newline first,
      ih later]

theorem lines_newline
    (rest : List Char) :
    lines ('\n' :: rest) = [] :: lines rest :=
  lines_append_newline (List.forall_mem_nil _)

/-- A boundary is a whole one unless it is a carriage return before a line feed. -/
theorem lines_cons_of_isLineBreak
    (breaks : isLineBreak letter = true)
    (whole : ∀ later, letter = '\r' → rest ≠ '\n' :: later) :
    lines (letter :: rest) = [] :: lines rest := by
  rw [lines]
  · exact if_pos breaks
  · exact fun later same behind => whole later same behind

theorem lines_cons_ne_nil
    (letter : Char)
    (rest : List Char) :
    lines (letter :: rest) ≠ [] := by
  rw [lines.eq_def]
  split
  · rename_i none
    cases none
  · exact List.cons_ne_nil _ _
  · split
    · exact List.cons_ne_nil _ _
    · split
      · exact List.cons_ne_nil _ _
      · exact List.cons_ne_nil _ _

/--
A line feed ends the last line of the text in front of it.  Where that line has
an end already it is an empty line of its own, unless it is one boundary
together with a carriage return.
-/
theorem exists_lines_append_newline
    (front rest : List Char) :
    ∃ count, lines (front ++ '\n' :: rest) =
      lines front ++ List.replicate count [] ++ lines rest := by
  fun_induction lines front with
  | case1 => exact ⟨1, lines_newline rest⟩
  | case2 front ih =>
    rcases ih with ⟨count, split⟩
    refine ⟨count, ?_⟩
    show [] :: lines (front ++ '\n' :: rest) = _
    rw [split]
    rfl
  | case3 letter front whole breaks ih =>
    cases front with
    | nil =>
      by_cases back : letter = '\r'
      · subst back
        exact ⟨0, rfl⟩
      · refine ⟨1, ?_⟩
        have apart : ∀ later, letter = '\r' → '\n' :: rest ≠ '\n' :: later :=
          fun _ same => absurd same back
        show lines (letter :: '\n' :: rest) = _
        rw [lines_cons_of_isLineBreak breaks apart, lines_newline]
        rfl
    | cons next front =>
      rcases ih with ⟨count, split⟩
      refine ⟨count, ?_⟩
      have apart : ∀ later, letter = '\r' → next :: front ++ '\n' :: rest ≠ '\n' :: later := by
        rintro later same behind
        exact whole front same (by rw [(List.cons.inj behind).1])
      rw [List.cons_append, lines_cons_of_isLineBreak breaks apart, split]
      rfl
  | case4 letter front _ continues none ih =>
    cases front with
    | nil =>
      have unbroken : Unbroken [letter] :=
        List.forall_mem_singleton.mpr (Bool.eq_false_iff.mpr continues)
      exact ⟨0, lines_append_newline unbroken⟩
    | cons next front => exact absurd none (lines_cons_ne_nil next front)
  | case5 letter front _ continues line further some ih =>
    rcases ih with ⟨count, split⟩
    refine ⟨count, ?_⟩
    rw [List.cons_append, lines_cons_of_not_isLineBreak (Bool.eq_false_iff.mpr continues), split,
      some]
    rfl

/-- One kind of line end or several, the lines are the same. -/
theorem lines_unifyNewlines
    (text : List Char) :
    lines (unifyNewlines text) = lines text := by
  fun_induction unifyNewlines text with
  | case1 => rfl
  | case2 rest ih =>
    rw [lines_newline, ih]
    rfl
  | case3 rest alone ih =>
    rw [lines_newline, ih, lines_cons_of_isLineBreak rfl]
    rintro later _ rfl
    exact alone later rfl
  | case4 letter rest _ other ih =>
    cases breaks : isLineBreak letter with
    | false =>
      rw [lines_cons_of_not_isLineBreak breaks, lines_cons_of_not_isLineBreak breaks, ih]
    | true =>
      have whole : ∀ rest later, letter = '\r' → rest ≠ '\n' :: later :=
        fun _ _ same => absurd same other
      rw [lines_cons_of_isLineBreak breaks (whole _), lines_cons_of_isLineBreak breaks (whole _),
        ih]

/-! ## Fields -/

/-- A text without blanks that ends at a blank is a field of its own. -/
theorem fields_append
    (solid : Solid front)
    (present : front ≠ [])
    (ends : ∀ letter ∈ rest.head?, isBlank letter = true) :
    fields (front ++ rest) = front :: fields rest := by
  induction front with
  | nil => exact absurd rfl present
  | cons letter front ih =>
    rcases List.forall_mem_cons.mp solid with ⟨first, later⟩
    have kept : ¬isBlank letter = true := Bool.eq_false_iff.mp first
    cases front with
    | nil =>
      cases rest with
      | nil => simp [fields, first]
      | cons next rest =>
        have blank : isBlank next = true := ends next rfl
        show fields (letter :: next :: rest) = _
        rw [fields, if_neg kept]
        simp only [if_pos blank]
    | cons next front =>
      have inner := ih later (List.cons_ne_nil next front)
      have joined : ¬isBlank next = true := Bool.eq_false_iff.mp (later next List.mem_cons_self)
      show fields (letter :: next :: (front ++ rest)) = _
      rw [fields, if_neg kept]
      simp only [if_neg joined]
      rw [show next :: (front ++ rest) = next :: front ++ rest from rfl, inner]

/-- Fields with a space in front of each are read back. -/
theorem fields_flatMap
    (solid : ∀ field ∈ written, field ≠ [] ∧ Solid field) :
    fields (written.flatMap (' ' :: ·)) = written := by
  induction written with
  | nil => rfl
  | cons field others ih =>
    rcases List.forall_mem_cons.mp solid with ⟨⟨present, first⟩, later⟩
    rw [List.flatMap_cons, List.cons_append, fields_blank ' ' _ rfl, fields_append first present,
      ih later]
    intro letter ahead
    cases others with
    | nil => cases ahead
    | cons next others =>
      cases ahead
      rfl

end Cookbook.Text
