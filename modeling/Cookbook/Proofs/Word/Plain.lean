import Cookbook.Proofs.Text.Trim
import Cookbook.Proofs.Word.Gap

/-!
# Plain texts

Quotes and backslashes are the characters that open, close and escape.  A text
without them leads to the same quoting state as any other such text: an escape
that was pending is over, and nothing else has changed.  So one plain text can
take the place of another without moving the quotes around it.
-/

namespace Cookbook.Word

variable
    {quoting : Quoting}
    {letter : Char}
    {text front back : List Char}
    {spelled : List Mark}

/-- A text without quotes and backslashes. -/
def Plain (text : List Char) : Prop :=
  ∀ letter ∈ text, letter ≠ '\'' ∧ letter ≠ '"' ∧ letter ≠ '\\'

instance (text : List Char) : Decidable (Plain text) :=
  List.decidableBAll _ text

theorem Plain.append
    (starts : Plain front)
    (ends : Plain back) :
    Plain (front ++ back) :=
  List.forall_mem_append.mpr ⟨starts, ends⟩

theorem plain_of_blank
    (blank : Text.Blank text) :
    Plain text := by
  intro letter inside
  have white := blank letter inside
  refine ⟨?_, ?_, ?_⟩
  all_goals
    rintro rfl
    cases white

/-- The state in which a pending escape is over. -/
def Quoting.settled : Quoting → Quoting
  | .bare => .bare
  | .single => .single
  | .double => .double
  | .bareEscape => .bare
  | .doubleEscape => .double

@[simp]
theorem Quoting.settled_settled
    (quoting : Quoting) :
    quoting.settled.settled = quoting.settled := by
  cases quoting <;> rfl

theorem Quoting.next_of_plain
    (plain : letter ≠ '\'' ∧ letter ≠ '"' ∧ letter ≠ '\\') :
    quoting.next letter = quoting.settled := by
  rcases plain with ⟨single, double, escape⟩
  cases quoting <;> simp [next, settled, single, double, escape]

/-- Every plain text that is not empty leads to the same state. -/
theorem Quoting.after_of_plain
    (plain : Plain text)
    (present : text ≠ []) :
    quoting.after text = quoting.settled := by
  induction text generalizing quoting with
  | nil => exact absurd rfl present
  | cons letter rest ih =>
    rcases List.forall_mem_cons.mp plain with ⟨first, later⟩
    rw [after_cons, next_of_plain first]
    by_cases last : rest = []
    · rw [last, after_nil]
    · rw [ih later last, settled_settled]

/-! ## Lines without words -/

theorem wordsOfMarks_eq_nil_iff :
    wordsOfMarks spelled = [] ↔ ∀ mark ∈ spelled, mark = .gap := by
  induction spelled with
  | nil => simp
  | cons mark rest ih =>
    cases mark with
    | gap => simp [ih]
    | opening => simp [wordsOfMarks, gather]
    | letter character => simp [wordsOfMarks, gather]

/-- A line that is complete and whose marks are all gaps holds only separators. -/
theorem isSeparator_of_gaps
    (ends : Quoting.bare.after text = .bare)
    (gaps : ∀ mark ∈ marks .bare text, mark = .gap) :
    ∀ letter ∈ text, isSeparator letter = true := by
  induction text with
  | nil => exact List.forall_mem_nil _
  | cons letter rest ih =>
    rw [marks, List.forall_mem_append] at gaps
    rcases gaps with ⟨now, later⟩
    by_cases separates : isSeparator letter = true
    · rw [Quoting.after_cons, next_separator separates] at ends
      rw [next_separator separates] at later
      exact List.forall_mem_cons.mpr ⟨separates, ih ends later⟩
    · by_cases escapes : letter = '\\'
      · subst escapes
        -- the escaped character would be a letter
        cases rest with
        | nil => cases ends
        | cons next rest =>
          have escaped := later (.letter next) List.mem_cons_self
          cases escaped
      · by_cases opens : letter = '\'' ∨ letter = '"'
        · simp [emit, separates, opens] at now
        · simp [emit, separates, opens, escapes] at now

theorem isSeparator_of_split
    {line : String}
    (empty : split line = .ok []) :
    ∀ letter ∈ line.toList, isSeparator letter = true := by
  rcases split_eq_ok_iff.mp empty with ⟨ends, none⟩
  exact isSeparator_of_gaps ends (wordsOfMarks_eq_nil_iff.mp none)

theorem isBlank_of_isSeparator
    (separates : isSeparator letter = true) :
    Text.isBlank letter = true := by
  simp only [isSeparator, Bool.or_eq_true, beq_iff_eq] at separates
  rcases separates with ((rfl | rfl) | rfl) | rfl <;> rfl

end Cookbook.Word
