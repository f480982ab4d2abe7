import Cookbook.Word.Split

/-!
# Gaps between words

The words of marks divide at every gap, and a gap comes from a separator that
is read outside quotes.  So a line with at least two words divides at a
separator into the text that spells the first word and the text that spells
the others.
-/

namespace Cookbook.Word

variable
    {quoting : Quoting}
    {letter : Char}
    {line : List Char}
    {front back : List Mark}

theorem gather_append_gap :
    gather (front ++ .gap :: back) =
      ((gather front).1, (gather front).2 ++ wordsOfMarks back) := by
  induction front with
  | nil => rfl
  | cons mark rest ih =>
    cases mark <;> simp [gather, ih]

/-- Words divide at a gap. -/
theorem wordsOfMarks_append_gap :
    wordsOfMarks (front ++ .gap :: back) = wordsOfMarks front ++ wordsOfMarks back := by
  simp [wordsOfMarks, gather_append_gap]

/-- Before the first word that is closed at its left end stands a gap. -/
theorem exists_gap_of_closed
    {spelled : List Mark}
    {word : List Char}
    {words : List (List Char)}
    (closed : (gather spelled).2 = word :: words) :
    ∃ front back,
      spelled = front ++ .gap :: back ∧ (gather front).2 = [] ∧
        wordsOfMarks back = word :: words := by
  induction spelled with
  | nil => cases closed
  | cons mark rest ih =>
    cases mark with
    | gap => exact ⟨[], rest, rfl, rfl, closed⟩
    | opening =>
      rcases ih closed with ⟨front, back, rfl, single, others⟩
      exact ⟨.opening :: front, back, rfl, single, others⟩
    | letter character =>
      rcases ih closed with ⟨front, back, rfl, single, others⟩
      exact ⟨.letter character :: front, back, rfl, single, others⟩

/-- The first of several words is spelled by the marks before a gap. -/
theorem exists_gap_of_wordsOfMarks
    {spelled : List Mark}
    {first second : List Char}
    {others : List (List Char)}
    (spells : wordsOfMarks spelled = first :: second :: others) :
    ∃ front back,
      spelled = front ++ .gap :: back ∧ wordsOfMarks front = [first] ∧
        wordsOfMarks back = second :: others := by
  induction spelled with
  | nil => cases spells
  | cons mark rest ih =>
    cases mark with
    | gap =>
      rw [wordsOfMarks_gap] at spells
      rcases ih spells with ⟨front, back, rfl, single, later⟩
      exact ⟨.gap :: front, back, rfl, by rw [wordsOfMarks_gap, single], later⟩
    | opening =>
      have opened := List.head_eq_of_cons_eq spells
      have closed : (gather rest).2 = second :: others := List.tail_eq_of_cons_eq spells
      rcases exists_gap_of_closed closed with ⟨front, back, rfl, single, later⟩
      refine ⟨.opening :: front, back, rfl, ?_, later⟩
      rw [gather_append_gap] at opened
      simp [wordsOfMarks, gather, single, opened]
    | letter character =>
      have opened := List.head_eq_of_cons_eq spells
      have closed : (gather rest).2 = second :: others := List.tail_eq_of_cons_eq spells
      rcases exists_gap_of_closed closed with ⟨front, back, rfl, single, later⟩
      refine ⟨.letter character :: front, back, rfl, ?_, later⟩
      rw [gather_append_gap] at opened
      simp [wordsOfMarks, gather, single, opened]

/-- A character that yields a gap is a separator outside quotes and yields nothing else. -/
theorem of_gap_mem_emit
    (yields : .gap ∈ emit quoting letter) :
    quoting = .bare ∧ isSeparator letter = true := by
  cases quoting with
  | bare =>
    refine ⟨rfl, ?_⟩
    simp only [emit] at yields
    split at yields
    · assumption
    · split at yields
      · simp at yields
      · split at yields <;> simp at yields
  | single =>
    simp only [emit] at yields
    split at yields <;> simp at yields
  | double =>
    simp only [emit] at yields
    split at yields <;> simp at yields
  | bareEscape => simp [emit] at yields
  | doubleEscape =>
    simp only [emit] at yields
    split at yields <;> simp at yields

theorem next_separator
    (separates : isSeparator letter = true) :
    Quoting.bare.next letter = .bare := by
  simp only [isSeparator, Bool.or_eq_true, beq_iff_eq] at separates
  rcases separates with ((rfl | rfl) | rfl) | rfl <;> rfl

/-- A gap comes from a separator that is read outside quotes. -/
theorem exists_separator_of_marks
    (spelled : marks quoting line = front ++ .gap :: back) :
    ∃ before separator after,
      line = before ++ separator :: after ∧ marks quoting before = front ∧
        quoting.after before = .bare ∧ isSeparator separator = true ∧
        marks .bare after = back := by
  induction line generalizing quoting front with
  | nil => simp at spelled
  | cons letter rest ih =>
    rw [marks] at spelled
    by_cases separates : .gap ∈ emit quoting letter
    · rcases of_gap_mem_emit separates with ⟨rfl, separator⟩
      simp only [emit, separator, if_true, next_separator separator,
        List.singleton_append] at spelled
      cases front with
      | nil => exact ⟨[], letter, rest, rfl, rfl, rfl, separator, List.cons.inj spelled |>.2⟩
      | cons mark front =>
        rcases List.cons.inj spelled with ⟨rfl, later⟩
        rcases ih later with ⟨before, middle, after, rfl, spells, bare, separates, ends⟩
        refine ⟨letter :: before, middle, after, rfl, ?_, ?_, separates, ends⟩
        · simp only [marks, emit, separator, if_true, next_separator separator, spells]
          rfl
        · rw [Quoting.after_cons, next_separator separator]
          exact bare
    · rcases List.append_eq_append_iff.mp spelled with ⟨extra, rfl, later⟩ | ⟨extra, whole, later⟩
      · rcases ih later with ⟨before, middle, after, rfl, rfl, bare, separates, ends⟩
        exact ⟨letter :: before, middle, after, rfl, rfl, bare, separates, ends⟩
      · cases extra with
        | nil =>
          rw [List.append_nil] at whole
          rcases @ih _ [] later.symm with
            ⟨before, middle, after, rfl, silent, bare, separates, ends⟩
          refine ⟨letter :: before, middle, after, rfl, ?_, bare, separates, ends⟩
          rw [marks, silent, whole, List.append_nil]
        | cons mark extra =>
          rcases List.cons.inj later with ⟨rfl, _⟩
          rw [whole] at separates
          exact absurd (List.mem_append_right front List.mem_cons_self) separates

/-! ## Letters -/

/-- The letter that a mark stands for. -/
def Mark.letter? : Mark → Option Char
  | .letter character => some character
  | _ => none

/-- Words hold the letters of their marks, in order. -/
theorem flatten_wordsOfMarks
    (spelled : List Mark) :
    (wordsOfMarks spelled).flatten = spelled.filterMap Mark.letter? := by
  induction spelled with
  | nil => rfl
  | cons mark rest ih =>
    rw [wordsOfMarks, List.flatten_append] at ih
    cases mark with
    | gap =>
      rw [wordsOfMarks_gap, wordsOfMarks, List.flatten_append]
      exact ih
    | opening =>
      rw [List.filterMap_cons_none rfl, ← ih]
      cases opened : (gather rest).1 <;> simp [wordsOfMarks, gather, opened]
    | letter character =>
      change _ = character :: rest.filterMap Mark.letter?
      rw [← ih]
      cases opened : (gather rest).1 <;> simp [wordsOfMarks, gather, opened]

theorem letter_mem_marks
    {plain : Char}
    (kept : ∀ quoting, .letter plain ∈ emit quoting plain)
    (present : plain ∈ line) :
    .letter plain ∈ marks quoting line := by
  induction line generalizing quoting with
  | nil => cases present
  | cons first rest ih =>
    rw [marks]
    rcases List.mem_cons.mp present with rfl | later
    · exact List.mem_append_left _ (kept quoting)
    · exact List.mem_append_right _ (ih later)

theorem of_letter_mem_emit
    {character : Char}
    (yields : .letter character ∈ emit quoting letter) :
    character = letter ∨ character = '\\' := by
  cases quoting with
  | bare =>
    simp only [emit] at yields
    split at yields
    · simp at yields
    · split at yields
      · simp at yields
      · split at yields <;> simp_all
  | single =>
    simp only [emit] at yields
    split at yields <;> simp_all
  | double =>
    simp only [emit] at yields
    split at yields <;> simp_all
  | bareEscape => simp_all [emit]
  | doubleEscape =>
    simp only [emit] at yields
    split at yields
    · simp_all
    · simpa [or_comm] using yields

theorem mem_of_letter_mem_marks
    (spells : .letter letter ∈ marks quoting line) :
    letter ∈ line ∨ letter = '\\' := by
  induction line generalizing quoting with
  | nil => cases spells
  | cons first rest ih =>
    rw [marks] at spells
    rcases List.mem_append.mp spells with now | later
    · rcases of_letter_mem_emit now with rfl | backslash
      · exact Or.inl List.mem_cons_self
      · exact Or.inr backslash
    · rcases ih later with present | backslash
      · exact Or.inl (List.mem_cons_of_mem first present)
      · exact Or.inr backslash

/-- A letter of a word stands in the line or is a backslash. -/
theorem mem_line_of_mem_word
    {word : List Char}
    (member : word ∈ wordsOfMarks (marks quoting line))
    (inside : letter ∈ word) :
    letter ∈ line ∨ letter = '\\' := by
  have spelled : letter ∈ (wordsOfMarks (marks quoting line)).flatten :=
    List.mem_flatten_of_mem member inside
  rw [flatten_wordsOfMarks] at spelled
  rcases List.mem_filterMap.mp spelled with ⟨mark, present, same⟩
  cases mark with
  | gap => cases same
  | opening => cases same
  | letter character =>
    rw [← Option.some.inj same]
    exact mem_of_letter_mem_marks present

/-- A letter that is never special belongs to a word wherever it stands. -/
theorem exists_word_of_mem_line
    {plain : Char}
    (kept : ∀ quoting, .letter plain ∈ emit quoting plain)
    (present : plain ∈ line) :
    ∃ word ∈ wordsOfMarks (marks quoting line), plain ∈ word := by
  have spelled : plain ∈ (wordsOfMarks (marks quoting line)).flatten := by
    rw [flatten_wordsOfMarks]
    exact List.mem_filterMap.mpr ⟨.letter plain, letter_mem_marks kept present, rfl⟩
  exact List.mem_flatten.mp spelled

/-! ## Lines -/

theorem splitCharacters_eq_ok_iff
    {words : List (List Char)} :
    splitCharacters line = .ok words ↔
      Quoting.bare.after line = .bare ∧ wordsOfMarks (marks .bare line) = words := by
  simp only [splitCharacters]
  split <;> simp_all

theorem split_eq_ok_iff
    {text : String}
    {words : List String} :
    split text = .ok words ↔
      Quoting.bare.after text.toList = .bare ∧
        wordsOfMarks (marks .bare text.toList) = words.map String.toList := by
  simp only [split]
  cases spelled : splitCharacters text.toList with
  | error cause =>
    have unfinished : Quoting.bare.after text.toList ≠ .bare := fun bare => by
      rw [splitCharacters_eq_ok_iff.mpr ⟨bare, rfl⟩] at spelled
      cases spelled
    simp [Except.map, unfinished]
  | ok found =>
    rcases splitCharacters_eq_ok_iff.mp spelled with ⟨bare, rfl⟩
    simp only [Except.map, Except.ok.injEq, bare, true_and]
    constructor
    · rintro rfl
      simp
    · intro same
      simp [same]

/-- A line with several words divides at a separator behind its first word. -/
theorem exists_separator_of_split
    {text first second : String}
    {others : List String}
    (spells : split text = .ok (first :: second :: others)) :
    ∃ before separator after,
      text.toList = before ++ separator :: after ∧ Quoting.bare.after before = .bare ∧
        isSeparator separator = true ∧ wordsOfMarks (marks .bare before) = [first.toList] := by
  rcases exists_gap_of_wordsOfMarks (split_eq_ok_iff.mp spells).2 with
    ⟨front, back, divided, single, _⟩
  rcases exists_separator_of_marks divided with
    ⟨before, separator, after, whole, rfl, bare, separates, _⟩
  exact ⟨before, separator, after, whole, bare, separates, single⟩

/-- The text before a separator outside quotes spells the first word, whatever comes later. -/
theorem head?_of_split
    {text first : String}
    {words : List String}
    {before later : List Char}
    (written : text.toList = before ++ letter :: later)
    (bare : Quoting.bare.after before = .bare)
    (separates : isSeparator letter = true)
    (single : wordsOfMarks (marks .bare before) = [first.toList])
    (spells : split text = .ok words) :
    words.head? = some first := by
  have spelled := (split_eq_ok_iff.mp spells).2
  rw [written, marks_append, bare, marks, emit, if_pos separates, List.singleton_append,
    wordsOfMarks_append_gap, single] at spelled
  cases words with
  | nil => cases spelled
  | cons word rest =>
    rw [List.map_cons, List.singleton_append, List.cons.injEq, String.toList_inj] at spelled
    rw [spelled.1]
    rfl

end Cookbook.Word
