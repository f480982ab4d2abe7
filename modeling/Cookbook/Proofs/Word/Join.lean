import Cookbook.Proofs.Chain.Cut
import Cookbook.Proofs.Text.Trim
import Cookbook.Proofs.Word.Gap

/-!
# Reading back written words

A word that is written on a command line, with the quotes it needs, is read
back as that word, and words written with spaces between them are read back in
order.  Nothing of the written line is met as an operator, and a blank stands
at neither of its ends.
-/

namespace Cookbook.Word

open Chain (Guarded guarded_append guarded_cons guarded_nil isOperator)
open Text (Firm)

variable
    {first middle last : Quoting}
    {letter : Char}
    {text front back word line : List Char}
    {words : List (List Char)}
    {spelled : List Mark}

/-! ## Stretches of one word -/

/-- Marks without a gap, if there are any, spell one word. -/
theorem wordsOfMarks_of_solid
    (solid : .gap ∉ spelled)
    (present : spelled ≠ []) :
    wordsOfMarks spelled = [spelled.filterMap Mark.letter?] := by
  induction spelled with
  | nil => exact absurd rfl present
  | cons mark rest ih =>
    have later : .gap ∉ rest := fun inside => solid (List.mem_cons_of_mem mark inside)
    have closed : (gather rest).2 = [] := by
      by_contra some
      rcases List.exists_cons_of_ne_nil some with ⟨_, _, others⟩
      rcases exists_gap_of_closed others with ⟨_, _, rfl, _⟩
      exact later (List.mem_append_right _ List.mem_cons_self)
    have flat := flatten_wordsOfMarks (mark :: rest)
    cases mark with
    | gap => exact absurd List.mem_cons_self solid
    | opening => simpa [wordsOfMarks, gather, closed] using flat
    | letter character => simpa [wordsOfMarks, gather, closed] using flat

/--
A text leads from one quoting state to another inside a word, spells letters of
that word, and holds no operator that counts.
-/
structure Spells (first last : Quoting) (text word : List Char) : Prop where
  ends : first.after text = last
  solid : .gap ∉ marks first text
  letters : (marks first text).filterMap Mark.letter? = word
  guarded : Guarded first text

theorem Spells.nil :
    Spells first first [] [] :=
  ⟨rfl, List.not_mem_nil, rfl, guarded_nil⟩

theorem Spells.append
    {later : List Char}
    (spells : Spells first middle front word)
    (continues : Spells middle last back later) :
    Spells first last (front ++ back) (word ++ later) := by
  constructor
  · rw [Quoting.after_append, spells.ends, continues.ends]
  · rw [marks_append, spells.ends, List.mem_append, not_or]
    exact ⟨spells.solid, continues.solid⟩
  · rw [marks_append, spells.ends, List.filterMap_append, spells.letters, continues.letters]
  · rw [guarded_append, spells.ends]
    exact ⟨spells.guarded, continues.guarded⟩

theorem spells_opening :
    Spells .bare .single ['\''] [] := by
  refine ⟨rfl, by decide, rfl, ?_⟩
  simp [isOperator]

theorem spells_closing :
    Spells .single .bare ['\''] [] := by
  refine ⟨rfl, by decide, rfl, ?_⟩
  simp

theorem quotedCharacter_of_ne
    (plain : letter ≠ '\'') :
    quotedCharacter letter = [letter] := by
  simp [quotedCharacter, plain]

/-- Between single quotes a character is written as what spells it there. -/
theorem spells_quotedCharacter
    (letter : Char) :
    Spells .single .single (quotedCharacter letter) [letter] := by
  by_cases quotes : letter = '\''
  · subst quotes
    refine ⟨rfl, by decide, rfl, ?_⟩
    simp [quotedCharacter, Quoting.next, isOperator]
  · rw [quotedCharacter_of_ne quotes]
    constructor
    · simp [Quoting.next, quotes]
    · simp [marks, emit, quotes]
    · simp [marks, emit, quotes, Mark.letter?]
    · simp

theorem spells_flatMap_quotedCharacter
    (word : List Char) :
    Spells .single .single (word.flatMap quotedCharacter) word := by
  induction word with
  | nil => exact .nil
  | cons letter word ih => exact (spells_quotedCharacter letter).append ih

/-! ## Safe characters -/

theorem ne_of_isSafe
    {other : Char}
    (safe : isSafe letter = true)
    (special : isSafe other = false) :
    letter ≠ other := by
  rintro rfl
  rw [safe] at special
  cases special

theorem isOperator_of_isSafe
    (safe : isSafe letter = true) :
    isOperator letter = false := by
  have differs (other : Char) (special : isSafe other = false) := ne_of_isSafe safe special
  simp [isOperator, differs '|' rfl, differs ';' rfl, differs '<' rfl, differs '>' rfl,
    differs '&' rfl]

theorem toNat_of_isAlphanum
    (alphanumeric : letter.isAlphanum = true) :
    48 ≤ letter.toNat ∧ letter.toNat ≤ 122 := by
  change ((letter.isUpper || letter.isLower) || letter.isDigit) = true at alphanumeric
  rw [Bool.or_eq_true, Bool.or_eq_true, Char.isDigit_iff_toNat] at alphanumeric
  rcases alphanumeric with (upper | lower) | digit
  · have range : 'A'.val ≤ letter.val ∧ letter.val ≤ 'Z'.val := of_decide_eq_true upper
    have above : 65 ≤ letter.toNat := UInt32.le_iff_toNat_le.mp range.1
    have below : letter.toNat ≤ 90 := UInt32.le_iff_toNat_le.mp range.2
    omega
  · have range := Bool.and_eq_true_iff.mp lower
    have above : 97 ≤ letter.toNat := UInt32.le_iff_toNat_le.mp (of_decide_eq_true range.1)
    have below : letter.toNat ≤ 122 := UInt32.le_iff_toNat_le.mp (of_decide_eq_true range.2)
    omega
  · have above : 48 ≤ letter.toNat := digit.1
    have below : letter.toNat ≤ 57 := digit.2
    omega

/-- A safe character lies between the blanks of the ASCII range and the others. -/
theorem isBlank_of_isSafe
    (safe : isSafe letter = true) :
    Text.isBlank letter = false := by
  have range : 33 ≤ letter.toNat ∧ letter.toNat ≤ 122 := by
    rw [isSafe, Bool.or_eq_true, List.contains_iff_mem] at safe
    rcases safe with alphanumeric | symbol
    · have inside := toNat_of_isAlphanum alphanumeric
      omega
    · have each : ("@%+=:,./_-".toList.all
          fun other => 33 ≤ other.toNat ∧ other.toNat ≤ 122) = true := by
        decide
      exact of_decide_eq_true (List.all_eq_true.mp each letter symbol)
  simp only [Text.isBlank, Bool.or_eq_false_iff, Bool.and_eq_false_iff, decide_eq_false_iff_not,
    beq_eq_false_iff_ne]
  omega

theorem spells_safe
    (safe : ∀ letter ∈ word, isSafe letter = true) :
    Spells .bare .bare word word := by
  induction word with
  | nil => exact .nil
  | cons letter word ih =>
    rcases List.forall_mem_cons.mp safe with ⟨plain, later⟩
    have differs (other : Char) (special : isSafe other = false) := ne_of_isSafe plain special
    have start : Spells .bare .bare [letter] [letter] := by
      have emitted : emit .bare letter = [.letter letter] := by
        simp [emit, isSeparator, differs ' ' rfl, differs '\t' rfl, differs '\r' rfl,
          differs '\n' rfl, differs '\'' rfl, differs '"' rfl, differs '\\' rfl]
      have stays : Quoting.bare.next letter = .bare :=
        Chain.next_of_ordinary ⟨differs '\'' rfl, differs '"' rfl⟩ (differs '\\' rfl)
      constructor
      · exact stays
      · simp [marks, emitted]
      · simp [marks, emitted, Mark.letter?]
      · simp [isOperator_of_isSafe plain]
    exact start.append (ih later)

/-! ## Written words -/

/--
A line is read as the given words and leaves no quotation open, it holds no
operator that counts, and no blank stands at its ends.
-/
structure Writes (line : List Char) (words : List (List Char)) : Prop where
  ends : Quoting.bare.after line = .bare
  spelled : wordsOfMarks (marks .bare line) = words
  guarded : Guarded .bare line
  firm : Firm line

theorem Writes.cons
    (one : Writes front [word])
    (others : Writes back words) :
    Writes (front ++ ' ' :: back) (word :: words) := by
  constructor
  · rw [Quoting.after_append, one.ends, Quoting.after_cons]
    exact others.ends
  · rw [marks_append, one.ends]
    show wordsOfMarks (marks .bare front ++ .gap :: marks .bare back) = _
    rw [wordsOfMarks_append_gap, one.spelled, others.spelled, List.singleton_append]
  · rw [guarded_append, one.ends, guarded_cons]
    exact ⟨one.guarded, by simp [isOperator], others.guarded⟩
  · rw [List.append_cons]
    exact one.firm.around others.firm

theorem Spells.writes
    (spells : Spells .bare .bare line word)
    (marked : marks .bare line ≠ [])
    (firm : Firm line) :
    Writes line [word] := by
  constructor
  · exact spells.ends
  · rw [wordsOfMarks_of_solid spells.solid marked, spells.letters]
  · exact spells.guarded
  · exact firm

/-- A word is written as it is or between single quotes. -/
theorem quote_eq_or
    (word : List Char) :
    (quote word = word ∧ word ≠ [] ∧ ∀ letter ∈ word, isSafe letter = true) ∨
      quote word = ['\''] ++ word.flatMap quotedCharacter ++ ['\''] := by
  cases word with
  | nil => exact Or.inr rfl
  | cons letter rest =>
    by_cases safe : (letter :: rest).all isSafe = true
    · left
      refine ⟨?_, List.cons_ne_nil letter rest, List.all_eq_true.mp safe⟩
      simp only [quote, List.isEmpty_cons, safe]
      rfl
    · right
      simp only [quote, List.isEmpty_cons, safe]
      rfl

/-- A written word is read back. -/
theorem writes_quote
    (word : List Char) :
    Writes (quote word) [word] := by
  rcases quote_eq_or word with ⟨plain, present, safe⟩ | quoted
  · have spells := spells_safe safe
    rw [plain]
    apply spells.writes
    · intro unmarked
      have letters := spells.letters
      rw [unmarked] at letters
      exact present letters.symm
    · exact Text.firm_of_solid (fun letter inside => isBlank_of_isSafe (safe letter inside)) present
  · have mark : Firm ['\''] := Text.firm_of_solid (List.forall_mem_singleton.mpr rfl) (by simp)
    rw [quoted]
    apply Spells.writes
    · have inner := spells_opening.append (spells_flatMap_quotedCharacter word)
      have whole := inner.append spells_closing
      rwa [List.nil_append, List.append_nil] at whole
    · rw [List.append_assoc]
      exact List.cons_ne_nil _ _
    · exact mark.around mark

/-- Words that are written on one line are read back. -/
theorem writes_joinCharacters
    (present : words ≠ []) :
    Writes (joinCharacters words) words := by
  induction words with
  | nil => exact absurd rfl present
  | cons word rest ih =>
    cases rest with
    | nil => exact writes_quote word
    | cons next rest => exact (writes_quote word).cons (ih (List.cons_ne_nil next rest))

end Cookbook.Word
