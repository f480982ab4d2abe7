import Cookbook.Proofs.Template.Literal
import Cookbook.Proofs.Word.Gap

/-!
# Words before and after substitution

A step is read twice: as it is written, when its command line is cut, and with
the values of its variables filled in, when it runs.  The first word is the
same both times if it is followed by a gap and holds no braces; a step without
braces has the same words both times.
-/

namespace Cookbook.Step

variable
    {step : Step}
    {bindings : Bindings}
    {recipe : Option String}
    {words : List String}

theorem exists_line_of_words
    (filled : step.words bindings recipe = .ok words) :
    ∃ line, bindings.expand step.line recipe = .ok line ∧ Word.split line = .ok words := by
  simp only [Step.words] at filled
  split at filled
  · cases filled
  · split at filled
    · cases filled
    · split at filled
      · cases filled
      · rename_i line expanded
        refine ⟨line, expanded, ?_⟩
        split at filled
        · cases filled
        · cases filled
        · rename_i spelled
          rw [spelled, Except.ok.inj filled]

theorem words_of_free
    {written : List String}
    (free : '{' ∉ step.line.toList)
    (spelled : Word.split step.line = .ok written)
    (filled : step.words bindings recipe = .ok words) :
    words = written := by
  rcases exists_line_of_words filled with ⟨line, expanded, split⟩
  rw [Bindings.expand_of_free free] at expanded
  cases expanded
  rw [spelled] at split
  exact (Except.ok.inj split).symm

/--
The first of several written words, when it holds no braces, is also the first
word after substitution: the line divides at a separator behind it, and no
placeholder begins before that.
-/
theorem head?_words
    {first second : String}
    {others : List String}
    (spelled : Word.split step.line = .ok (first :: second :: others))
    (free : '{' ∉ first.toList)
    (filled : step.words bindings recipe = .ok words) :
    words.head? = some first := by
  rcases exists_line_of_words filled with ⟨line, expanded, split⟩
  rcases Word.exists_separator_of_split spelled with
    ⟨before, separator, after, whole, bare, separates, single⟩
  have kept : ∀ quoting, .letter '{' ∈ Word.emit quoting '{' := by
    intro quoting
    cases quoting <;> simp [Word.emit, Word.isSeparator]
  have outside : '{' ∉ before ++ [separator] := by
    intro inside
    rcases List.mem_append.mp inside with early | last
    · rcases @Word.exists_word_of_mem_line .bare before '{' kept early with ⟨word, member, brace⟩
      rw [single, List.mem_singleton] at member
      exact free (member ▸ brace)
    · rw [← List.mem_singleton.mp last] at separates
      cases separates
  rw [List.append_cons] at whole
  rcases Bindings.exists_of_expand_append outside whole expanded with ⟨later, written⟩
  rw [← List.append_cons] at written
  exact Word.head?_of_split written bare separates single split

theorem place_of_free
    (free : ∀ directory, step.directory = some directory → '{' ∉ directory.toList) :
    step.place bindings recipe = .ok step.directory := by
  cases given : step.directory with
  | none => simp only [Step.place, given]
  | some directory =>
    simp only [Step.place, given, Bindings.expand_of_free (free directory given)]
    rfl

/-! ## Steps without words -/

/-- Why a step has no words. -/
inductive Refusal (step : Step) (bindings : Bindings) (recipe : Option String) : Failure → Prop
  | cut {problem : TemplateProblem}
      (refused : Chain.segments step.line = .error problem) :
      Refusal step bindings recipe (.badTemplate step.line problem recipe)
  | chain {segments : List String}
      (cut : Chain.segments step.line = .ok segments)
      (several : 1 < segments.length) :
      Refusal step bindings recipe (.badTemplate step.line .chainInCommand recipe)
  | expansion {failure : Failure}
      (refused : bindings.expand step.line recipe = .error failure) :
      Refusal step bindings recipe failure
  | unfinished {line : String} {cause : Word.Unfinished}
      (expanded : bindings.expand step.line recipe = .ok line)
      (refused : Word.split line = .error cause) :
      Refusal step bindings recipe (.badTemplate step.line (.unfinished cause) recipe)
  | empty {line : String}
      (expanded : bindings.expand step.line recipe = .ok line)
      (none : Word.split line = .ok []) :
      Refusal step bindings recipe (.badTemplate step.line .emptyCommand recipe)

theorem refusal_of_words
    {failure : Failure}
    (refused : step.words bindings recipe = .error failure) :
    Refusal step bindings recipe failure := by
  simp only [Step.words] at refused
  split at refused
  · rename_i problem cut
    cases refused
    exact .cut cut
  · rename_i segments cut
    split at refused
    · rename_i several
      cases refused
      exact .chain cut several
    · split at refused
      · rename_i cause unexpanded
        cases refused
        exact .expansion unexpanded
      · rename_i line expanded
        split at refused
        · rename_i cause unfinished
          cases refused
          exact .unfinished expanded unfinished
        · rename_i empty
          cases refused
          exact .empty expanded empty
        · cases refused

end Cookbook.Step
