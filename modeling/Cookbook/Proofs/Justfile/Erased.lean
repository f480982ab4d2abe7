import Cookbook.Justfile.Reading
import Cookbook.Proofs.Except

/-!
# Numbers of lines

The numbers of lines are kept for reports only.  Erasing them commutes with
reading a line and with drafting a book, so what a justfile describes does not
depend on the numbers that its lines have.
-/

namespace Cookbook.Justfile

variable
    {quiet : Bool}
    {body renumbered : List Numbered}
    {unfinished : Option Numbered}
    {lines : List (List Char)}
    {reading other later : Reading}

/-! ## Erasing numbers -/

def Numbered.erased (line : Numbered) : Numbered :=
  { line with number := 0 }

def Fault.erased (fault : Fault) : Fault :=
  { fault with number := 0 }

def AliasLine.erased (written : AliasLine) : AliasLine :=
  { written with number := 0 }

def Sketch.erased (sketch : Sketch) : Sketch :=
  { sketch with body := sketch.body.map Numbered.erased }

/-- What is known without the numbers of the lines on which it was written. -/
def Reading.erased (reading : Reading) : Reading :=
  { reading with
    aliases := reading.aliases.map AliasLine.erased
    complete := reading.complete.map Sketch.erased
    current := reading.current.map Sketch.erased }

/-! ## Bodies -/

theorem Numbered.after_erased
    (line : Numbered) :
    line.erased.after (unfinished.map Numbered.erased) = (line.after unfinished).erased := by
  cases unfinished with
  | none => rfl
  | some front => rfl

theorem mergeFrom_erased :
    mergeFrom (unfinished.map Numbered.erased) (body.map Numbered.erased) =
      (List.map Numbered.erased <$> mergeFrom unfinished body).mapError Fault.erased := by
  induction body generalizing unfinished with
  | nil =>
    cases unfinished with
    | none => rfl
    | some front => rfl
  | cons line rest ih =>
    have same : (line.after unfinished).erased.isUnfinished =
        (line.after unfinished).isUnfinished := rfl
    simp only [List.map_cons, mergeFrom, Numbered.after_erased, same]
    split
    · exact @ih (some (line.after unfinished).withoutBackslash)
    · have behind := @ih none
      rw [Option.map_none] at behind
      rw [behind]
      cases mergeFrom none rest with
      | error fault => rfl
      | ok merged => rfl

theorem stepsOfLines_erased :
    stepsOfLines quiet (body.map Numbered.erased) =
      (stepsOfLines quiet body).mapError Fault.erased := by
  induction body with
  | nil => rfl
  | cons line rest ih =>
    have same : line.erased.text = line.text := rfl
    rw [List.map_cons, stepsOfLines, stepsOfLines, same, ih]
    split
    · rfl
    · cases stepsOfLines quiet rest with
      | error fault => rfl
      | ok steps => rfl

/-- The steps of a body are cut from its texts. -/
theorem stepsOfBody_erased :
    stepsOfBody quiet (body.map Numbered.erased) =
      (stepsOfBody quiet body).mapError Fault.erased := by
  have merged := @mergeFrom_erased body none
  rw [Option.map_none] at merged
  rw [stepsOfBody, stepsOfBody, merge, merge, merged]
  cases mergeFrom none body with
  | error fault => rfl
  | ok lines => exact stepsOfLines_erased

/-- The steps of a body do not depend on the numbers of its lines. -/
theorem stepsOfBody_of_erased
    {steps : List Step}
    (alike : renumbered.map Numbered.erased = body.map Numbered.erased)
    (cut : stepsOfBody quiet body = .ok steps) :
    stepsOfBody quiet renumbered = .ok steps := by
  have whole : (stepsOfBody quiet renumbered).mapError Fault.erased = .ok steps := by
    rw [← stepsOfBody_erased, alike, stepsOfBody_erased, cut]
    rfl
  exact eq_ok_of_mapError_eq_ok whole

/-! ## Drafts -/

namespace Reading

theorem sketches_erased
    (reading : Reading) :
    reading.erased.sketches = reading.sketches.map Sketch.erased := by
  rw [sketches, sketches, List.map_append, ← Option.toList_map]
  rfl

theorem names_erased
    (sketches : List Sketch) :
    (sketches.map Sketch.erased).map Sketch.name = sketches.map Sketch.name := by
  rw [List.map_map]
  rfl

theorem aliasesOf_erased
    (reading : Reading)
    (name : String) :
    reading.erased.aliasesOf name = reading.aliasesOf name := by
  simp only [aliasesOf, erased, List.filter_map, List.map_map]
  rfl

theorem danglingAlias?_erased
    (reading : Reading) :
    reading.erased.danglingAlias? = reading.danglingAlias?.map AliasLine.erased := by
  rw [danglingAlias?, sketches_erased, names_erased]
  exact List.find?_map

theorem recipesOf_erased
    (sketches : List Sketch) :
    reading.erased.recipesOf (sketches.map Sketch.erased) =
      (reading.recipesOf sketches).mapError Fault.erased := by
  induction sketches with
  | nil => rfl
  | cons sketch rest ih =>
    have steps : stepsOfBody sketch.erased.quiet sketch.erased.body =
        (stepsOfBody sketch.quiet sketch.body).mapError Fault.erased := stepsOfBody_erased
    have name : sketch.erased.name = sketch.name := rfl
    simp only [List.map_cons, recipesOf, steps, ih, names_erased, name, aliasesOf_erased]
    cases stepsOfBody sketch.quiet sketch.body with
    | error fault => rfl
    | ok cut =>
      cases reading.recipesOf rest with
      | error fault => rfl
      | ok recipes => rfl

/-- The draft of a book has no numbers of lines in it. -/
theorem draft_erased
    (reading : Reading)
    (path : String) :
    reading.erased.draft path = (reading.draft path).mapError Fault.erased := by
  simp only [draft, danglingAlias?_erased, sketches_erased, recipesOf_erased]
  cases reading.danglingAlias? with
  | some written => rfl
  | none =>
    cases reading.recipesOf reading.sketches with
    | error fault => rfl
    | ok recipes => rfl

/-- Two justfiles that say the same have the same draft, if one of them has any. -/
theorem draft_of_erased_eq
    {path : String}
    {draft : Draft}
    (same : other.erased = reading.erased)
    (drafted : reading.draft path = .ok draft) :
    other.draft path = .ok draft := by
  have whole : (other.draft path).mapError Fault.erased = .ok draft := by
    rw [← draft_erased, same, draft_erased, drafted]
    rfl
  exact eq_ok_of_mapError_eq_ok whole

/-! ## Reading -/

theorem close_erased
    (reading : Reading) :
    reading.erased.close = reading.close.erased := by
  rw [close, sketches_erased]
  rfl

theorem skip_erased
    (reading : Reading) :
    reading.erased.skip = reading.skip.erased := by
  rcases reading with ⟨_, _, _, current, _⟩
  cases current with
  | none => rfl
  | some sketch => rfl

theorem indent_erased
    (line : Numbered) :
    reading.erased.indent line.erased = erased <$> reading.indent line := by
  rcases reading with ⟨_, _, _, current, _⟩
  cases current with
  | none => rfl
  | some sketch =>
    have body : sketch.body.map Numbered.erased ++ [line.erased] =
        (sketch.body ++ [line]).map Numbered.erased := by
      rw [List.map_append]
      rfl
    simp only [indent, erased, Option.map_some, Sketch.erased, body]
    rfl

theorem define_erased
    (name : String)
    (written : List Char) :
    reading.erased.define name written = erased <$> reading.define name written := by
  have definitions : reading.erased.definitions = reading.definitions := rfl
  simp only [define, definitions, close_erased]
  split
  · rfl
  · cases decodeValue written with
    | error problem => rfl
    | ok content => rfl

theorem openRecipe_erased
    (name : String)
    (needs : List (List Char)) :
    reading.erased.openRecipe quiet name needs =
      erased <$> reading.openRecipe quiet name needs := by
  have doc : reading.erased.doc = reading.doc := rfl
  simp only [openRecipe, doc, close_erased]
  cases needs.find? (!Identifier.isIdentifier ·) with
  | some need => rfl
  | none => rfl

/-- What a line adds does not depend on its number. -/
theorem next_erased
    (line : Numbered) :
    reading.erased.next line.erased = erased <$> reading.next line := by
  have text : line.erased.text = line.text := rfl
  simp only [next, text]
  split
  case h_1 =>
    rw [skip_erased]
    rfl
  case h_2 => exact indent_erased line
  case h_3 =>
    rw [close_erased]
    rfl
  case h_4 name target _ =>
    have aliases : reading.erased.aliases ++ [AliasLine.mk line.erased.number name target] =
        (reading.aliases ++ [AliasLine.mk line.number name target]).map AliasLine.erased := by
      rw [List.map_append]
      rfl
    rw [close_erased, aliases]
    rfl
  case h_5 name written _ => exact define_erased name written
  case h_6 name needs _ => exact openRecipe_erased name needs
  case h_7 => rfl

/-- The same lines add the same wherever they stand. -/
theorem exists_continueFrom_erased
    {number start : Nat}
    (same : other.erased = reading.erased)
    (known : reading.continueFrom number lines = .ok later) :
    ∃ again, other.continueFrom start lines = .ok again ∧ again.erased = later.erased := by
  induction lines generalizing reading other number start with
  | nil =>
    cases known
    exact ⟨other, rfl, same⟩
  | cons line rest ih =>
    rw [continueFrom] at known
    split at known
    · cases known
    · rename_i next moved
      have erased : erased <$> other.next ⟨start, Text.trimRight line⟩ = .ok next.erased := by
        rw [← next_erased, same]
        show reading.erased.next (Numbered.erased ⟨number, Text.trimRight line⟩) = _
        rw [next_erased, moved]
        rfl
      rcases exists_of_map_eq_ok erased with ⟨first, taken, alike⟩
      rcases @ih _ first _ (start + 1) alike known with ⟨again, read, whole⟩
      refine ⟨again, ?_, whole⟩
      rw [continueFrom, taken]
      exact read

end Reading

end Cookbook.Justfile
