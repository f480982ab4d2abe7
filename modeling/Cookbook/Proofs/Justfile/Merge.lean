import Cookbook.Proofs.Justfile.Erased
import Cookbook.Proofs.Justfile.Steps
import Cookbook.Proofs.Text.Phrase

/-!
# Commands that go on over several lines

The lines of a body fall into commands: a command goes on as long as its lines
end in a backslash.  What a command says is said by the pieces on its lines,
with one space between them, and merging yields one line for each command,
which says this and has the number of the first line.  So the steps of a body
do not depend on how its commands are laid out, and a fault of a body is one of
a command and is reported at the first line of it.
-/

namespace Cookbook.Justfile

variable
    {quiet : Bool}
    {line merged : Numbered}
    {unfinished : Option Numbered}
    {opening chunk other body front back behind lines again : List Numbered}
    {fault : Fault}

/-! ## What lines say -/

/-- The last character of a line is no blank. -/
def Numbered.Kept (line : Numbered) : Prop :=
  ∃ letter ∈ line.text.getLast?, Text.isBlank letter = false

/-- The text of a line without the backslash at its end. -/
def Numbered.content (line : Numbered) : List Char :=
  if line.isUnfinished then line.text.dropLast else line.text

/-- What a line says of the command that it belongs to. -/
def Numbered.piece (line : Numbered) : List Char :=
  Text.trim line.content

/-- What a merged line says, which is a command as a whole. -/
def Numbered.said (line : Numbered) : List Char :=
  Text.trim line.text

/-- What the lines of a command say. -/
def wording (lines : List Numbered) : List Char :=
  Text.phrase (lines.map Numbered.piece)

theorem wording_append
    (front back : List Numbered) :
    wording (front ++ back) = Text.beside (wording front) (wording back) := by
  rw [wording, List.map_append, Text.phrase_append, wording, wording]

theorem wording_singleton
    (line : Numbered) :
    wording [line] = line.piece :=
  Text.beside_nil line.piece

theorem Numbered.content_of_finished
    (finished : line.isUnfinished = false) :
    line.content = line.text := by
  simp [content, finished]

theorem Numbered.content_of_unfinished
    (goesOn : line.isUnfinished = true) :
    line.content = line.text.dropLast :=
  if_pos goesOn

/-- A line behind an unfinished one goes on if it did on its own, and adds what it says. -/
theorem Numbered.after_some
    (kept : line.Kept)
    (front : Numbered) :
    (line.after (some front)).isUnfinished = line.isUnfinished ∧
      (line.after (some front)).content = front.text ++ ' ' :: Text.trimLeft line.content := by
  have trimmed : Text.trim line.text = Text.trimLeft line.text := by
    rw [← Text.trimLeft_trimRight, Text.trimRight_of_last kept]
  rcases kept with ⟨letter, ends, solid⟩
  rcases List.getLast?_eq_some_iff.mp ends with ⟨text, whole⟩
  have joined : (line.after (some front)).text =
      front.text ++ ' ' :: Text.trimLeft text ++ [letter] := by
    show front.text ++ ' ' :: Text.trim line.text = _
    rw [whole, Text.trim_concat text solid, List.append_assoc, List.cons_append]
  have same : (line.after (some front)).isUnfinished = line.isUnfinished := by
    rw [isUnfinished, isUnfinished, joined, whole, List.getLast?_concat, List.getLast?_concat]
  refine ⟨same, ?_⟩
  cases goesOn : line.isUnfinished with
  | false =>
    rw [content_of_finished (same.trans goesOn), content_of_finished goesOn, ← trimmed]
    rfl
  | true =>
    rw [content_of_unfinished (same.trans goesOn), content_of_unfinished goesOn, joined, whole,
      List.dropLast_concat, List.dropLast_concat]

/-! ## Commands -/

/-- The lines of one command: each but the last one goes on in the next one. -/
inductive OneCommand : List Numbered → Prop
  | last {line : Numbered}
      (ends : line.isUnfinished = false) :
      OneCommand [line]
  | more {line : Numbered} {rest : List Numbered}
      (goesOn : line.isUnfinished = true)
      (later : OneCommand rest) :
      OneCommand (line :: rest)

/-- No command is left open behind lines. -/
def Complete (lines : List Numbered) : Prop :=
  ∀ line ∈ lines.getLast?, line.isUnfinished = false

/-- The line that a command is merged into. -/
structure MergedFrom (chunk : List Numbered) (merged : Numbered) : Prop where
  number : merged.number ∈ chunk.head?.map Numbered.number
  said : merged.said = wording chunk

/-- What is known of a command that is open behind its first lines. -/
inductive Pending : List Numbered → Option Numbered → Prop
  | none :
      Pending [] none
  | some {opening : List Numbered} {front : Numbered}
      (goesOn : ∀ line ∈ opening, line.isUnfinished = true)
      (ended : Text.trimRight front.text = front.text)
      (merged : MergedFrom opening front) :
      Pending opening (some front)

theorem OneCommand.append
    (goesOn : ∀ line ∈ opening, line.isUnfinished = true)
    (one : OneCommand chunk) :
    OneCommand (opening ++ chunk) := by
  induction opening with
  | nil => exact one
  | cons line rest ih =>
    rcases List.forall_mem_cons.mp goesOn with ⟨first, later⟩
    exact .more first (ih later)

theorem Complete.nil :
    Complete [] := by
  rintro line ⟨⟩

/-- Lines behind the last line of a command leave open what they leave open on their own. -/
theorem Complete.after_last
    (finished : line.isUnfinished = false)
    (complete : Complete lines) :
    Complete (opening ++ line :: lines) := by
  intro last ends
  rw [List.getLast?_append_cons, List.getLast?_cons] at ends
  cases found : lines.getLast? with
  | none =>
    rw [found] at ends
    cases ends
    exact finished
  | some final =>
    rw [found] at ends
    cases ends
    exact complete final found

namespace Pending

theorem goesOn
    (pending : Pending opening unfinished) :
    ∀ line ∈ opening, line.isUnfinished = true := by
  cases pending with
  | none => exact List.forall_mem_nil _
  | some goesOn _ _ => exact goesOn

theorem isUnfinished_after
    (pending : Pending opening unfinished)
    (kept : line.Kept) :
    (line.after unfinished).isUnfinished = line.isUnfinished := by
  cases pending with
  | none => rfl
  | some _ _ _ => exact (Numbered.after_some kept _).1

theorem number_after
    (pending : Pending opening unfinished) :
    (line.after unfinished).number ∈ (opening ++ [line]).head?.map Numbered.number := by
  cases pending with
  | none => rfl
  | some _ _ merged =>
    rcases Option.map_eq_some_iff.mp merged.number with ⟨head, starts, number⟩
    rw [List.head?_append, starts]
    exact congrArg Option.some number

/-- One more line adds what it says to the command. -/
theorem trim_content_after
    (pending : Pending opening unfinished)
    (kept : line.Kept) :
    Text.trim (line.after unfinished).content = wording (opening ++ [line]) := by
  cases pending with
  | none => exact (wording_singleton line).symm
  | some _ ended merged =>
    rw [(Numbered.after_some kept _).2, Text.trim_append_space ended (Text.trimLeft_trimLeft _),
      Text.trim_trimLeft, wording_append, wording_singleton, ← merged.said]
    rfl

/-- A line that goes on leaves the command open. -/
theorem next
    (pending : Pending opening unfinished)
    (kept : line.Kept)
    (goesOn : line.isUnfinished = true) :
    Pending (opening ++ [line]) (Option.some (line.after unfinished).withoutBackslash) := by
  have same := (pending.isUnfinished_after kept).trans goesOn
  refine .some ?_ (Text.trimRight_trimRight _) ⟨pending.number_after, ?_⟩
  · exact List.forall_mem_append.mpr ⟨pending.goesOn, List.forall_mem_singleton.mpr goesOn⟩
  · rw [← pending.trim_content_after kept, Numbered.content_of_unfinished same]
    exact Text.trim_trimRight _

/-- A line that does not go on ends the command. -/
theorem mergedFrom_after
    (pending : Pending opening unfinished)
    (kept : line.Kept)
    (finished : line.isUnfinished = false) :
    MergedFrom (opening ++ [line]) (line.after unfinished) := by
  have same := (pending.isUnfinished_after kept).trans finished
  refine ⟨pending.number_after, ?_⟩
  rw [← pending.trim_content_after kept, Numbered.content_of_finished same, Numbered.said]

end Pending

/-! ## Merging -/

theorem mergeFrom_cons_of_unfinished
    (pending : Pending opening unfinished)
    (kept : line.Kept)
    (goesOn : line.isUnfinished = true)
    (rest : List Numbered) :
    mergeFrom unfinished (line :: rest) =
      mergeFrom (some (line.after unfinished).withoutBackslash) rest := by
  simp only [mergeFrom, pending.isUnfinished_after kept, goesOn, if_true]

theorem mergeFrom_cons_of_finished
    (pending : Pending opening unfinished)
    (kept : line.Kept)
    (finished : line.isUnfinished = false)
    (rest : List Numbered) :
    mergeFrom unfinished (line :: rest) =
      (line.after unfinished :: ·) <$> mergeFrom none rest := by
  simp only [mergeFrom, pending.isUnfinished_after kept, finished]
  rfl

/-- The lines of a command are merged into one, whatever stands behind them. -/
theorem exists_mergedFrom
    (pending : Pending opening unfinished)
    (kept : ∀ line ∈ chunk, line.Kept)
    (one : OneCommand chunk) :
    ∃ merged, MergedFrom (opening ++ chunk) merged ∧
      ∀ back, mergeFrom unfinished (chunk ++ back) = (merged :: ·) <$> mergeFrom none back := by
  induction one generalizing opening unfinished with
  | @last line ends =>
    have first := List.forall_mem_singleton.mp kept
    exact ⟨_, pending.mergedFrom_after first ends,
      mergeFrom_cons_of_finished pending first ends⟩
  | @more line rest goesOn _ ih =>
    rcases List.forall_mem_cons.mp kept with ⟨first, others⟩
    rcases ih (pending.next first goesOn) others with ⟨merged, whole, behind⟩
    rw [List.append_assoc] at whole
    refine ⟨merged, whole, fun back => ?_⟩
    rw [List.cons_append, mergeFrom_cons_of_unfinished pending first goesOn, behind]

/-- Every merged line is that of a command, in front of which no other one is open. -/
theorem exists_oneCommand_of_mem
    (pending : Pending opening unfinished)
    (kept : ∀ line ∈ body, line.Kept)
    (whole : mergeFrom unfinished body = .ok lines)
    (member : merged ∈ lines) :
    ∃ before chunk behind, opening ++ body = before ++ (chunk ++ behind) ∧ Complete before ∧
      OneCommand chunk ∧ MergedFrom chunk merged := by
  -- the lines of the command that is still open stay in front of the body
  induction body generalizing opening unfinished lines with
  | nil =>
    cases pending with
    | none =>
      cases whole
      cases member
    | some _ _ _ => cases whole
  | cons line rest ih =>
    rcases List.forall_mem_cons.mp kept with ⟨first, others⟩
    cases goesOn : line.isUnfinished with
    | true =>
      rw [mergeFrom_cons_of_unfinished pending first goesOn] at whole
      have found := ih (pending.next first goesOn) others whole member
      rwa [List.append_assoc] at found
    | false =>
      rw [mergeFrom_cons_of_finished pending first goesOn] at whole
      rcases exists_of_map_eq_ok whole with ⟨later, inner, rfl⟩
      rcases List.mem_cons.mp member with rfl | behind
      · refine ⟨[], opening ++ [line], rest, ?_, .nil, ?_, pending.mergedFrom_after first goesOn⟩
        · rw [List.append_assoc]
          rfl
        · exact .append pending.goesOn (.last goesOn)
      · rcases ih .none others inner behind with ⟨before, chunk, further, split, complete, found⟩
        refine ⟨opening ++ line :: before, chunk, further, ?_, complete.after_last goesOn, found⟩
        rw [List.append_assoc, List.cons_append, ← split]
        rfl

/-- Merging fails for a command that goes on up to the last line. -/
theorem exists_dangling_of_mergeFrom
    (pending : Pending opening unfinished)
    (kept : ∀ line ∈ body, line.Kept)
    (stopped : mergeFrom unfinished body = .error fault) :
    ∃ before first rest, opening ++ body = before ++ first :: rest ∧ Complete before ∧
      (∀ line ∈ first :: rest, line.isUnfinished = true) ∧
      fault = ⟨first.number, .danglingContinuation⟩ := by
  induction body generalizing opening unfinished with
  | nil =>
    cases pending with
    | none => cases stopped
    | some goesOn _ merged =>
      cases stopped
      rcases Option.map_eq_some_iff.mp merged.number with ⟨first, starts, number⟩
      rcases List.head?_eq_some_iff.mp starts with ⟨rest, rfl⟩
      exact ⟨[], first, rest, List.append_nil _, .nil, goesOn, by rw [number]⟩
  | cons line rest ih =>
    rcases List.forall_mem_cons.mp kept with ⟨first, others⟩
    cases goesOn : line.isUnfinished with
    | true =>
      rw [mergeFrom_cons_of_unfinished pending first goesOn] at stopped
      have found := ih (pending.next first goesOn) others stopped
      rwa [List.append_assoc] at found
    | false =>
      rw [mergeFrom_cons_of_finished pending first goesOn] at stopped
      rcases ih .none others (eq_error_of_map_eq_error stopped) with
        ⟨before, start, further, split, complete, found⟩
      refine ⟨opening ++ line :: before, start, further, ?_, complete.after_last goesOn, found⟩
      rw [List.append_assoc, List.cons_append, ← split]
      rfl

/-! ## Faults -/

/-- The faults of a body, each with the command that it is a fault of. -/
inductive FaultIn (quiet : Bool) (body : List Numbered) : Fault → Prop
  | command {before chunk behind : List Numbered} {first : Numbered} {problem : TemplateProblem}
      (split : body = before ++ (chunk ++ behind))
      (complete : Complete before)
      (one : OneCommand chunk)
      (starts : chunk.head? = some first)
      (refused : stepsOfCommand quiet (wording chunk) = .error problem) :
      FaultIn quiet body ⟨first.number, .command problem⟩
  | dangling {before rest : List Numbered} {first : Numbered}
      (split : body = before ++ first :: rest)
      (complete : Complete before)
      (goesOn : ∀ line ∈ first :: rest, line.isUnfinished = true) :
      FaultIn quiet body ⟨first.number, .danglingContinuation⟩

/-- What is wrong with a body is reported at the first line of a command. -/
theorem faultIn_of_stepsOfBody
    (kept : ∀ line ∈ body, line.Kept)
    (stopped : stepsOfBody quiet body = .error fault) :
    FaultIn quiet body fault := by
  rw [stepsOfBody, merge] at stopped
  split at stopped
  · rename_i cause refused
    cases stopped
    rcases exists_dangling_of_mergeFrom .none kept refused with
      ⟨before, first, rest, split, complete, goesOn, rfl⟩
    exact .dangling split complete goesOn
  · rename_i lines whole
    rcases exists_of_stepsOfLines stopped with ⟨line, member, problem, refused, rfl⟩
    rcases exists_oneCommand_of_mem .none kept whole member with
      ⟨before, chunk, behind, split, complete, one, merged⟩
    rcases Option.map_eq_some_iff.mp merged.number with ⟨first, starts, number⟩
    rw [← Numbered.said, merged.said] at refused
    rw [← number]
    exact .command split complete one starts refused

/-! ## Layouts -/

/-- What merged lines say does not depend on the numbers of the lines. -/
theorem exists_mergeFrom_of_erased
    (alike : behind.map Numbered.erased = back.map Numbered.erased)
    (whole : mergeFrom none back = .ok lines) :
    ∃ again, mergeFrom none behind = .ok again ∧
      again.map Numbered.said = lines.map Numbered.said := by
  have renumbered : (List.map Numbered.erased <$> mergeFrom none behind).mapError Fault.erased =
      .ok (lines.map Numbered.erased) := by
    have same := @mergeFrom_erased behind none
    rw [alike] at same
    rw [← same]
    refine (@mergeFrom_erased back none).trans ?_
    rw [whole]
    rfl
  rcases exists_of_map_eq_ok (eq_ok_of_mapError_eq_ok renumbered) with ⟨again, found, same⟩
  have texts := congrArg (List.map Numbered.said) same
  rw [List.map_map, List.map_map] at texts
  exact ⟨again, found, texts⟩

/-- Commands that say the same are merged into lines that say the same. -/
theorem exists_mergeFrom_of_wording
    (pending : Pending opening unfinished)
    (keptFront : ∀ line ∈ front, line.Kept)
    (keptChunk : ∀ line ∈ chunk, line.Kept)
    (keptOther : ∀ line ∈ other, line.Kept)
    (one : OneCommand chunk)
    (another : OneCommand other)
    (same : wording other = wording chunk)
    (alike : behind.map Numbered.erased = back.map Numbered.erased)
    (whole : mergeFrom unfinished (front ++ (chunk ++ back)) = .ok lines) :
    ∃ again, mergeFrom unfinished (front ++ (other ++ behind)) = .ok again ∧
      again.map Numbered.said = lines.map Numbered.said := by
  induction front generalizing opening unfinished lines with
  | nil =>
    rcases exists_mergedFrom pending keptChunk one with ⟨merged, first, cut⟩
    rcases exists_mergedFrom pending keptOther another with ⟨further, second, divided⟩
    rw [List.nil_append, cut] at whole
    rcases exists_of_map_eq_ok whole with ⟨later, inner, rfl⟩
    rcases exists_mergeFrom_of_erased alike inner with ⟨rest, found, said⟩
    refine ⟨further :: rest, ?_, ?_⟩
    · rw [List.nil_append, divided, found]
      rfl
    · rw [List.map_cons, List.map_cons, said, first.said, second.said, wording_append,
        wording_append, same]
  | cons line rest ih =>
    rcases List.forall_mem_cons.mp keptFront with ⟨first, others⟩
    rw [List.cons_append] at whole ⊢
    cases goesOn : line.isUnfinished with
    | true =>
      rw [mergeFrom_cons_of_unfinished pending first goesOn] at whole ⊢
      exact ih (pending.next first goesOn) others whole
    | false =>
      rw [mergeFrom_cons_of_finished pending first goesOn] at whole ⊢
      rcases exists_of_map_eq_ok whole with ⟨later, inner, rfl⟩
      rcases ih .none others inner with ⟨again, found, said⟩
      refine ⟨line.after unfinished :: again, ?_, ?_⟩
      · rw [found]
        rfl
      · rw [List.map_cons, List.map_cons, said]

/-- Lines that say the same have the same steps. -/
theorem stepsOfLines_of_said
    {steps : List Step}
    (said : again.map Numbered.said = lines.map Numbered.said)
    (cut : stepsOfLines quiet lines = .ok steps) :
    stepsOfLines quiet again = .ok steps := by
  induction lines generalizing again steps with
  | nil =>
    rw [List.map_nil, List.map_eq_nil_iff] at said
    rw [said]
    exact cut
  | cons line rest ih =>
    rcases List.map_eq_cons_iff.mp said with ⟨first, others, rfl, same, later⟩
    have spelled : Text.trim first.text = Text.trim line.text := same
    rw [stepsOfLines] at cut ⊢
    rw [spelled]
    split at cut
    · cases cut
    · rcases exists_of_map_eq_ok cut with ⟨back, inner, rfl⟩
      simp only [ih later inner]
      rfl

/-- The steps of a body do not depend on how one of its commands is laid out. -/
theorem stepsOfBody_of_wording
    {steps : List Step}
    (keptFront : ∀ line ∈ front, line.Kept)
    (keptChunk : ∀ line ∈ chunk, line.Kept)
    (keptOther : ∀ line ∈ other, line.Kept)
    (one : OneCommand chunk)
    (another : OneCommand other)
    (same : wording other = wording chunk)
    (alike : behind.map Numbered.erased = back.map Numbered.erased)
    (cut : stepsOfBody quiet (front ++ (chunk ++ back)) = .ok steps) :
    stepsOfBody quiet (front ++ (other ++ behind)) = .ok steps := by
  rw [stepsOfBody, merge] at cut ⊢
  split at cut
  · cases cut
  · rename_i lines whole
    rcases exists_mergeFrom_of_wording .none keptFront keptChunk keptOther one another same alike
      whole with ⟨again, found, said⟩
    rw [found]
    exact stepsOfLines_of_said said cut

end Cookbook.Justfile
