import Cookbook.Path

/-!
# Joining written paths

Joining two texts and then reading the path gives what joining the two paths
gives.  A slash between two texts separates their pieces, and the text behind
it has no say in where the whole path starts.
-/

namespace Cookbook.Path

variable
    {front back : List Char}

theorem exists_pieces_eq_cons
    (text : List Char) :
    ∃ piece further, pieces text = piece :: further := by
  cases text with
  | nil => exact ⟨[], [], rfl⟩
  | cons letter rest =>
    simp only [pieces]
    split
    · exact ⟨[], pieces rest, rfl⟩
    · split
      · exact ⟨[letter], [], rfl⟩
      · exact ⟨_, _, rfl⟩

theorem pieces_append_slash :
    pieces (front ++ '/' :: back) = pieces front ++ pieces back := by
  induction front with
  | nil => rfl
  | cons letter rest ih =>
    simp only [List.cons_append, pieces, ih]
    rcases exists_pieces_eq_cons rest with ⟨piece, further, split⟩
    rw [split]
    by_cases slash : letter == '/'
    · simp [slash]
    · simp [slash]

theorem names_append_slash :
    ((pieces (front ++ '/' :: back)).filter isName).map String.ofList =
      ((pieces front).filter isName).map String.ofList ++
        ((pieces back).filter isName).map String.ofList := by
  rw [pieces_append_slash, List.filter_append, List.map_append]

theorem anchorOf_append_of_head?
    (start : back.head? ≠ some '/') :
    anchorOf (front ++ back) = anchorOf front := by
  have stops : back.takeWhile (· == '/') = [] := by
    cases back with
    | nil => rfl
    | cons letter rest =>
      have other : letter ≠ '/' := fun slash => start (congrArg some slash)
      simp [other]
  have same : (front ++ back).takeWhile (· == '/') = front.takeWhile (· == '/') := by
    rw [List.takeWhile_append, stops, List.append_nil]
    split
    · rename_i whole
      exact (List.takeWhile_prefix _).eq_of_length whole |>.symm
    · rfl
  rw [anchorOf, same, anchorOf]

theorem anchorOf_append_of_getLast?
    {last : Char}
    (ends : front.getLast? = some last)
    (other : last ≠ '/') :
    anchorOf (front ++ back) = anchorOf front := by
  have same : (front ++ back).takeWhile (· == '/') = front.takeWhile (· == '/') := by
    rw [List.takeWhile_append, if_neg]
    intro whole
    have every := (List.takeWhile_prefix _).eq_of_length whole
    have slashes := @List.all_takeWhile _ (· == '/') front
    rw [every, List.all_eq_true] at slashes
    exact other (beq_iff_eq.mp (slashes last (List.mem_of_getLast? ends)))
  rw [anchorOf, same, anchorOf]

theorem anchorOf_eq_working_iff
    {text : List Char} :
    anchorOf text = .working ↔ text.head? ≠ some '/' := by
  cases text with
  | nil => simp [anchorOf]
  | cons letter rest =>
    by_cases slash : letter = '/'
    · subst slash
      simp only [anchorOf, List.takeWhile_cons, BEq.rfl, if_true, List.length_cons,
        List.head?_cons, ne_eq, not_true_eq_false, iff_false]
      split <;> simp_all
    · simp [anchorOf, slash]

theorem append_of_working
    {base target : Path}
    (relative : target.anchor = .working) :
    base.append target = ⟨base.anchor, base.names ++ target.names⟩ := by
  simp only [append, relative]

theorem append_of_absolute
    {base target : Path}
    (absolute : target.anchor ≠ .working) :
    base.append target = target := by
  simp only [append]

theorem append_assoc
    (first second third : Path) :
    (first.append second).append third = first.append (second.append third) := by
  rcases second with ⟨middle, inner⟩
  rcases third with ⟨last, names⟩
  cases last <;> cases middle <;> simp [append]

theorem here_append
    (target : Path) :
    here.append target = target := by
  rcases target with ⟨anchor, names⟩
  cases anchor <;> simp [append, here]

/-- The path of two joined texts is the second path relative to the first. -/
theorem ofString_joinText
    (base target : String) :
    ofString (joinText base target) = (ofString base).join target := by
  by_cases start : target.toList.head? = some '/'
  · have absolute : (ofString target).anchor ≠ .working := fun working =>
      anchorOf_eq_working_iff.mp working start
    rw [join, append_of_absolute absolute, joinText, if_pos (by simpa using start)]
  · have relative : (ofString target).anchor = .working := anchorOf_eq_working_iff.mpr start
    rw [join, append_of_working relative, joinText, if_neg (by simpa using start)]
    cases ends : base.toList.getLast? with
    | none =>
      rcases String.toList_eq_nil_iff.mp (List.getLast?_eq_none_iff.mp ends) with rfl
      rw [String.empty_append, ← append_of_working relative]
      exact (here_append (ofString target)).symm
    | some last =>
      have filled : base.isEmpty = false := by
        rw [Bool.eq_false_iff, ne_eq, String.isEmpty_iff]
        rintro rfl
        cases ends
      by_cases slash : last = '/'
      · rcases List.getLast?_eq_some_iff.mp (slash ▸ ends) with ⟨inner, whole⟩
        have same := @names_append_slash inner target.toList
        have closed := @names_append_slash inner []
        simp only [slash, filled, Bool.false_or, BEq.rfl, if_true, ofString,
          String.toList_append, anchorOf_append_of_head? start]
        rw [whole, List.append_assoc, List.singleton_append, same, closed]
        simp [pieces, isName]
      · simp [slash, filled, ofString, String.toList_append, List.append_assoc,
          anchorOf_append_of_getLast? ends slash, names_append_slash]

/-- Two changes of place in a row are one change to the joined text. -/
theorem join_join
    (place : Path)
    (base target : String) :
    (place.join base).join target = place.join (joinText base target) := by
  rw [join, join, join, append_assoc, ofString_joinText]
  rfl

end Cookbook.Path
