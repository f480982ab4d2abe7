import Cookbook.Chain
import Mathlib.Data.List.Basic

/-!
# Cutting a line with the eyes of the word reader

A line is cut by a scan of its own, which remembers only the mark of an open
quotation and steps over escaped characters two at a time.  The scan is in
step with the quoting states of the word reader.  It cuts a line at double
ampersands that are met in the bare state, leaves between them only operators
that are quoted or escaped, and refuses the first operator that is neither.
-/

namespace Cookbook.Chain

open Word (Quoting)

variable
    {quoting : Quoting}
    {column : Nat}
    {mark : Option Char}
    {letter : Char}
    {text front back rest letters : List Char}
    {found : List (List Char)}
    {refused : Refused}
    {result : Except Refused (List (List Char))}

/-! ## Guarded texts -/

/-- Every operator of a text is met in another state than the bare one. -/
def Guarded : Quoting → List Char → Prop
  | _, [] => True
  | quoting, letter :: rest =>
    (isOperator letter = true → quoting ≠ .bare) ∧ Guarded (quoting.next letter) rest

@[simp]
theorem guarded_nil :
    Guarded quoting [] :=
  trivial

@[simp]
theorem guarded_cons :
    Guarded quoting (letter :: rest) ↔
      (isOperator letter = true → quoting ≠ .bare) ∧ Guarded (quoting.next letter) rest :=
  Iff.rfl

@[simp]
theorem guarded_append :
    Guarded quoting (front ++ back) ↔
      Guarded quoting front ∧ Guarded (quoting.after front) back := by
  induction front generalizing quoting with
  | nil => simp
  | cons letter front ih => simp [ih, and_assoc]

/-- No operator of a guarded text is met in the bare state. -/
theorem Guarded.not_bare
    (guarded : Guarded quoting (front ++ letter :: back))
    (operates : isOperator letter = true) :
    quoting.after front ≠ .bare :=
  (guarded_append.mp guarded).2.1 operates

/-! ## What a scan has to give -/

/-- Two ampersands are at the front of a text. -/
def PairAhead (text : List Char) : Prop :=
  ['&', '&'] <+: text

/--
A text falls into pieces: each piece is guarded, and behind each piece but the
last stand two ampersands, which are met in the bare state.
-/
inductive Cut : Quoting → List Char → List (List Char) → Prop
  | last {quoting : Quoting} {text : List Char}
      (guarded : Guarded quoting text) :
      Cut quoting text [text]
  | more {quoting : Quoting} {piece rest : List Char} {later : List (List Char)}
      (guarded : Guarded quoting piece)
      (ends : quoting.after piece = .bare)
      (cut : Cut .bare rest later) :
      Cut quoting (piece ++ ('&' :: '&' :: rest)) (piece :: later)

/-- What a scan gives for a text that starts at a column and in a quoting state. -/
inductive Scanned : Quoting → Nat → List Char → Except Refused (List (List Char)) → Prop
  | cut {quoting : Quoting} {column : Nat} {text : List Char} {found : List (List Char)}
      (cut : Cut quoting text found) :
      Scanned quoting column text (.ok found)
  | refused {quoting : Quoting} {column : Nat} {front back : List Char} {letter : Char}
      {found : List (List Char)}
      (cut : Cut quoting front found)
      (bare : quoting.after front = .bare)
      (operates : isOperator letter = true)
      (single : ¬PairAhead (letter :: back)) :
      Scanned quoting column (front ++ letter :: back)
        (.error ⟨(letter :: back).takeWhile isOperator, column + front.length⟩)

theorem Cut.extend
    (guarded : Guarded quoting letters)
    (cut : Cut (quoting.after letters) rest found) :
    Cut quoting (letters ++ rest) (extend letters found) := by
  cases cut with
  | last later => exact .last (guarded_append.mpr ⟨guarded, later⟩)
  | @more _ piece rest later inner ends cut =>
    rw [← List.append_assoc]
    apply Cut.more
    · exact guarded_append.mpr ⟨guarded, inner⟩
    · rw [Quoting.after_append]
      exact ends
    · exact cut

/-- Guarded letters go in front of whatever the scan gives for the text behind them. -/
theorem Scanned.extend
    (guarded : Guarded quoting letters)
    (scanned : Scanned (quoting.after letters) (column + letters.length) rest result) :
    Scanned quoting column (letters ++ rest) (Chain.extend letters <$> result) := by
  cases scanned with
  | cut cut => exact .cut (cut.extend guarded)
  | refused cut bare operates single =>
    rw [← List.append_assoc, Nat.add_assoc, ← List.length_append]
    apply Scanned.refused (cut.extend guarded)
    · rw [Quoting.after_append]
      exact bare
    · exact operates
    · exact single

/-- Two ampersands in the bare state end an empty piece. -/
theorem Scanned.pair
    (scanned : Scanned .bare (column + 2) rest result) :
    Scanned .bare column ('&' :: '&' :: rest) (([] :: ·) <$> result) := by
  cases scanned with
  | cut cut => exact .cut (@Cut.more .bare [] _ _ guarded_nil rfl cut)
  | @refused front back letter found cut bare operates single =>
    rw [Nat.add_assoc, Nat.add_comm 2]
    exact @Scanned.refused .bare column ('&' :: '&' :: front) back letter _
      (@Cut.more .bare [] _ _ guarded_nil rfl cut) bare operates single

/-! ## The scan is in step with the word reader -/

/-- The mark of an open quotation, if any, tells the quoting state. -/
inductive Tracks : Option Char → Quoting → Prop
  | outside : Tracks none .bare
  | single : Tracks (some '\'') .single
  | double : Tracks (some '"') .double

theorem Tracks.not_bare
    {opened : Char}
    (tracks : Tracks (some opened) quoting) :
    quoting ≠ .bare := by
  cases tracks <;> decide

/-- A backslash that escapes takes the next letter along, and the state is as before. -/
theorem Tracks.escape
    {next : Char}
    (tracks : Tracks mark quoting)
    (escapes : mark ≠ some '\'') :
    Guarded quoting ['\\', next] ∧ quoting.after ['\\', next] = quoting := by
  cases tracks with
  | outside => exact ⟨⟨by decide, fun _ => by decide, trivial⟩, rfl⟩
  | single => exact absurd rfl escapes
  | double => exact ⟨⟨by decide, fun _ => by decide, trivial⟩, rfl⟩

/-- A letter inside quotes that is not escaped closes them if it is their mark. -/
theorem Tracks.quoted
    {opened : Char}
    (tracks : Tracks (some opened) quoting)
    (plain : letter = '\\' → opened = '\'') :
    Tracks (if letter == opened then none else some opened) (quoting.next letter) := by
  cases tracks with
  | single =>
    by_cases closes : letter = '\''
    · simpa [closes, Quoting.next] using Tracks.outside
    · simpa [closes, Quoting.next] using Tracks.single
  | double =>
    have other : letter ≠ '\\' := fun backslash => absurd (plain backslash) (by decide)
    by_cases closes : letter = '"'
    · simpa [closes, Quoting.next] using Tracks.outside
    · simpa [closes, other, Quoting.next] using Tracks.double

theorem Tracks.opening
    (opens : letter = '\'' ∨ letter = '"') :
    isOperator letter = false ∧ Tracks (some letter) (Quoting.bare.next letter) := by
  rcases opens with rfl | rfl
  · exact ⟨by decide, .single⟩
  · exact ⟨by decide, .double⟩

theorem next_of_ordinary
    (unquoted : letter ≠ '\'' ∧ letter ≠ '"')
    (other : letter ≠ '\\') :
    Quoting.bare.next letter = .bare := by
  simp [Quoting.next, unquoted, other]

/-- The scan gives what it has to, from every state that it keeps track of. -/
theorem scanned_piecesFrom
    (column : Nat)
    (text : List Char)
    (tracks : Tracks mark quoting) :
    Scanned quoting column text (piecesFrom column mark text) := by
  fun_induction piecesFrom column mark text generalizing quoting with
  | case1 => exact .cut (.last guarded_nil)
  | case2 column mark letter refusable =>
    simp only [Bool.and_eq_true, Option.isNone_iff_eq_none] at refusable
    rcases refusable with ⟨rfl, operates⟩
    cases tracks
    have alone : ¬PairAhead [letter] := by simp [PairAhead]
    have run : [letter].takeWhile isOperator = [letter] := by simp [operates]
    have scanned := @Scanned.refused .bare column [] [] letter [[]] (.last guarded_nil) rfl
      operates alone
    rw [run] at scanned
    exact scanned
  | case3 column mark letter kept =>
    refine .cut (.last ⟨?_, trivial⟩)
    intro operates bare
    subst bare
    cases tracks
    simp [operates] at kept
  | case4 column mark letter next rest escapes ih =>
    simp only [Bool.and_eq_true, beq_iff_eq, bne_iff_ne, ne_eq] at escapes
    rcases escapes with ⟨rfl, outside⟩
    rcases tracks.escape outside with ⟨guarded, same⟩
    exact @Scanned.extend _ _ rest ['\\', next] _ guarded (by rw [same]; exact ih tracks)
  | case5 column letter next rest opened escapes ih =>
    have plain : letter = '\\' → opened = '\'' := by simpa using escapes
    have guarded : Guarded quoting [letter] := ⟨fun _ => tracks.not_bare, trivial⟩
    exact Scanned.extend guarded (ih (tracks.quoted plain))
  | case6 column letter next rest opens escapes ih =>
    cases tracks
    simp only [Bool.or_eq_true, beq_iff_eq] at opens
    rcases Tracks.opening opens with ⟨kept, tracks⟩
    have guarded : Guarded .bare [letter] := ⟨fun operates => by simp [kept] at operates, trivial⟩
    exact Scanned.extend guarded (ih tracks)
  | case7 column letter next rest opens pairs escapes ih =>
    cases tracks
    simp only [Bool.and_eq_true, beq_iff_eq] at pairs
    rcases pairs with ⟨rfl, rfl⟩
    exact (ih .outside).pair
  | case8 column letter next rest opens pairs operates escapes =>
    cases tracks
    have single : ¬PairAhead (letter :: next :: rest) := by
      intro ahead
      simp only [PairAhead, List.cons_prefix_cons, List.nil_prefix, and_true] at ahead
      simp [← ahead.1, ← ahead.2] at pairs
    have run : (letter :: next :: rest).takeWhile isOperator =
        letter :: (next :: rest).takeWhile isOperator :=
      List.takeWhile_cons_of_pos operates
    have scanned := @Scanned.refused .bare column [] (next :: rest) letter [[]]
      (.last guarded_nil) rfl operates single
    rw [run] at scanned
    exact scanned
  | case9 column letter next rest opens pairs kept escapes ih =>
    cases tracks
    simp only [Bool.or_eq_true, beq_iff_eq, not_or] at opens
    have other : letter ≠ '\\' := by simpa using escapes
    have guarded : Guarded .bare [letter] := ⟨fun operates => absurd operates kept, trivial⟩
    have same : Quoting.bare.after [letter] = .bare := next_of_ordinary opens other
    exact @Scanned.extend _ _ (next :: rest) [letter] _ guarded (by rw [same]; exact ih .outside)

/-! ## Cuts -/

theorem Cut.eq_of_guarded
    (cut : Cut quoting text found)
    (guarded : Guarded quoting text) :
    found = [text] := by
  cases cut with
  | last => rfl
  | more _ ends _ => exact absurd ends (guarded.not_bare (by decide))

/-- A guarded text is one piece. -/
theorem pieces_of_guarded
    (guarded : Guarded .bare text) :
    pieces text = .ok [text] := by
  have scanned := scanned_piecesFrom 1 text .outside
  rw [pieces]
  generalize piecesFrom 1 none text = result at scanned
  cases scanned with
  | cut cut => rw [cut.eq_of_guarded guarded]
  | refused _ bare operates _ => exact absurd bare (guarded.not_bare operates)

/-- The pieces of a text are a cut of it. -/
theorem cut_of_pieces
    (separated : pieces text = .ok found) :
    Cut .bare text found := by
  have scanned := scanned_piecesFrom 1 text .outside
  rw [pieces] at separated
  rw [separated] at scanned
  cases scanned with
  | cut cut => exact cut

/-- Joined by double ampersands, the pieces give the text back. -/
theorem Cut.joined
    (cut : Cut quoting text found) :
    ['&', '&'].intercalate found = text := by
  induction cut with
  | last => simp [List.intercalate]
  | @more _ piece rest later _ _ cut ih =>
    rw [← ih]
    cases cut <;> simp [List.intercalate]

/-- Every piece is guarded when it is read by itself. -/
theorem Cut.guarded
    (cut : Cut .bare text found) :
    ∀ piece ∈ found, Guarded .bare piece := by
  generalize start : Quoting.bare = quoting at cut
  induction cut with
  | last guarded =>
    subst start
    intro piece present
    rw [List.mem_singleton.mp present]
    exact guarded
  | more guarded _ _ ih =>
    subst start
    intro piece present
    rcases List.mem_cons.mp present with rfl | later
    · exact guarded
    · exact ih rfl piece later

/-! ## Trimming -/

theorem next_blank
    (blank : Text.isBlank letter = true) :
    Quoting.bare.next letter = .bare := by
  apply next_of_ordinary
  · constructor
    · rintro rfl
      cases blank
    · rintro rfl
      cases blank
  · rintro rfl
    cases blank

/-- Trimming keeps a text guarded: blanks in front leave the state bare. -/
theorem Guarded.trim
    (guarded : Guarded .bare text) :
    Guarded .bare (Text.trim text) := by
  have left : Guarded .bare (Text.trimLeft text) := by
    induction text with
    | nil => trivial
    | cons letter rest ih =>
      unfold Text.trimLeft
      by_cases blank : Text.isBlank letter = true
      · rw [List.dropWhile_cons_of_pos blank]
        apply ih
        have behind := guarded.2
        rw [next_blank blank] at behind
        exact behind
      · rw [List.dropWhile_cons_of_neg blank]
        exact guarded
  have whole : Text.trimLeft text = Text.trim text ++
      ((Text.trimLeft text).reverse.takeWhile Text.isBlank).reverse := by
    rw [Text.trim, Text.trimRight, ← List.reverse_append, List.takeWhile_append_dropWhile,
      List.reverse_reverse]
  rw [whole] at left
  exact (guarded_append.mp left).1

end Cookbook.Chain
