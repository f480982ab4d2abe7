import Cookbook.Session

/-!
# Finding the book to use

Before anything is done with a book, it has to be found and loaded.  Whether
that succeeds depends on the files alone.  If it does, the reply is the one
that is made with the book, behind a detail for debugging.  Otherwise the reply
is the one to a missing file, or what the action makes of the stop that keeps
the book from being loaded.
-/

namespace Cookbook

/-- A stop that is not the user's doing. -/
def Stop.Uninterrupted (stop : Stop) : Prop :=
  ∀ text, stop ≠ .abort (.interrupted text)

theorem Stop.uninterrupted_failure
    (failure : Failure) :
    Stop.Uninterrupted (.failure failure) := by
  rintro text ⟨⟩

/-! ## Output and replies -/

theorem Output.none_append
    (output : Output) :
    Output.none ++ output = output := by
  rcases output with ⟨out, err⟩
  show Output.mk ("" ++ out) ("" ++ err) = _
  rw [String.empty_append, String.empty_append]

theorem Output.out_append
    (first second : Output) :
    (first ++ second).out = first.out ++ second.out :=
  rfl

theorem Output.append_none
    (output : Output) :
    output ++ Output.none = output := by
  rcases output with ⟨out, err⟩
  show Output.mk (out ++ "") (err ++ "") = _
  rw [String.append_empty, String.append_empty]

theorem Output.append_assoc
    (first second third : Output) :
    first ++ second ++ third = first ++ (second ++ third) := by
  show Output.mk (_ ++ _ ++ _) (_ ++ _ ++ _) = Output.mk (_ ++ (_ ++ _)) (_ ++ (_ ++ _))
  rw [String.append_assoc, String.append_assoc]

theorem Output.concat_append
    (front back : List Output) :
    Output.concat (front ++ back) = .concat front ++ .concat back := by
  induction front with
  | nil => exact (Output.none_append _).symm
  | cons first front ih =>
    show first ++ Output.concat (front ++ back) = first ++ Output.concat front ++ _
    rw [ih, Output.append_assoc]

theorem Output.err_errorLines_ne
    (text : String)
    (texts : List String) :
    (Output.errorLines (text :: texts)).err ≠ "" := by
  rw [Output.errorLines, List.map_cons, String.join_cons]
  simp

theorem Reply.after_none
    (reply : Reply) :
    reply.after .none = reply := by
  rw [Reply.after, Output.none_append]

theorem Terminal.out_detail
    (terminal : Terminal)
    (text : String) :
    (terminal.detail text).out = "" := by
  rw [Terminal.detail]
  split
  · rfl
  · rfl

theorem Terminal.detail_of_not_debug
    {terminal : Terminal}
    (plain : terminal.debug = false)
    (text : String) :
    terminal.detail text = .none := by
  simp only [Terminal.detail, plain]
  rfl

namespace Session

variable
    {terminal : Terminal}
    {shelf : Shelf}
    {file : Option String}
    {book : Book}
    {path : Path}
    {stop : Stop}

/-! ## Replies to stops -/

/-- Every stop has the exit status of a failure. -/
theorem exitCode_range
    (stop : Stop) :
    1 ≤ exitCode stop ∧ exitCode stop ≤ 255 := by
  cases stop with
  | failure cause =>
    show 1 ≤ cause.exitCode ∧ cause.exitCode ≤ 255
    cases cause with
    | commandFailed command status recipe reason =>
      rw [Failure.exitCode]
      split <;> omega
    | unknownRecipe | nameTaken | variableTaken | unusableBook | cyclicNeeds
      | undefinedVariable | badTemplate | badJustfile =>
      show 1 ≤ 2 ∧ 2 ≤ 255
      decide
  | abort cause =>
    cases cause with
    | interrupted =>
      show 1 ≤ 130 ∧ 130 ≤ 255
      decide
    | invalidRequest | breakdown =>
      show 1 ≤ 1 ∧ 1 ≤ 255
      decide
  | files =>
    show 1 ≤ 1 ∧ 1 ≤ 255
    decide

/-- Outside debug mode a stop is reported on the standard error output only. -/
theorem exists_report
    (plain : terminal.debug = false)
    (uninterrupted : stop.Uninterrupted) :
    ∃ text, text ≠ "" ∧ report terminal stop = ⟨"", text⟩ := by
  refine ⟨_, Output.err_errorLines_ne ("Error: " ++ stop.message) [], ?_⟩
  unfold report
  split
  · exact absurd rfl (uninterrupted _)
  · simp only [Terminal.stopNotice, plain]
    rfl

theorem refuse_of_uninterrupted
    (uninterrupted : stop.Uninterrupted) :
    refuse terminal stop = fail terminal stop := by
  unfold refuse
  split
  · exact absurd rfl (uninterrupted _)
  · rfl

/-! ## The book to use -/

/--
The book to use: that of the stated file, of the recipe file in the working
directory, or, if there is none, the built-in one.
-/
inductive Loads (shelf : Shelf) : Option String → Book → Prop
  | stated {file : String} {book : Book}
      (present : shelf.contains (Path.ofString file) = .ok true)
      (read : shelf.bookAt (Path.ofString file) = .ok book) :
      Loads shelf (some file) book
  | found {path : Path} {book : Book}
      (found : shelf.recipeFileIn? Path.here = .ok (some path))
      (read : shelf.bookAt path = .ok book) :
      Loads shelf none book
  | builtin
      (absent : shelf.recipeFileIn? Path.here = .ok none) :
      Loads shelf none Book.builtin

theorem Loads.unique
    {other : Book}
    (first : Loads shelf file book)
    (second : Loads shelf file other) :
    book = other := by
  cases first with
  | stated _ read =>
    cases second with
    | stated _ again => exact Except.ok.inj (read.symm.trans again)
  | found found read =>
    cases second with
    | found same again =>
      cases found.symm.trans same
      exact Except.ok.inj (read.symm.trans again)
    | builtin absent => cases found.symm.trans absent
  | builtin absent =>
    cases second with
    | found found _ => cases absent.symm.trans found
    | builtin _ => rfl

/-- Why there is no book to use, except that the stated file is missing. -/
inductive Halts (shelf : Shelf) : Option String → Stop → Prop
  | unseen {file : String} {problem : FileProblem}
      (unseen : shelf.contains (Path.ofString file) = .error problem) :
      Halts shelf (some file) (.files problem)
  | stated {file : String} {stop : Stop}
      (present : shelf.contains (Path.ofString file) = .ok true)
      (stopped : shelf.bookAt (Path.ofString file) = .error stop) :
      Halts shelf (some file) stop
  | unsearched {problem : FileProblem}
      (unsearched : shelf.recipeFileIn? Path.here = .error problem) :
      Halts shelf none (.files problem)
  | found {path : Path} {stop : Stop}
      (found : shelf.recipeFileIn? Path.here = .ok (some path))
      (stopped : shelf.bookAt path = .error stop) :
      Halts shelf none stop

theorem Loads.not_halts
    (loads : Loads shelf file book) :
    ¬Halts shelf file stop := by
  intro halts
  cases loads with
  | stated present read =>
    cases halts with
    | unseen unseen => cases present.symm.trans unseen
    | stated _ stopped => cases read.symm.trans stopped
  | found found read =>
    cases halts with
    | unsearched unsearched => cases found.symm.trans unsearched
    | found same stopped =>
      cases found.symm.trans same
      cases read.symm.trans stopped
  | builtin absent =>
    cases halts with
    | unsearched unsearched => cases absent.symm.trans unsearched
    | found found _ => cases absent.symm.trans found

/-- A detail for debugging: nothing on the standard output, and nothing at all otherwise. -/
structure Discreet (terminal : Terminal) (detail : Output) : Prop where
  silent : detail.out = ""
  absent : terminal.debug = false → detail = .none

theorem discreet_none :
    Discreet terminal .none :=
  ⟨rfl, fun _ => rfl⟩

theorem discreet_detail
    (text : String) :
    Discreet terminal (terminal.detail text) :=
  ⟨terminal.out_detail text, fun plain => Terminal.detail_of_not_debug plain text⟩

/-- The reply is made with the book to use, behind a detail. -/
theorem withBook_of_loads
    (terminal : Terminal)
    (loads : Loads shelf file book) :
    ∃ detail, Discreet terminal detail ∧
      ∀ stopped next, withBook terminal shelf file stopped next = (next book).after detail := by
  cases loads with
  | stated present read =>
    refine ⟨.none, discreet_none, fun stopped next => ?_⟩
    simp only [withBook, present, read, withLoaded]
    exact (Reply.after_none _).symm
  | @found path _ found read =>
    refine ⟨_, discreet_detail ("using recipe file: " ++ path.toString), fun stopped next => ?_⟩
    simp only [withBook, found, read, withLoaded]
  | builtin absent =>
    refine ⟨_, discreet_detail "no recipe file found, using built-in bridge recipes",
      fun stopped next => ?_⟩
    simp only [withBook, absent]

/-- A stop that keeps the book from being loaded is answered as the action says. -/
theorem withBook_of_halts
    (terminal : Terminal)
    (halts : Halts shelf file stop) :
    ∃ detail, Discreet terminal detail ∧
      ∀ stopped next, withBook terminal shelf file stopped next = (stopped stop).after detail := by
  cases halts with
  | unseen unseen =>
    refine ⟨.none, discreet_none, fun stopped next => ?_⟩
    simp only [withBook, unseen]
    exact (Reply.after_none _).symm
  | stated present failed =>
    refine ⟨.none, discreet_none, fun stopped next => ?_⟩
    simp only [withBook, present, failed, withLoaded]
    exact (Reply.after_none _).symm
  | unsearched unsearched =>
    refine ⟨.none, discreet_none, fun stopped next => ?_⟩
    simp only [withBook, unsearched]
    exact (Reply.after_none _).symm
  | @found path _ found failed =>
    refine ⟨_, discreet_detail ("using recipe file: " ++ path.toString), fun stopped next => ?_⟩
    simp only [withBook, found, failed, withLoaded]

theorem withBook_of_missing
    {name : String}
    (terminal : Terminal)
    (missing : shelf.contains (Path.ofString name) = .ok false)
    (stopped : Stop → Reply)
    (next : Book → Reply) :
    withBook terminal shelf (some name) stopped next = missingFile name := by
  simp only [withBook, missing]

/-- There is a book to use, or a stop on the way to it, or the stated file is missing. -/
theorem loads_or_halts
    (shelf : Shelf)
    (file : Option String) :
    (∃ book, Loads shelf file book) ∨ (∃ stop, Halts shelf file stop) ∨
      ∃ name, file = some name ∧ shelf.contains (Path.ofString name) = .ok false := by
  cases file with
  | some name =>
    cases present : shelf.contains (Path.ofString name) with
    | error problem => exact Or.inr (Or.inl ⟨_, .unseen present⟩)
    | ok there =>
      cases there with
      | false => exact Or.inr (Or.inr ⟨name, rfl, present⟩)
      | true =>
        cases read : shelf.bookAt (Path.ofString name) with
        | error stop => exact Or.inr (Or.inl ⟨stop, .stated present read⟩)
        | ok book => exact Or.inl ⟨book, .stated present read⟩
  | none =>
    cases found : shelf.recipeFileIn? Path.here with
    | error problem => exact Or.inr (Or.inl ⟨_, .unsearched found⟩)
    | ok candidate =>
      cases candidate with
      | none => exact Or.inl ⟨Book.builtin, .builtin found⟩
      | some path =>
        cases read : shelf.bookAt path with
        | error stop => exact Or.inr (Or.inl ⟨stop, .found found read⟩)
        | ok book => exact Or.inl ⟨book, .found found read⟩

end Session

end Cookbook
