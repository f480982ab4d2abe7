import Cookbook.Proofs.Text.Line
import Cookbook.Proofs.Text.Utf8
import Cookbook.Shelf

/-!
# Stored justfiles

A justfile is stored as octets and read with one kind of line end.  Decoding
gives back the characters that were stored, and the kind of line ends does not
show in the lines, which are all that a justfile is read by.  So a stored
justfile describes the book that its text describes, and is refused where the
text is refused, at the same line.  The path under which it is reported is
absolute, also when the stated path starts in a home directory.
-/

namespace Cookbook

variable
    {shelf : Shelf}
    {path place : Path}

/-- A justfile is read by its lines. -/
theorem Justfile.book_of_lines_eq
    {text other : String}
    (same : Text.lines other.toList = Text.lines text.toList)
    (path : String) :
    Justfile.book other path = Justfile.book text path := by
  rw [Justfile.book, Justfile.book, read, read, same]

namespace Shelf

/-- The text of octets that encode a text is that text, but for its line ends. -/
theorem text_toUTF8
    (text : String) :
    Shelf.text text.toUTF8.data.toList = .ok (String.ofList (Text.unifyNewlines text.toList)) := by
  rw [Shelf.text, Text.Utf8.toList_toUTF8, Text.Utf8.decode_encoded]

theorem bookOfOctets_toUTF8
    (text path : String) :
    bookOfOctets text.toUTF8.data.toList path =
      (Justfile.book text path).mapError .failure := by
  have same : Text.lines (String.ofList (Text.unifyNewlines text.toList)).toList =
      Text.lines text.toList := by
    rw [String.toList_ofList, Text.lines_unifyNewlines]
  rw [bookOfOctets, text_toUTF8]
  simp only [Justfile.book_of_lines_eq same]
  cases Justfile.book text path with
  | error failure => rfl
  | ok book => rfl

theorem contains_of_file
    {contents : Contents}
    (stored : shelf.inspect path = .file contents) :
    shelf.contains path = .ok true := by
  rw [contains, stored]

/-- An absolute path does not start in a home directory. -/
theorem expanded_absolute
    (path : Path) :
    shelf.expanded (shelf.absolute path) = .ok (shelf.absolute path) :=
  rfl

theorem exists_absolute_of_resolve
    (resolves : shelf.resolve path = .ok place) :
    ∃ start, place = shelf.absolute start := by
  unfold resolve at resolves
  split at resolves
  · cases resolves
  · rename_i start _
    split at resolves
    · cases resolves
    · exact ⟨start, (Except.ok.inj resolves).symm⟩

/-- Once a path is resolved, nothing in it stands for a home directory any more. -/
theorem readJustfile_of_resolve
    {contents : Contents}
    (resolves : shelf.resolve path = .ok place)
    (stored : shelf.inspect place = .file contents) :
    shelf.readJustfile place = bookOfOctets contents.octetsOnly place.toString := by
  rcases exists_absolute_of_resolve resolves with ⟨start, rfl⟩
  rw [readJustfile, expanded_absolute]
  simp only [stored]

/--
A path resolves to a place where there is a file that is no program, and its
octets encode a text.  Loading the path gives what the text gives when it is
read as the justfile at that place: the same book or the same failure.
-/
theorem stored_text_read_as_written
    (text : String)
    (resolves : shelf.resolve path = .ok place)
    (stored : shelf.inspect place = .file (.octets text.toUTF8.data.toList))
    (plain : place.suffix ≠ ".py") :
    shelf.bookAt path = (Justfile.book text place.toString).mapError .failure := by
  rw [← bookOfOctets_toUTF8]
  simp only [bookAt, resolves, contains_of_file stored, if_neg plain,
    readJustfile_of_resolve resolves stored]
  rfl

/-- Carriage returns before and behind a line that is refused, in a file of the home directory. -/
theorem stored_text_read_as_written_refused :
    let text : String := "# é\r\r\n x"
    let shelf : Shelf :=
      ⟨["work"], [], [(["home", "books", "my.just"], .octets text.toUTF8.data.toList)],
        [("~", "/home")]⟩
    let path : Path := Path.ofString "~/old/../books/./my.just"
    let place : Path := Path.ofString "/home/books/my.just"
    shelf.resolve path = .ok place ∧ place.suffix ≠ ".py" ∧
      shelf.bookAt path =
        .error (.failure (.badJustfile "/home/books/my.just" 3 .strayIndentation)) := by
  intro text shelf path place
  have resolves : shelf.resolve path = .ok place := by rfl
  have plain : place.suffix ≠ ".py" := by decide
  have stored : shelf.inspect place = .file (.octets text.toUTF8.data.toList) := by rfl
  have written : place.toString = "/home/books/my.just" := by decide
  have refused : Justfile.read "# é\r\r\n x" = .error ⟨3, .strayIndentation⟩ := by rfl
  refine ⟨resolves, plain, ?_⟩
  rw [stored_text_read_as_written text resolves stored plain, written, Justfile.book, refused]
  rfl

end Shelf

end Cookbook
