import Cookbook.Word.Quoting

/-!
# Words of a command line

Splitting happens in two steps.  Each character, read in its quoting state,
yields marks: a gap between words, the opening of a word that may stay empty,
or a letter.  The marks are then gathered into words.  A line whose last state
is inside quotes or after a backslash has no words.
-/

namespace Cookbook.Word

/-- What a character contributes to the words of its line. -/
inductive Mark
  | gap
  | opening
  | letter (character : Char)
  deriving DecidableEq

/-- Why a line has no words. -/
inductive Unfinished
  | quotation
  | escape
  deriving DecidableEq

def Unfinished.message : Unfinished → String
  | .quotation => "No closing quotation"
  | .escape => "No escaped character"

/-- The four characters that separate words outside quotes. -/
def isSeparator (letter : Char) : Bool :=
  letter == ' ' || letter == '\t' || letter == '\r' || letter == '\n'

/--
The marks of one character.  Inside double quotes a backslash escapes only a
double quote or a backslash and is otherwise kept.
-/
def emit : Quoting → Char → List Mark
  | .bare, letter =>
    if isSeparator letter then [.gap]
    else if letter == '\'' || letter == '"' then [.opening]
    else if letter == '\\' then []
    else [.letter letter]
  | .single, letter => if letter == '\'' then [] else [.letter letter]
  | .double, letter => if letter == '"' || letter == '\\' then [] else [.letter letter]
  | .bareEscape, letter => [.letter letter]
  | .doubleEscape, letter =>
    if letter == '"' || letter == '\\' then [.letter letter]
    else [.letter '\\', .letter letter]

/-- The marks of a text that is read from a quoting state. -/
def marks (quoting : Quoting) : List Char → List Mark
  | [] => []
  | letter :: rest => emit quoting letter ++ marks (quoting.next letter) rest

@[simp]
theorem marks_nil
    (quoting : Quoting) :
    marks quoting [] = [] :=
  rfl

/-- Marks compose along the quoting state. -/
@[simp]
theorem marks_append
    (quoting : Quoting)
    (front back : List Char) :
    marks quoting (front ++ back) =
      marks quoting front ++ marks (quoting.after front) back := by
  induction front generalizing quoting with
  | nil => rfl
  | cons letter rest hypothesis =>
    simp [marks, hypothesis, List.append_assoc]

/--
The word that is open at the left end of the marks, if any, and the words
after it.
-/
def gather : List Mark → Option (List Char) × List (List Char)
  | [] => (none, [])
  | .gap :: rest =>
    let later := gather rest
    (none, later.1.toList ++ later.2)
  | .opening :: rest =>
    let later := gather rest
    (some (later.1.getD []), later.2)
  | .letter character :: rest =>
    let later := gather rest
    (some (character :: later.1.getD []), later.2)

/-- The words that marks spell. -/
def wordsOfMarks (spelled : List Mark) : List (List Char) :=
  let gathered := gather spelled
  gathered.1.toList ++ gathered.2

@[simp]
theorem wordsOfMarks_nil :
    wordsOfMarks [] = [] :=
  rfl

/-- A gap in front of all marks changes nothing. -/
@[simp]
theorem wordsOfMarks_gap
    (rest : List Mark) :
    wordsOfMarks (.gap :: rest) = wordsOfMarks rest := by
  simp [wordsOfMarks, gather]

def splitCharacters (line : List Char) : Except Unfinished (List (List Char)) :=
  match Quoting.bare.after line with
  | .bare => .ok (wordsOfMarks (marks .bare line))
  | .single => .error .quotation
  | .double => .error .quotation
  | .bareEscape => .error .escape
  | .doubleEscape => .error .escape

def split (line : String) : Except Unfinished (List String) :=
  (splitCharacters line.toList).map (·.map String.ofList)

end Cookbook.Word
