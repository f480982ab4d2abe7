/-!
# Quoting states

A command line is read one character at a time.  The quoting state before a
character decides what the character means: a separator, an opening or closing
mark, an escape, or a letter of a word.  Every character that is reached
through a state is accounted for, so the state before each position of a line
is a function of the characters in front of it.
-/

namespace Cookbook.Word

/-- Where the reader of a command line stands. -/
inductive Quoting
  | bare
  | single
  | double
  | bareEscape
  | doubleEscape
  deriving DecidableEq

namespace Quoting

def next : Quoting → Char → Quoting
  | .bare, letter =>
    if letter == '\'' then .single
    else if letter == '"' then .double
    else if letter == '\\' then .bareEscape
    else .bare
  | .single, letter => if letter == '\'' then .bare else .single
  | .double, letter =>
    if letter == '"' then .bare
    else if letter == '\\' then .doubleEscape
    else .double
  | .bareEscape, _ => .bare
  | .doubleEscape, _ => .double

def after (quoting : Quoting) (text : List Char) : Quoting :=
  text.foldl next quoting

@[simp]
theorem after_nil
    (quoting : Quoting) :
    quoting.after [] = quoting :=
  rfl

@[simp]
theorem after_cons
    (quoting : Quoting)
    (letter : Char)
    (rest : List Char) :
    quoting.after (letter :: rest) = (quoting.next letter).after rest :=
  rfl

@[simp]
theorem after_append
    (quoting : Quoting)
    (front back : List Char) :
    quoting.after (front ++ back) = (quoting.after front).after back :=
  List.foldl_append

end Quoting

end Cookbook.Word
