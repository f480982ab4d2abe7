/-!
# Blank characters

Blanks are the characters that separate fields and that trimming removes: the
white space of Unicode together with the four information separators.  The
module holds the class, the trimming functions, and the splitting of a text
into its blank-free fields.
-/

namespace Cookbook.Text

/-- A blank is a white-space character of Unicode or one of the separators U+001C to U+001F. -/
def isBlank (letter : Char) : Bool :=
  let code := letter.toNat
  (9 ≤ code && code ≤ 13) || (28 ≤ code && code ≤ 32) ||
    code == 0x85 || code == 0xA0 || code == 0x1680 ||
    (0x2000 ≤ code && code ≤ 0x200A) ||
    code == 0x2028 || code == 0x2029 || code == 0x202F ||
    code == 0x205F || code == 0x3000

def trimLeft (text : List Char) : List Char :=
  text.dropWhile isBlank

def trimRight (text : List Char) : List Char :=
  (text.reverse.dropWhile isBlank).reverse

def trim (text : List Char) : List Char :=
  trimRight (trimLeft text)

@[simp]
theorem trimLeft_nil :
    trimLeft [] = [] :=
  rfl

@[simp]
theorem trimRight_nil :
    trimRight [] = [] :=
  rfl

@[simp]
theorem trim_nil :
    trim [] = [] :=
  rfl

/-- The maximal blank-free runs of a text, in order. -/
def fields : List Char → List (List Char)
  | [] => []
  | letter :: rest =>
    if isBlank letter then
      fields rest
    else
      match rest with
      | [] => [[letter]]
      | next :: _ =>
        if isBlank next then
          [letter] :: fields rest
        else
          match fields rest with
          | [] => [[letter]]
          | field :: further => (letter :: field) :: further

@[simp]
theorem fields_nil :
    fields [] = [] :=
  rfl

/-- A leading blank belongs to no field. -/
theorem fields_blank
    (letter : Char)
    (rest : List Char)
    (blank : isBlank letter = true) :
    fields (letter :: rest) = fields rest := by
  simp [fields, blank]

end Cookbook.Text
