/-!
# Writing words on a command line

A word that consists of safe characters is written as it is.  Any other word
is enclosed in single quotes, and a single quote inside it is written as a
closing quote, a double-quoted single quote, and an opening quote.
-/

namespace Cookbook.Word

/-- The characters that need no quotes. -/
def isSafe (letter : Char) : Bool :=
  letter.isAlphanum || "@%+=:,./_-".toList.contains letter

/-- A character between single quotes. -/
def quotedCharacter (letter : Char) : List Char :=
  if letter == '\'' then ['\'', '"', '\'', '"', '\''] else [letter]

def quote (word : List Char) : List Char :=
  if word.isEmpty then ['\'', '\'']
  else if word.all isSafe then word
  else '\'' :: word.flatMap quotedCharacter ++ ['\'']

/-- The written form of a list of words, with one space between two words. -/
def joinCharacters : List (List Char) → List Char
  | [] => []
  | [word] => quote word
  | word :: rest => quote word ++ ' ' :: joinCharacters rest

def join (words : List String) : String :=
  String.ofList (joinCharacters (words.map String.toList))

@[simp]
theorem quote_nil :
    quote [] = ['\'', '\''] :=
  rfl

@[simp]
theorem joinCharacters_nil :
    joinCharacters [] = [] :=
  rfl

end Cookbook.Word
