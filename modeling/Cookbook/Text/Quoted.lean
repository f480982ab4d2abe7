import Cookbook.Text.Printable

/-!
# Quoted texts

A diagnostic shows a text between quotation marks, with every character that
could not be read off the screen written as an escape.  Single marks are used
unless the text holds a single mark and no double mark.
-/

namespace Cookbook.Text

/-- The lower-case hexadecimal digits of a number, padded with zeros to a width. -/
def hexadecimal (width value : Nat) : List Char :=
  let digits := Nat.toDigits 16 value
  List.replicate (width - digits.length) '0' ++ digits

def quotationMark (text : List Char) : Char :=
  if text.contains '\'' && !text.contains '"' then '"' else '\''

/-- A character as it stands between two marks. -/
def shownCharacter (mark letter : Char) : List Char :=
  let code := letter.toNat
  if letter == mark || letter == '\\' then ['\\', letter]
  else if letter == '\t' then ['\\', 't']
  else if letter == '\n' then ['\\', 'n']
  else if letter == '\r' then ['\\', 'r']
  else if code < 0x20 || code == 0x7F then '\\' :: 'x' :: hexadecimal 2 code
  else if code < 0x7F || isPrintable letter then [letter]
  else if code ≤ 0xFF then '\\' :: 'x' :: hexadecimal 2 code
  else if code ≤ 0xFFFF then '\\' :: 'u' :: hexadecimal 4 code
  else '\\' :: 'U' :: hexadecimal 8 code

def quoted (text : String) : String :=
  let mark := quotationMark text.toList
  String.ofList (mark :: text.toList.flatMap (shownCharacter mark) ++ [mark])

/-- A list of texts, each quoted, between brackets. -/
def quotedList (texts : List String) : String :=
  "[" ++ ", ".intercalate (texts.map quoted) ++ "]"

end Cookbook.Text
