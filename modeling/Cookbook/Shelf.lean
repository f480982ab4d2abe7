import Cookbook.Justfile.Reading
import Cookbook.Process
import Cookbook.Text.Utf8
import Cookbook.Tree

/-!
# Books on files

A recipe file is either a justfile, read as UTF-8 text, or a program that
defines its book.  A program says so by its suffix, and is a file or a
directory with an entry point; it offers the book under one of two names, as a
maker that is called or as a value.

Paths of recipe files may start with the name of a home directory.
-/

namespace Cookbook

/-- A name that a program defines, with the book it makes or holds, or why there is none. -/
structure Definition where
  name : String
  callable : Bool
  book : Except Stop (Option Book)

/-- What a file holds. -/
inductive Contents
  | octets (octets : List UInt8)
  | program (definitions : List Definition)

namespace Contents

/-- The octets of a file; a program has none. -/
def octetsOnly : Contents → List UInt8
  | .octets stored => stored
  | .program _ => []

/-- The definitions in a file; a file that is no program defines nothing. -/
def definitions : Contents → List Definition
  | .program found => found
  | .octets _ => []

end Contents

/-- A tree of recipe files and other files. -/
abbrev Shelf :=
  Tree Contents

namespace Shelf

/-- The text of octets, with one kind of line end. -/
def text (octets : List UInt8) : Except Stop String :=
  match Text.Utf8.decode octets with
  | .error malformed => .error (.files (.encoding malformed))
  | .ok decoded => .ok (String.ofList (Text.unifyNewlines decoded))

/-- The book of a justfile that is stored as octets. -/
def bookOfOctets (octets : List UInt8) (path : String) : Except Stop Book :=
  match text octets with
  | .error stop => .error stop
  | .ok text =>
    match Justfile.book text path with
    | .error failure => .error (.failure failure)
    | .ok book => .ok book

/-- Whether there is anything at a path. -/
def contains (shelf : Shelf) (path : Path) : Except FileProblem Bool :=
  match shelf.inspect path with
  | .directory => .ok true
  | .file _ => .ok true
  | .nothing => .ok false
  | .tooLong => .error (.tooLong path.toString)

/-- Whether a path leads to a directory. -/
def isDirectory (shelf : Shelf) (path : Path) : Except FileProblem Bool :=
  match shelf.inspect path with
  | .directory => .ok true
  | .file _ => .ok false
  | .nothing => .ok false
  | .tooLong => .error (.tooLong path.toString)

/-- The path with the home directory that it starts with, if it names one. -/
def expanded (shelf : Shelf) (path : Path) : Except Abort Path :=
  match path.homeName? with
  | none => .ok path
  | some name =>
    if name.toList.contains '\x00' then
      .error (.invalidRequest "embedded null byte")
    else
      match shelf.homes.lookup name with
      | none => .error (.breakdown "Could not determine home directory.")
      | some home => .ok (path.inHome home)

/-- The absolute path that a recipe file is reported by. -/
def resolve (shelf : Shelf) (path : Path) : Except Abort Path :=
  match shelf.expanded path with
  | .error cause => .error cause
  | .ok place =>
    if place.isUnnameable then .error (.invalidRequest "embedded null byte")
    else .ok (shelf.absolute place)

/-- The book of the justfile at a path. -/
def readJustfile (shelf : Shelf) (path : Path) : Except Stop Book :=
  match shelf.expanded path with
  | .error cause => .error (.abort cause)
  | .ok place =>
    match shelf.inspect place with
    | .file contents => bookOfOctets contents.octetsOnly place.toString
    | .directory => .error (.files (.directory place.toString))
    | .nothing => .error (.files (.noJustfile place.toString))
    | .tooLong => .error (.files (.tooLong place.toString))

/-- The first stop among the values that a program computes when it is loaded. -/
def loadStop? (definitions : List Definition) : Option Stop :=
  (definitions.filter (!·.callable)).findSome? fun definition =>
    match definition.book with
    | .error stop => some stop
    | .ok _ => none

/-- What a program offers as its book. -/
def offered (definitions : List Definition) : Except Stop (Option Book) :=
  match definitions.find? (·.name == "recipes") with
  | some ⟨_, true, book⟩ => book
  | _ =>
    match definitions.find? (·.name == "RECIPES") with
    | some ⟨_, false, book⟩ => book
    | _ => .ok none

/-- The book that a program defines. -/
def bookOfProgram (definitions : List Definition) (path : String) : Except Stop Book :=
  match loadStop? definitions with
  | some stop => .error stop
  | none =>
    match offered definitions with
    | .error stop => .error stop
    | .ok none => .error (.failure (.unusableBook path .notABook))
    | .ok (some book) => .ok book

/-- The definitions of a program that is a directory, unless a package hides them. -/
def entryPoint? (shelf : Shelf) (directory : Path) : Option (List Definition) :=
  match shelf.inspect (directory.join "__main__/__init__.py") with
  | .file _ => none
  | _ =>
    match shelf.inspect (directory.join "__main__.py") with
    | .file contents => some contents.definitions
    | _ => none

/-- The definitions of the program at a path: a file, or a directory with an entry point. -/
def program (shelf : Shelf) (path : Path) : Except Stop (List Definition) :=
  match shelf.inspect path with
  | .file contents => .ok contents.definitions
  | _ =>
    match shelf.entryPoint? path with
    | some definitions => .ok definitions
    | none => .error (.files (.noEntryPoint path.toString))

/-- The book of the program at a path. -/
def readProgram (shelf : Shelf) (path : Path) : Except Stop Book :=
  match shelf.program path with
  | .error stop => .error stop
  | .ok definitions => bookOfProgram definitions path.toString

/-- The book of the recipe file at a path, which is reported by its absolute path. -/
def bookAt (shelf : Shelf) (path : Path) : Except Stop Book :=
  match shelf.resolve path with
  | .error cause => .error (.abort cause)
  | .ok absolute =>
    match shelf.contains absolute with
    | .error problem => .error (.files problem)
    | .ok false => .error (.files (.noRecipeFile absolute.toString))
    | .ok true =>
      if absolute.suffix = ".py" then shelf.readProgram absolute
      else shelf.readJustfile absolute

/-- The names under which a recipe file is looked for, the preferred one first. -/
def recipeFileNames : List String :=
  ["reciperun_recipes.py", "justfile", "Justfile"]

/-- The first of some paths that leads to a file. -/
def firstFile? (shelf : Shelf) : List Path → Except FileProblem (Option Path)
  | [] => .ok none
  | path :: rest =>
    match shelf.inspect path with
    | .file _ => .ok (some path)
    | .tooLong => .error (.tooLong path.toString)
    | _ => shelf.firstFile? rest

def recipeFileIn? (shelf : Shelf) (directory : Path) : Except FileProblem (Option Path) :=
  shelf.firstFile? (recipeFileNames.map directory.join)

end Shelf

end Cookbook
