import Cookbook.Path

/-!
# File trees

A tree lists directories and files by the names that lead to them from the
root.  A path is followed name by name: every place on the way has to be a
directory, and a double dot goes back up.  There are no links: what a link
leads to would stand in the place of the link.  So resolving a path without
looking at the files cancels each double dot against the name in front of it.

Names and written paths have a greatest length, counted in octets of UTF-8.  A
path that is too long as a whole is refused at once, and a name that is too
long when a directory is asked for it.
-/

namespace Cookbook

/-- The names that lead from the root to a place. -/
abbrev Location :=
  List String

def nameLimit : Nat :=
  255

def pathLimit : Nat :=
  4095

/-- What a path leads to. -/
inductive Finding (Contents : Type)
  | directory
  | file (contents : Contents)
  | nothing
  | tooLong

/--
Directories and files below the root, the directory that relative paths start
from, and the home directories, as they are written, under the names with a
tilde that stand for them.
-/
structure Tree (Contents : Type) where
  working : Location
  directories : List Location
  files : List (Location × Contents)
  homes : List (String × String)

namespace Tree

variable {Contents : Type}

/-- Where paths with an anchor start. -/
def base (tree : Tree Contents) : Anchor → Location
  | .working => tree.working
  | _ => []

/-- Whether a place is a directory, listed or on the way to something that is. -/
def isDirectoryAt (tree : Tree Contents) (place : Location) : Bool :=
  place.isPrefixOf tree.working ||
    tree.directories.any place.isPrefixOf ||
    tree.files.any fun file => place.isPrefixOf file.1 && place != file.1

/-- The file at a place, the one listed first if there are several. -/
def fileAt? (tree : Tree Contents) (place : Location) : Option Contents :=
  tree.files.lookup place

def existsAt (tree : Tree Contents) (place : Location) : Bool :=
  tree.isDirectoryAt place || (tree.fileAt? place).isSome

/-- One name further, or back up. -/
def move (place : Location) (name : String) : Location :=
  if name = ".." then place.dropLast else place ++ [name]

/-- What is at a place. -/
def lookAt (tree : Tree Contents) (place : Location) : Finding Contents :=
  if tree.isDirectoryAt place then
    .directory
  else
    match tree.fileAt? place with
    | some contents => .file contents
    | none => .nothing

/-- What names lead to from a place, as far as there is something at each of them. -/
def follow (tree : Tree Contents) (place : Location) : List String → Finding Contents
  | [] => tree.lookAt place
  | name :: rest =>
    if !tree.isDirectoryAt place then
      .nothing
    else if nameLimit < name.utf8ByteSize then
      .tooLong
    else if tree.existsAt (move place name) then
      tree.follow (move place name) rest
    else
      .nothing

/-- What a path leads to. -/
def inspect (tree : Tree Contents) (path : Path) : Finding Contents :=
  if path.isUnnameable then
    .nothing
  else if pathLimit < path.toString.utf8ByteSize then
    .tooLong
  else
    tree.follow (tree.base path.anchor) path.names

/-- The absolute path without double dots, whether or not anything is there. -/
def absolute (tree : Tree Contents) (path : Path) : Path :=
  ⟨.root, path.names.foldl move (tree.base path.anchor)⟩

def addDirectory (tree : Tree Contents) (place : Location) : Tree Contents :=
  { tree with directories := place :: tree.directories }

/-- Adds a file, in place of an earlier one. -/
def addFile (tree : Tree Contents) (place : Location) (contents : Contents) :
    Tree Contents :=
  { tree with files := (place, contents) :: tree.files }

end Tree

end Cookbook
