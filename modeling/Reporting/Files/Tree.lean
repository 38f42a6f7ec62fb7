import Reporting.Files.Entry
import Reporting.Text.Split

/-!
# Files/Tree — files in directories

A tree lists files by the names that lead to them from the top; the directories are those on the
way.  A relative path starts at the directory that is home.  A path is followed step by step, so
every step but the last has to end in a directory, and so does the last if a slash follows it.
-/

namespace Reporting

/-- Files in directories. -/
structure FileTree where
  /-- The directory where relative paths start. -/
  home : List String
  files : List (List String × Entry)

namespace FileTree

/-- What is found at a place, given by the names that lead to it.  Home and the directories above it
are there even if no file is. -/
def entry (t : FileTree) (place : List String) : Entry :=
  match t.files.lookup place with
  | some entry => entry
  | none =>
    if (t.home :: t.files.map (·.1)).any fun other => place.isPrefixOf other then .directory
    else .missing

/-- Whether a place is a directory. -/
def isDirectory (t : FileTree) (place : List String) : Bool :=
  (t.files.lookup place).isNone && (t.entry place).isPresent

/-- Goes a step from a place. -/
def step (t : FileTree) (place : List String) (name : String) : Option (List String) :=
  if !t.isDirectory place then none
  else if name = "" ∨ name = "." then some place
  else if name = ".." then some place.dropLast
  else
    let place := place ++ [name]
    if (t.entry place).isPresent then some place else none

/-- Goes several steps from a place. -/
def walk (t : FileTree) (place : List String) : List String → Option (List String)
  | [] => some place
  | name :: rest => (t.step place name).bind fun place => t.walk place rest

/-- What is found at a path.  Nothing is found at the empty one. -/
def look (t : FileTree) (path : String) : Entry :=
  let steps := (Text.split '/' path.toList).map String.ofList
  let start := if path.startsWith "/" then [] else t.home
  if path.isEmpty then .missing
  else
    match t.walk start steps with
    | some place => t.entry place
    | none => .missing

end FileTree

end Reporting
