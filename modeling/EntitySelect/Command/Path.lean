import EntitySelect.Catalog.Error
import EntitySelect.Text.Basic

/-! File paths, and trees of files to look paths up in. -/
namespace EntitySelect.Path

/-- Drops trailing slashes and trailing dots that stand for the directory itself; the path is given
backwards. -/
def trimBack : List Char → List Char
  | '/' :: rest => trimBack rest
  | '.' :: '/' :: rest => trimBack rest
  | cs => cs

/-- Drops the last component of a path that is given backwards. -/
def dropLastBack (cs : List Char) : List Char := cs.dropWhile (· != '/')

/-- What a path starts with, a slash or a dot for the working directory, and the rest. -/
def splitHead : List Char → List Char × List Char
  | '/' :: rest => (['/'], rest)
  | ['.'] => (['.'], [])
  | '.' :: '/' :: rest => (['.'], '/' :: rest)
  | cs => ([], cs)

/-- The components behind the head, without what does not change the place. -/
def trimBody (body : List Char) : List Char :=
  let cs := trimBack body.reverse
  (if cs = ['.'] then [] else cs).reverse

/-- The directory of a path, as it was written; the directory of a path of one component is
empty. -/
def parent (path : String) : String :=
  let (head, body) := splitHead path.toList
  match trimBody body with
  | [] => ""
  | cs => String.ofList (head ++ trimBody (dropLastBack cs.reverse).reverse)

/-- A path below a directory. A path that starts at the root stays as it is. -/
def join (dir path : String) : String :=
  if path.startsWith "/" || dir.isEmpty then path
  else if dir.endsWith "/" then dir ++ path
  else dir ++ "/" ++ path

end EntitySelect.Path

namespace EntitySelect

/-- Files by their components below a working directory. Nothing else is known to exist, except
directories above it. -/
structure FileTree where
  files : List (List String × String)

namespace FileTree

/-- The names in a path; those that stand for the place itself count for nothing. -/
def components (path : String) : List String :=
  ((Text.pieces '/' path.toList).map String.ofList).filter fun c => c != "" && c != "."

/-- A tree of files with the given paths. -/
def ofList (files : List (String × String)) : FileTree :=
  ⟨files.map fun f => (components f.1, f.2)⟩

def isDirectory (t : FileTree) (place : List String) : Bool :=
  t.files.any fun f => place.isPrefixOf f.1 && place.length < f.1.length

/-- Follows names from a directory; none is a directory above the working directory. -/
def walk (t : FileTree) : Option (List String) → List String → Except FileFault String
  | _, [] => .error .directory
  | place, "" :: rest => walk t place rest
  | place, "." :: rest => walk t place rest
  | none, ".." :: rest => walk t none rest
  | some place, ".." :: rest => walk t (if place.isEmpty then none else some place.dropLast) rest
  | none, name :: _ => .error (if 255 < name.utf8ByteSize then .nameTooLong else .missing)
  | some place, name :: rest =>
    let here := place ++ [name]
    if 255 < name.utf8ByteSize then .error .nameTooLong
    else if t.isDirectory here then walk t (some here) rest
    else match t.files.lookup here with
      | none => .error .missing
      | some text => if rest.isEmpty then .ok text else .error .notDirectory

/-- The content of the file that a path leads to. -/
def read (t : FileTree) (path : String) : Except FileFault String :=
  if path.isEmpty then .error .missing
  else if path.contains '\x00' then .error .nulInName
  else if 4095 < path.utf8ByteSize then .error .nameTooLong
  else
    t.walk (if path.startsWith "/" then none else some [])
      ((Text.pieces '/' path.toList).map String.ofList)

end FileTree
end EntitySelect
