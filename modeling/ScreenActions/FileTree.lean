import ScreenActions.Text.Blank

/-! Files as the program sees them, and paths between slashes. -/

namespace ScreenActions

open Text

inductive FileContent
  | text (s : String)
  /-- Bytes that are not text. -/
  | binary
  | directory
  deriving DecidableEq, Repr

namespace FileContent

def isFile : FileContent → Bool
  | .directory => false
  | _ => true

def text? : FileContent → Option String
  | .text s => some s
  | _ => none

end FileContent

/-- What is found at a path, if there is something. -/
abbrev FileTree := String → Option FileContent

namespace FilePath

def isAbsolute (path : String) : Bool := startsWith ['/'] path.toList

/-- A path below a directory; an absolute path stays as it is. -/
def join (dir path : String) : String :=
  if isAbsolute path || dir.isEmpty then path
  else if endsWith ['/'] dir.toList then dir ++ path
  else dir ++ "/" ++ path

/-- The steps of a path without those that stay in place. -/
def steps (path : String) : List String :=
  ((splitAll (· == '/') path.toList).filter fun s => !s.isEmpty && s != ['.']).map String.ofList

/-- Pieces of a path from last to first, without those at its end that stay in place; its first
piece counts always. -/
def dropPlain : List (List Char) → List (List Char)
  | p :: q :: rest => if p.isEmpty || p = ['.'] then dropPlain (q :: rest) else p :: q :: rest
  | pieces => pieces

/-- The directory of a path as it is written, empty for a bare name. -/
def parent (path : String) : String :=
  let pieces := dropPlain (splitAll (· == '/') path.toList).reverse
  match dropPlain (pieces.drop 1) with
  | [[]] => if isAbsolute path then "/" else ""
  | rest => Text.join "/" (rest.reverse.map String.ofList)

/-- What follows the last point of a file name, unless the point opens the name. -/
def extension? (path : String) : Option String :=
  (steps path).getLast?.bind fun name =>
    if name = ".." then none
    else (cutLast '.' name.toList).bind fun (stem, extension) =>
      if stem.isEmpty then none else some (String.ofList extension)

end FilePath
end ScreenActions
