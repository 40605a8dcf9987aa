import ScreenActions.CommandLine

/-! The program: it reads the files that a command can ask for, and prints its answer. -/

namespace ScreenActions

open CommandLine

abbrev FileSnapshot := List (String × FileContent)

def readContent (path : String) : IO (Option FileContent) := do
  let here ← IO.currentDir
  let target := here / path
  if ← target.isDir then return some .directory
  else if ← target.pathExists then
    try
      let bytes ← IO.FS.readBinFile target
      return some (match String.fromUTF8? bytes with
        | some s => .text s
        | none => .binary)
    catch _ => return some .binary
  else return none

def readNamed (paths : List String) : IO FileSnapshot := do
  let found ← paths.mapM fun path => return (← readContent path).map fun c => (path, c)
  return found.filterMap id

/-- All files below a directory, under the paths that the directory is named by. -/
def readBelow (root : String) : IO FileSnapshot := do
  let here ← IO.currentDir
  let base := here / root
  if !(← base.isDir) then return []
  let found ← base.walkDir
  let lead := base.toString
  readNamed (found.toList.map fun path =>
    let below := (path.toString.drop lead.length).toString.dropWhile (· == '/')
    FilePath.join root below.toString)

def treeOf (snapshot : FileSnapshot) : FileTree := fun path =>
  let key (p : String) := (FilePath.isAbsolute p, FilePath.steps p)
  (snapshot.find? fun e => key e.1 == key path).map Prod.snd

end ScreenActions

open ScreenActions CommandLine

def main (args : List String) : IO UInt32 := do
  let named ← readNamed (namedFiles args)
  let below ← (namedRoots (treeOf named) args).mapM readBelow
  match execute (treeOf (named ++ below.flatten)) args with
  | .ok output =>
      IO.print output
      return 0
  | .error e =>
      IO.eprintln ("Error: " ++ e.message)
      if let some cause := e.cause then IO.eprintln ("\nCaused by:\n    " ++ cause)
      return e.exitCode.toUInt32
