import Relocate.CommandLine.Execute
import Relocate.Files.Create

namespace Relocate

def watched : List String :=
  ["ROPIFY_PYTHON", "VIRTUAL_ENV", "CONDA_PREFIX", "PATH", "HOME", "RUST_LOG"]

def seenVariables : IO (List (String × String)) :=
  watched.filterMapM fun name => do return (← IO.getEnv name).map (name, ·)

def locationOf (path : String) : Location := Path.lexical [] path

/-- Adds what a path names, if it names anything: a folder, a file, or a link to one. -/
def see (folder : Location) (fs : FileSystem) (path : String) : IO FileSystem := do
  try
    let place ← IO.FS.realPath path
    let l := locationOf place.toString
    let entry ←
      if ← place.isDir then pure Entry.folder
      else do pure (Entry.file (← IO.FS.readBinFile place).toList false)
    let fs := (fs.makeFolders [] l.dropLast).1.put l entry
    let named := Path.lexical folder path
    return if named = l then fs else fs.put named (.link l.written)
  catch _ => return fs

def seenHost (words : List String) : IO Host := do
  let folder := locationOf (← IO.currentDir).toString
  let environment ← seenVariables
  let paths := words ++ environment.map (·.2) ++ ("." :: words).map Settings.file
  let base := ((⟨[]⟩ : FileSystem).makeFolders [] folder).1
  return ⟨← paths.foldlM (see folder) base, folder, environment, [], .ok (), .brief⟩

def levelWord : Log.Level → String
  | .error => "ERROR"
  | .warn => "WARN"
  | .info => "INFO"
  | .debug => "DEBUG"
  | .trace => "TRACE"

/-- Runs a command line. Its input stays unread: a question is asked only once a worker has
answered. -/
def runWords (words : List String) : IO UInt32 := do
  let out := CommandLine.execute (← seenHost words) [] words
  for entry in out.logs do
    IO.eprintln (levelWord entry.level ++ " " ++ entry.written)
  IO.print out.stdout
  IO.eprint out.stderr
  return out.exit.toUInt32

end Relocate

def main (words : List String) : IO UInt32 := Relocate.runWords words
