import Relocate.Files.FileSystem

namespace Relocate.FileSystem

def put (fs : FileSystem) (l : Location) (e : Entry) : FileSystem := ⟨(l, e) :: fs.entries⟩

/-- The folders on the way to `names` below `here`, made where nothing is. A link is followed. The
location it comes to is returned with the file system. -/
def makeFolders (fs : FileSystem) (here : Location) : Location → FileSystem × Location
  | [] => (fs, here)
  | name :: rest =>
    match fs.walk maxLinks here [.down name] with
    | .ok l => fs.makeFolders l rest
    | .error _ => (fs.put (here ++ [name]) .folder).makeFolders (here ++ [name]) rest

end Relocate.FileSystem
