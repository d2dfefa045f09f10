import KeepAlive.Text.Search

/-!
# The folder for screenshots

A folder is made when the first screenshot is kept, unless a file stands in its place.  It has no
folders in it, so a file's name must not lead into one; a name may lead out of it, to where nobody
looks for screenshots.
-/

namespace KeepAlive.Browser

/-- A folder and the files in it. -/
structure Folder where
  path : String
  /-- Whether the folder can be made. -/
  available : Bool := true
  files : List (String × List UInt8) := []
  deriving Repr

namespace Folder

/-- A file's name has at most so many bytes. -/
def longestName : Nat := 255

/-- Where a relative path leads. -/
inductive Target
  /-- To a file in the folder. -/
  | inside (name : String)
  /-- To a file in a folder above. -/
  | above
  /-- To no place that there is. -/
  | nowhere
  deriving DecidableEq, Repr

/-- Where a relative path leads: empty segments and single dots stay where they are, and two dots
lead one folder up. -/
def targetOf (relative : String) : Target :=
  match (Text.parts (· = '/') relative.toList).reverse with
  | [] => .nowhere
  | last :: steps =>
    let name := String.ofList last
    let climbs := steps.filter fun step => !step.isEmpty && step ≠ ['.']
    if relative.startsWith "/" || relative.contains '\x00' || longestName < name.utf8ByteSize then
      .nowhere
    else if climbs.isEmpty then .inside name
    else if climbs.all (· = ['.', '.']) then .above
    else .nowhere

/-- Where a relative path leads, from the folder's path on. -/
def pathTo (folder : Folder) (relative : String) : String :=
  if relative.startsWith "/" then relative
  else if folder.path.isEmpty || folder.path.endsWith "/" then folder.path ++ relative
  else folder.path ++ "/" ++ relative

/-- The folder with a file of the given content in place of any of its name. -/
def insert (folder : Folder) (name : String) (content : List UInt8) : Folder :=
  { folder with files := (name, content) :: folder.files.filter fun file => file.1 ≠ name }

theorem lookup_insert (folder : Folder) (name : String) (content : List UInt8) :
    (folder.insert name content).files.lookup name = some content := by
  simp [insert]

/-- Keeps a screenshot, or says why it cannot be kept. -/
def keep (folder : Folder) (id : String) (content : List UInt8) : Except String Folder :=
  if !folder.available then .error ("Failed to create " ++ folder.path)
  else
    match targetOf (id ++ ".png") with
    | .inside name => .ok (folder.insert name content)
    | .above => .ok folder
    | .nowhere => .error ("Failed to write screenshot " ++ folder.pathTo (id ++ ".png"))

end Folder

end KeepAlive.Browser
