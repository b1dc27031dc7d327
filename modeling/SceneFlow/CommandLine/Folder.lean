import SceneFlow.CommandLine.Execution

/-!
# Folders in memory

A folder held as data, in which commands can be run without touching a disk: names of files, which
may lead through folders, and their contents.

A path is followed part by part. Every part but the last has to lead into a folder, and a slash at
the end asks for a folder too. Paths are relative to the folder held as data; they may leave it
upwards, and one that begins with a slash begins outside. Outside there are the folders that every
system has at its root, and the null device; the folder held as data is taken to stand at the root.
-/

set_option autoImplicit false

namespace SceneFlow

/-- The contents of files by their paths. -/
structure Folder where
  files : List (String × String)

/-- Where a path leads. -/
inductive Place where
  /-- Through a folder that does not exist. -/
  | missing
  /-- On behind a file. -/
  | behindFile
  /-- To a name that is longer than names may be. -/
  | nameTooLong
  | folder
  | file (name content : String)
  /-- To a name in the folder that no file has yet. -/
  | free (name : String)
  /-- To a name outside the folder that no file has. -/
  | elsewhere
  /-- To the device that is always empty and forgets what is written to it. -/
  | nullDevice

namespace Place

/-- Where a path leads that goes on where one has led to no folder. -/
def behind : Place → Place
  | .file .. | .nullDevice => .behindFile
  | .free _ | .elsewhere => .missing
  | place => place

def entry : Place → Entry
  | .folder => .unreadable
  | .file _ content => .text content
  | .nullDevice => .text ""
  | _ => .missing

/-- Why a file cannot be written at a place, if it cannot. -/
def refusal? : Place → Option WriteRefusal
  | .missing => some .noDirectory
  | .behindFile => some .notDirectory
  | .nameTooLong => some .nameTooLong
  | .folder => some .isDirectory
  | .file .. | .free _ | .elsewhere | .nullDevice => none

/-- The name under which a place's file is kept in the folder, if one is kept there. -/
def name? : Place → Option String
  | .file name _ | .free name => some name
  | _ => none

end Place

/-! ## Paths -/

namespace Path

def parts (path : String) : List String :=
  (path.splitOn "/").filter (· ≠ "")

def startsAtRoot (path : String) : Bool :=
  path.toList.head? == some '/'

def endsInSlash (path : String) : Bool :=
  path.toList.getLast? == some '/'

/-- How many bytes a name may have. -/
def nameLimit : Nat := 255

/-- How many bytes a path may have. -/
def limit : Nat := 4095

end Path

/-! ## Following a path -/

namespace Folder

/-- The folder one stands in while a path is followed, by the names that lead to it: from the folder
held as data, or from the root. -/
inductive Standing where
  | inside (names : List String)
  | outside (names : List String)

/-- The folder above. The root is above itself. -/
def Standing.parent : Standing → Standing
  | .inside [] => .outside []
  | .inside names => .inside names.dropLast
  | .outside names => .outside names.dropLast

/-- What a name stands for in a folder. -/
inductive Named where
  | folder (standing : Standing)
  /-- No folder: where a path leads that ends here. -/
  | leaf (place : Place)

/-- Whether names lead to a folder inside the folder. -/
def holdsFolder (folder : Folder) (names : List String) : Bool :=
  folder.files.any fun (name, _) => name.startsWith ("/".intercalate names ++ "/")

/-- The folders that every system has at its root. -/
def rootFolders : List String :=
  ["bin", "dev", "etc", "home", "lib", "root", "tmp", "usr", "var"]

def insideNamed (folder : Folder) (names : List String) : Named :=
  let name := "/".intercalate names
  match folder.files.lookup name with
  | some content => .leaf (.file name content)
  | none =>
      if folder.holdsFolder names then .folder (.inside names) else .leaf (.free name)

def outsideNamed (names : List String) : Named :=
  if names = ["dev", "null"] then .leaf .nullDevice
  else if rootFolders.any (names = [·]) then .folder (.outside names)
  else .leaf .elsewhere

def named (folder : Folder) (standing : Standing) (name : String) : Named :=
  if Path.nameLimit < name.utf8ByteSize then .leaf .nameTooLong
  else
    match standing with
    | .inside names => folder.insideNamed (names ++ [name])
    | .outside names => outsideNamed (names ++ [name])

/-- Where the parts of a path lead. -/
def follow (folder : Folder) : Standing → List String → Place
  | _, [] => .folder
  | standing, part :: rest =>
      if part = "." then follow folder standing rest
      else if part = ".." then follow folder standing.parent rest
      else
        match folder.named standing part with
        | .folder next => follow folder next rest
        | .leaf place => if rest.isEmpty then place else place.behind

def lead (folder : Folder) (path : String) (parts : List String) : Place :=
  if path = "" then .missing
  else if Path.limit < path.utf8ByteSize then .nameTooLong
  else folder.follow (if Path.startsAtRoot path then .outside [] else .inside []) parts

/-- Where a path leads to what is there. -/
def place (folder : Folder) (path : String) : Place :=
  folder.lead path
    (if Path.endsInSlash path then Path.parts path ++ ["."] else Path.parts path)

/-- Where a path leads to write a file. A last part with a slash behind it is no name for a file: it
is not looked up, and counts as the folder it would be in. -/
def placeToWrite (folder : Folder) (path : String) : Place :=
  folder.lead path
    (if Path.endsInSlash path then (Path.parts path).dropLast ++ ["."] else Path.parts path)

def disk (folder : Folder) : Disk where
  entry path := (folder.place path).entry
  refusal? path := (folder.placeToWrite path).refusal?

end Folder

end SceneFlow
