import ScriptLex.Files.Access

/-!
# File trees

Files and directories as values, with the file operations on them. There are no
links and no permissions.
-/

namespace ScriptLex

inductive Content where
  | text (s : String)
  /-- Bytes that are no text. -/
  | binary (bytes : ByteArray)

def Content.ofBytes (bytes : ByteArray) : Content :=
  match String.fromUTF8? bytes with
  | some s => .text s
  | none => .binary bytes

inductive Entry where
  | file (content : Content)
  | directory (entries : List (String × Entry))

namespace Entry

def empty : Entry := .directory []

def isDirectory : Entry → Bool
  | directory _ => true
  | file _ => false

def find? : List String → Entry → Option Entry
  | [], e => some e
  | name :: names, directory entries => (entries.lookup name).bind (find? names)
  | _ :: _, file _ => none

/-- Puts an entry where names lead to. Missing directories are made; a file on the way gives way
to a directory. -/
def put (e : Entry) (names : List String) (new : Entry) : Entry :=
  match names with
  | [] => new
  | name :: names =>
    let entries := match e with
      | directory entries => entries
      | file _ => []
    directory ((name, ((entries.lookup name).getD empty).put names new) ::
      entries.filter (·.1 ≠ name))

end Entry

structure FileTree where
  root : Entry := .empty
  /-- Where relative paths start. -/
  workingDirectory : List String := []

namespace FileTree

/-- Follows names from the directory at `location`. All but the last have to lead to directories. -/
def follow (root : Entry) (location : List String) : List String → Except FileError (List String)
  | [] => .ok location
  | name :: names =>
    match root.find? location with
    | none => .error .notFound
    | some (.file _) => .error .notADirectory
    | some (.directory _) =>
      if name = "." then follow root location names
      else if name = ".." then follow root location.dropLast names
      else if name.utf8ByteSize > Path.maxNameBytes then .error .nameTooLong
      else follow root (location ++ [name]) names

def start (t : FileTree) (path : String) : Except FileError (List String) :=
  if path.toList.contains '\x00' then .error .invalidName
  else if path = "" then .error .notFound
  else if path.utf8ByteSize > Path.maxBytes then .error .nameTooLong
  else .ok (if Path.isAbsolute path then [] else t.workingDirectory)

def locate (t : FileTree) (path : String) : Except FileError (List String) := do
  follow t.root (← t.start path) (Path.names path)

def entry (t : FileTree) (path : String) : Except FileError Entry := do
  let location ← t.locate path
  match t.root.find? location with
  | none => .error .notFound
  | some (.file content) =>
    if Path.endsInSlash path then .error .notADirectory else .ok (.file content)
  | some directory => .ok directory

def pathExists (t : FileTree) (path : String) : Bool := (t.entry path).toBool

def isDirectory (t : FileTree) (path : String) : Bool :=
  match t.entry path with
  | .ok e => e.isDirectory
  | .error _ => false

def readText (t : FileTree) (path : String) : Except FileError String := do
  match ← t.entry path with
  | .directory _ => .error .isADirectory
  | .file (.binary _) => .error .notText
  | .file (.text s) => .ok s

/-- Adds a file or replaces its text. A slash at the end asks for a directory: then only the way to
the last name is followed. -/
def writeText (t : FileTree) (path : String) (text : String) : Except FileError FileTree := do
  if Path.endsInSlash path then
    discard <| follow t.root (← t.start path) ((Path.names path).dropLast ++ ["."])
    .error .isADirectory
  else
    let location ← t.locate path
    match t.root.find? location with
    | some (.directory _) => .error .isADirectory
    | _ => .ok { t with root := t.root.put location (.file (.text text)) }

def makeDirectory (t : FileTree) (path : String) : Except FileError FileTree := do
  let location ← t.locate path
  match t.root.find? location with
  | some _ => .error .alreadyExists
  | none => .ok { t with root := t.root.put location .empty }

def change (f : FileTree → Except FileError FileTree) : StateM FileTree (Except FileError Unit) :=
  fun t =>
    match f t with
    | .ok changed => (.ok (), changed)
    | .error e => (.error e, t)

instance : FileAccess (StateM FileTree) where
  pathExists path := do return (← get).pathExists path
  isDirectory path := do return (← get).isDirectory path
  readText path := do return (← get).readText path
  writeText path text := change (·.writeText path text)
  makeDirectory path := change (·.makeDirectory path)

end FileTree
end ScriptLex
