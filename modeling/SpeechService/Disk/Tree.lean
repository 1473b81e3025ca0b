import SpeechService.Voice.Directory

/-!
What a program sees of the file system, and a disk held in memory: files and folders below a working
folder. `FileTree.find` follows a path name by name, and `FileTree.target` says where a file of a
path would come to lie. `FileTree.disk` is what a program sees that runs in the working folder.
-/

set_option autoImplicit false

namespace SpeechService

structure Disk where
  file? : String → Option Bytes
  folder? : String → Option Folder
  /-- Why no file can be created at a path, if none can. -/
  refusal? : String → Option String

/-- A failed run: what was attempted, and the failure that it met, if there is more to say. -/
structure RunFailure where
  attempt : String
  cause : Option String
  deriving DecidableEq, Repr

/-- The report of a failed run. The lines of the cause are indented. -/
def RunFailure.report (failure : RunFailure) : String :=
  let indent := "    "
  let indented (text : String) : String :=
    String.ofList (text.toList.flatMap fun c => if c = '\n' then c :: indent.toList else [c])
  "Error: " ++ failure.attempt ++
    (match failure.cause with
      | none => ""
      | some cause => "\n\nCaused by:\n" ++ indent ++ indented cause) ++ "\n"

def RunFailure.plain (message : String) : RunFailure := ⟨message, none⟩

/-- The parts of a path between its slashes; empty parts are kept. -/
def splitSlashes : List Char → List (List Char)
  | [] => [[]]
  | c :: rest =>
    if c = '/' then [] :: splitSlashes rest
    else match splitSlashes rest with
      | [] => [[c]]
      | part :: parts => (c :: part) :: parts

/-- The names on a path. A slash at either end, or next to another, adds none. -/
def pathNames (path : String) : List String :=
  ((splitSlashes path.toList).filter fun part => !part.isEmpty).map String.ofList

/-- A place to which a path may lead. -/
inductive Place where
  /-- Reached from the working folder by going down these names. -/
  | below (names : List String)
  /-- A folder around the working folder. Nothing is known of what it holds. -/
  | outside
  deriving DecidableEq, Repr

def Place.parent : Place → Place
  | .below (name :: names) => .below (name :: names).dropLast
  | _ => .outside

def Place.child? (name : String) : Place → Option Place
  | .below names => some (.below (names ++ [name]))
  | .outside => none

inductive PathFault where
  | missing
  | notFolder
  | isFolder
  deriving DecidableEq, Repr

def PathFault.message : PathFault → String
  | .missing => "No such file or directory (os error 2)"
  | .notFolder => "Not a directory (os error 20)"
  | .isFolder => "Is a directory (os error 21)"

/-- Entries by the names that lead to them from the working folder. Of two entries in one place the
one in front counts. -/
abbrev FileTree := List (List String × FolderEntry)

namespace FileTree

/-- Entries created one after another at the given paths, the last one in front. -/
def ofEntries (entries : Folder) : FileTree :=
  (entries.map fun entry => (pathNames entry.1, entry.2)).reverse

/-- The entry at a place. A folder exists with all that lies in it, and so do the working folder and
those around it. -/
def get? (tree : FileTree) : Place → Option FolderEntry
  | .outside => some .folder
  | .below names => match tree.lookup names with
    | some entry => some entry
    | none =>
      if names.isEmpty || tree.any (fun entry => names.isPrefixOf entry.1) then some .folder
      else none

def checkFolder (tree : FileTree) (place : Place) : Except PathFault Unit :=
  match tree.get? place with
  | some .folder => .ok ()
  | some (.file _) => .error .notFolder
  | none => .error .missing

/-- Go from a folder to what it holds under a name. One dot stays, two dots go up. -/
def step (tree : FileTree) (place : Place) (name : String) : Except PathFault Place := do
  tree.checkFolder place
  if name = "." then .ok place
  else if name = ".." then .ok place.parent
  else match place.child? name with
    | none => .error .missing
    | some next => if (tree.get? next).isSome then .ok next else .error .missing

/-- Where a path begins: an absolute one at the outermost folder. -/
def origin (path : String) : Place :=
  if path.toList.head? = some '/' then .outside else .below []

/-- Whether a path ends in a slash, which makes it the path of a folder. -/
def endsInSlash (path : String) : Bool := path.toList.getLast? == some '/'

/-- The place that a path leads to. The empty path leads nowhere. -/
def find (tree : FileTree) (path : String) : Except PathFault Place :=
  if path.isEmpty then .error .missing
  else
    let names := if endsInSlash path then pathNames path ++ ["."] else pathNames path
    names.foldlM tree.step (origin path)

/-- Where a file of this path comes to lie: in a folder that exists, in the place of no folder. -/
def target (tree : FileTree) (path : String) : Except PathFault Place :=
  match (pathNames path).getLast? with
  | none => .error (if path.isEmpty then .missing else .isFolder)
  | some name => do
    let folder ← (pathNames path).dropLast.foldlM tree.step (origin path)
    tree.checkFolder folder
    if name = "." || name = ".." || endsInSlash path then .error .isFolder
    else match folder.child? name with
      | none => .ok .outside
      | some place => if tree.get? place = some .folder then .error .isFolder else .ok place

def listing (tree : FileTree) : Place → Folder
  | .outside => []
  | .below folder =>
    let names := tree.filterMap fun entry =>
      if folder.isPrefixOf entry.1 then (entry.1.drop folder.length).head? else none
    names.eraseDups.filterMap fun name =>
      (tree.get? (.below (folder ++ [name]))).map fun entry => (name, entry)

def folder? (tree : FileTree) (path : String) : Option Folder :=
  match tree.find path with
  | .ok place => if tree.get? place = some .folder then some (tree.listing place) else none
  | .error _ => none

def file? (tree : FileTree) (path : String) : Option Bytes :=
  match tree.find path with
  | .ok place => match tree.get? place with
    | some (.file content) => some content
    | _ => none
  | .error _ => none

def refusal? (tree : FileTree) (path : String) : Option PathFault :=
  match tree.target path with
  | .ok _ => none
  | .error fault => some fault

def disk (tree : FileTree) : Disk where
  file? := tree.file?
  folder? := tree.folder?
  refusal? path := (tree.refusal? path).map PathFault.message

end FileTree

end SpeechService
