import SpeechService.Command.Synth

/-!
The synthesis command as a program: it looks at the folder of voices, runs the command on what it
saw, and writes what the command leaves behind.
-/

set_option autoImplicit false

namespace SpeechService.Command

/-- The content of a configuration file. Models are not read, for nothing depends on their content.
-/
def readEntry (entry : IO.FS.DirEntry) : IO (String × FolderEntry) := do
  if ← entry.path.isDir then
    return (entry.fileName, .folder)
  else if entry.fileName.endsWith ".json" then
    return (entry.fileName, .file (← IO.FS.readBinFile entry.path).toList)
  else
    return (entry.fileName, .file [])

/-- The folder at a path. Entries that cannot be read are left out. -/
def readFolder (path : String) : IO (Option Folder) := do
  try
    let mut entries : Folder := []
    for entry in ← (System.mkFilePath [path]).readDir do
      try
        entries := (← readEntry entry) :: entries
      catch _ => pure ()
    return some entries
  catch _ => return none

/-- What the arguments let the command see: the folder that they name. -/
def look (words : List String) : IO Disk := do
  let folder ← match parse words with
    | .run { models := some path, .. } => readFolder path
    | _ => pure none
  return ⟨fun _ => none, fun _ => folder, fun _ => none⟩

/-- Run the command and write its files. A file that cannot be written is reported as the command
reports it. -/
def execute (words : List String) : IO RunResult := do
  let disk ← look words
  let result := run disk words
  try
    for (path, content) in result.files do
      IO.FS.writeBinFile path ⟨content.toArray⟩
    return result
  catch refusal =>
    return run { disk with refusal? := fun _ => some (toString refusal) } words

end SpeechService.Command

def main (words : List String) : IO UInt32 := do
  let result ← SpeechService.Command.execute words
  IO.print result.output
  IO.eprint result.errors
  return result.exitCode
