import HackMachine.CommandLine.Path

/-! # The files around the command

A directory of named texts, some of them in known folders.  `.` and `..` are folders, `/dev/null`
swallows what is written to it, and a name in an unknown folder leads nowhere.
-/

namespace HackMachine

namespace CommandLine

structure Directory where
  /-- Named texts, each by the shortest name of its way. -/
  files : List (Bytes × Bytes) := []
  /-- The folders beside the one the command runs in. -/
  folders : List Bytes := []
  deriving DecidableEq, Repr, Inhabited

inductive FileError where
  | missing
  | notFolder
  | isFolder
  | longName
  deriving DecidableEq, Repr, Inhabited

def FileError.text : FileError → Bytes
  | .missing => ascii "no such file or directory"
  | .notFolder => ascii "not a directory"
  | .isFolder => ascii "is a directory"
  | .longName => ascii "file name too long"

inductive Place where
  | null
  | folder
  | file (name : Bytes)
  | slashed (name : Bytes)
  | blocked (error : FileError)
  deriving DecidableEq, Repr, Inhabited

namespace Directory

def nameLimit : Nat := 255

/-- Whether a path is in the folder the command runs in, or in a folder beside it. -/
def reaches (directory : Directory) (path : Path) : Bool :=
  (!path.absolute && path.steps.length == 1) || directory.folders.contains path.folder.name

/-- Why a path goes through a folder that is not there. -/
def obstacle (directory : Directory) (path : Path) : FileError :=
  match path.steps with
  | step :: _ =>
    if path.absolute then .missing
    else if nameLimit < step.length then .longName
    else if (directory.files.lookup step).isSome then .notFolder
    else .missing
  | [] => .missing

def find (directory : Directory) (name : Bytes) : Place :=
  let path := Path.ofName name
  if name.isEmpty then .blocked .missing
  else if path.name == ascii "/dev/null" && path.ending = .name then .null
  else if path.isAround then .folder
  else if path.ending = .here || !directory.reaches path then .blocked (directory.obstacle path)
  else if path.steps.getLast?.any (nameLimit < ·.length) then .blocked .longName
  else if path.ending = .slash then .slashed path.name
  else .file path.name

def failed (operation : String) (name : Bytes) (error : FileError) : Bytes :=
  ascii operation ++ ascii " " ++ name ++ ascii ": " ++ error.text

def read (directory : Directory) (name : Bytes) : Except Bytes Bytes :=
  match directory.find name with
  | .null => .ok []
  | .folder => .error (failed "read" name .isFolder)
  | .blocked error => .error (failed "open" name error)
  | .slashed base =>
    .error (failed "open" name
      (if (directory.files.lookup base).isSome then .notFolder else .missing))
  | .file base =>
    match directory.files.lookup base with
    | some text => .ok text
    | none => .error (failed "open" name .missing)

def write (directory : Directory) (name text : Bytes) : Except Bytes Directory :=
  match directory.find name with
  | .null => .ok directory
  | .folder | .slashed _ => .error (failed "open" name .isFolder)
  | .blocked error => .error (failed "open" name error)
  | .file base =>
    .ok { directory with files := (base, text) :: directory.files.filter (·.1 != base) }

/-- The files that are new in a directory or hold another text than before. -/
def changed (before after : Directory) : List (Bytes × Bytes) :=
  after.files.filter fun (name, text) => before.files.lookup name != some text

end Directory

/-- A file name with its extension, from the last dot behind the last slash on, replaced. -/
def replaceExtension (name extension : Bytes) : Bytes :=
  let reversed := name.reverse
  let tail := reversed.takeWhile fun b => b != byte '.' && b != byte '/'
  match reversed.drop tail.length with
  | b :: stem => if b == byte '.' then stem.reverse ++ extension else name ++ extension
  | [] => name ++ extension

end CommandLine

end HackMachine
