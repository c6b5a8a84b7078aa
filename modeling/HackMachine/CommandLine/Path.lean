import HackMachine.Text.Bytes

/-! # Names of files

A name leads from folder to folder, with slashes between their names.  Empty names and `.` lead
nowhere further, so `./p`, `.//p` and `p` are one file.
-/

namespace HackMachine

namespace CommandLine

/-- What stands behind the last slash of a file's name. -/
inductive PathEnd where
  | name
  | slash
  /-- A dot: the folder must be there. -/
  | here
  deriving DecidableEq, Repr, Inhabited

structure Path where
  absolute : Bool
  /-- The folders on the way, and the file at its end. -/
  steps : List Bytes
  ending : PathEnd
  deriving DecidableEq, Repr, Inhabited

namespace Path

def pieces (name : Bytes) : List Bytes :=
  name.foldr (fun b rest =>
    if b == byte '/' then [] :: rest
    else match rest with
      | [] => [[b]]
      | piece :: more => (b :: piece) :: more) [[]]

def ofName (name : Bytes) : Path where
  absolute := name.head? == some (byte '/')
  steps := (pieces name).filter fun piece => !piece.isEmpty && piece != ascii "."
  ending :=
    match (pieces name).getLast? with
    | some piece => if piece.isEmpty then .slash else if piece == ascii "." then .here else .name
    | none => .name

/-- The shortest name of a way. -/
def name (path : Path) : Bytes :=
  (if path.absolute then ascii "/" else []) ++ Bytes.join (ascii "/") path.steps

def folder (path : Path) : Path := ⟨path.absolute, path.steps.dropLast, .name⟩

/-- Whether a way leads only upwards, or nowhere at all. -/
def isAround (path : Path) : Bool := path.steps.all (· == ascii "..")

end Path

end CommandLine

end HackMachine
