import HackMachine.CommandLine.Session

/-! # The command

Reads the source file that the arguments name, runs the session, and puts its results into the world.
-/

open HackMachine
open HackMachine.CommandLine

def fileName (name : Bytes) : String := (String.fromUTF8? ⟨name.toArray⟩).getD ""

/-- The directory with the source file in it, if it can be read, and the folders that are named. -/
def loadDirectory (arguments : List Bytes) : IO Directory := do
  match parseArguments {} arguments with
  | .ok (options, [source]) =>
    let folders := [source, options.output].map fun name => (Path.ofName name).folder.name
    try
      let text ← IO.FS.readBinFile (fileName source)
      return { files := [((Path.ofName source).name, text.toList)], folders := folders }
    catch _ => return { folders := folders }
  | _ => return {}

def main (arguments : List String) : IO UInt32 := do
  let arguments := arguments.map (·.toUTF8.toList)
  let directory ← loadDirectory arguments
  let outcome := session arguments directory
  let out ← IO.getStdout
  out.write ⟨outcome.stdout.toArray⟩
  out.flush
  let err ← IO.getStderr
  err.write ⟨outcome.stderr.toArray⟩
  err.flush
  for (name, text) in Directory.changed directory outcome.directory do
    try
      IO.FS.writeBinFile (fileName name) ⟨text.toArray⟩
    catch _ =>
      err.write ⟨(about name (Directory.failed "open" name .missing) ++ [Bytes.newline]).toArray⟩
      return 1
  return outcome.exit.toUInt32
