import Tablewright.Cli.Run
import Tablewright.Text.Utf8

/-! The command line as a program. No engine and no application are linked to it: every database is
found empty, every change succeeds, and there are no modules to take a schema from. -/

namespace Tablewright.Cli

def variableNames : List String :=
  Environment.sections.flatMap fun (name, fields, _) =>
    let naming : Naming := {}
    let start := naming.start ++ name
    (start :: fields.map fun f => start ++ naming.delimiter ++ f).map Text.uppercase

def readVariable (name : String) : IO (Option (String × String)) := do
  return (← IO.getEnv name).map fun value => (name, value)

def contentOf (bytes : ByteArray) : FileContent :=
  match String.fromUTF8? bytes, Text.flawFrom 0 [] [] bytes.toList with
  | some text, _ => .text text
  | none, flaw => .garbled (flaw.elim "" (·.message))

def readFile (directory path : String) : IO (Option (String × FileContent)) := do
  try return some (Path.resolve directory path, contentOf (← IO.FS.readBinFile path))
  catch _ => return none

def readHost (paths : List String) : IO Host := do
  let directory := (← IO.currentDir).toString
  let home := (← IO.getEnv "HOME").getD directory
  let files ← paths.filterMapM (readFile directory)
  let env ← variableNames.filterMapM readVariable
  return { directory, home, files, env }

def program (args : List String) : IO UInt32 := do
  let host ← readHost (Settings.defaultFile :: args)
  let (outcome, _) := (run { host, modules := [] } args).run {}
  IO.print outcome.stdout
  for line in outcome.shown.flatMap Shown.lines do
    IO.println line
  IO.eprint outcome.stderr
  if let some (.fault f) := outcome.failure then IO.eprintln f.message
  return outcome.exit.toUInt32

end Tablewright.Cli

def main (args : List String) : IO UInt32 := Tablewright.Cli.program args
