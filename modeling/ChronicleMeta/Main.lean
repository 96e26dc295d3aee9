import ChronicleMeta.CommandLine.Execution

/-! The command line tool: reads the files that the arguments name, and prints what follows from them. -/

namespace ChronicleMeta.CommandLine

def readFile (name : String) : IO File := do
  try
    return .text (← IO.FS.readFile name)
  catch
    | .noFileOrDirectory .. => return .absent
    | _ => return .unreadable

def run (a : Arguments) : IO UInt32 := do
  let config ← readFile a.options.configFile
  let name := a.options.catalog.or (← IO.getEnv "CHRONOS_CATALOG")
  let catalog ← name.mapM fun name => return (name, ← readFile name)
  let id : DatabaseId := ⟨.ofNat 128 (← IO.rand 1 (BitVec.allOnes 128).toNat)⟩
  match a.execute config catalog id with
  | .ok output =>
    IO.print output
    return 0
  | .error p =>
    IO.eprint (Text.unlines p.report)
    return p.exitCode

end ChronicleMeta.CommandLine

/-- Exits with 0 after a success, with 2 if the arguments make no sense, else as the problem says. -/
def main (args : List String) : IO UInt32 := do
  match ChronicleMeta.CommandLine.Arguments.ofWords? args with
  | some a => ChronicleMeta.CommandLine.run a
  | none =>
    IO.eprintln "usage: [OPTIONS] schema|chronicle|property ACTION [OPERAND]"
    return 2
