import TableAsm.CommandLine

/-!
The program itself. It reads the files that the arguments name, and leaves the rest to
`CommandLine.invoke`.
-/
namespace TableAsm.Main

/-- The system's number for the attempt to read a directory. -/
def directoryCode : UInt32 := 21

/-- Why a file cannot be read. A path through something that is no directory leads nowhere. -/
def faultOf : IO.Error → ResourceFault
  | .noFileOrDirectory .. => .absent
  | .inappropriateType _ code _ => if code = directoryCode then .directory else .absent
  | .invalidArgument .. => .absent
  | e => .unreadable (toString e)

/-- The text of a file, or why it cannot be had. -/
def readFile (path : String) : IO (Except ResourceError String) := do
  try
    match String.fromUTF8? (← IO.FS.readBinFile path) with
    | some text => return .ok text
    | none => return .error ⟨path, .notText⟩
  catch e => return .error ⟨path, faultOf e⟩

/-- Reads every file of a list, each under its path. -/
def readFiles (paths : List String) : IO Files := do
  let texts ← paths.mapM fun path => do return (path, ← readFile path)
  return fun path => (texts.lookup path).getD (.error ⟨path, .absent⟩)

/-- The settings that the command line looks at. -/
def readEnvironment : IO Environment := do
  let names := [Environment.lexiconSetting, Environment.grammarSetting]
  let values ← names.mapM fun name => do return (name, ← IO.getEnv name)
  return fun name => (values.lookup name).getD none

end TableAsm.Main

open TableAsm in
def main (arguments : List String) : IO UInt32 := do
  let env ← Main.readEnvironment
  let paths :=
    match CommandLine.Invocation.ofArguments arguments with
    | .run o => o.paths env
    | _ => []
  let output := CommandLine.invoke (← Main.readFiles paths) env arguments
  for record in output.journal do
    IO.eprintln record.render
  IO.print output.stdout
  return UInt32.ofNat output.status
