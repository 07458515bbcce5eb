import ArtifactSelection.Command.Run

/-!
The program. It reads the files that the command line names, hands everything to the pure run, and
prints what comes out.
-/

namespace ArtifactSelection.Program

open Command

def reason : IO.Error → String
  | .noFileOrDirectory _ _ _ => Files.noSuchFile
  | .inappropriateType _ 21 _ => Files.isADirectory
  | .inappropriateType _ _ _ => Files.notADirectory
  | e => toString e

def read (path : String) : IO (Except String String) := do
  try
    match String.fromUTF8? (← IO.FS.readBinFile path) with
    | some s => return .ok s
    | none => return .error Files.notText
  catch e => return .error (reason e)

def snapshot (paths : List String) : IO Files := do
  let contents ← paths.mapM fun p => return (p, ← read p)
  let content (path : String) := (contents.lookup path).getD (.error Files.noSuchFile)
  return {
    leads := fun path =>
      match content path with
      | .error e => e != Files.noSuchFile && e != Files.notADirectory
      | .ok _ => true
    read := content }

def explain (usage : Usage) : IO Unit :=
  match usage, usage.line? with
  | .version, some line => IO.println line
  | _, some line => IO.eprintln line
  | _, none => return ()

def runInvocation (i : Invocation) (environment : Option String) : IO Nat := do
  let files ← snapshot (i.target.descriptor :: (Settings.source? i.config environment).toList)
  let outcome := i.run .usual environment files
  for e in i.shown outcome.events do
    IO.eprintln (toString e.level ++ " " ++ e.topic ++ ": " ++ e.message)
  IO.print (outcome.output i.format)
  IO.eprint outcome.complaint
  return outcome.exitCode

end ArtifactSelection.Program

open ArtifactSelection in
def main (arguments : List String) : IO UInt32 := do
  let environment ← IO.getEnv "RESOLVE_CONFIG"
  match Command.Invocation.parse environment arguments with
  | .error usage =>
    Program.explain usage
    return usage.exitCode.toUInt32
  | .ok i => return (← Program.runInvocation i environment).toUInt32
