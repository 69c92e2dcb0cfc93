import ViewWiring.CommandLine.Frontend

namespace ViewWiring.Main

/-- The reason that the system gives for a failure. -/
def fileError : IO.Error → FileError
  | .noFileOrDirectory .. => .notFound
  | .alreadyExists .. => .alreadyExists
  | .inappropriateType _ 20 _ => .notDirectory
  | .inappropriateType _ 21 _ => .isDirectory
  | .invalidArgument _ 36 _ => .nameTooLong
  | e => .other e.toString

def attempt {α : Type} (act : IO α) : IO (Except FileError α) := do
  try pure (.ok (← act)) catch e => pure (.error (fileError e))

def save (root : String) (a : Artifact) : IO Unit := do
  let path := Output.path root a
  let content := a.source.toUTF8
  let held ← attempt (IO.FS.readBinFile path)
  unless held.toOption == some content do
    IO.FS.createDirAll (Path.join root ("/".intercalate a.folders))
    IO.FS.writeBinFile path content

/-- The operations on the files of the system. -/
def access : FileAccess IO where
  isPresent path := do
    match ← attempt (IO.FS.readBinFile path) with
    | .error .notFound => pure false
    | _ => pure true
  read path := attempt (IO.FS.readBinFile path)
  write root a := do
    match ← attempt (save root a) with
    | .ok () => pure (.ok ())
    | .error e => pure (.error (Output.failure root a e))

end ViewWiring.Main

def main (args : List String) : IO UInt32 := do
  let outcome ← ViewWiring.CommandLine.run ViewWiring.Main.access ViewWiring.Frontend.standard args
  (← IO.getStdout).putStr outcome.stdout
  (← IO.getStderr).putStr outcome.stderr
  pure outcome.code.toUInt32
