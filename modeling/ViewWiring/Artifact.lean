import ViewWiring.Code.Printer
import ViewWiring.Config
import ViewWiring.Files.Path

namespace ViewWiring

/-- The text of one generated class. -/
structure Artifact where
  package : String
  className : String
  source : String
  deriving DecidableEq

namespace Artifact

def ofSourceFile (config : Config) (f : Code.SourceFile) : Artifact :=
  ⟨f.package, f.className, f.print config.indent⟩

/-- The parts of the package that lead to the folder of the class. -/
def folders (a : Artifact) : List String :=
  ((a.package.toList.splitOn '.').map String.ofList).filter fun part => !part.isEmpty

/-- A folder for each part of the package, and a file named for the class. -/
def relativePath (a : Artifact) : String :=
  Path.join (a.folders.foldl Path.join "") (a.className ++ ".java")

def qualifiedName (a : Artifact) : String :=
  if a.package.isEmpty then a.className else a.package ++ "." ++ a.className

end Artifact

/-- A place refused an artifact. -/
structure WriteFailure where
  path : String
  reason : String
  deriving DecidableEq

def WriteFailure.message (f : WriteFailure) : String :=
  "could not write " ++ f.path ++ ": " ++ f.reason

/-- Takes one artifact after the other; the effects are those of `m`. -/
abbrev Writer (m : Type → Type) := Artifact → m (Except WriteFailure Unit)

end ViewWiring
