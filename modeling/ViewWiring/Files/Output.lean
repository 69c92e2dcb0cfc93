import ViewWiring.Artifact
import ViewWiring.Files.Tree

namespace ViewWiring

inductive WriteOutcome
  | written
  | unchanged
  deriving DecidableEq

namespace Output

def path (root : String) (a : Artifact) : String := Path.join root a.relativePath

def failure (root : String) (a : Artifact) (e : FileError) : WriteFailure :=
  ⟨path root a, e.message⟩

def holds (top : Entry) (places : List (List String)) (content : ByteArray) : Bool :=
  match top.read places with
  | .ok held => held == content
  | .error _ => false

/-- Writes an artifact below `root`, unless the file is there with the same bytes already. -/
def write (root : String) (a : Artifact) (top : Entry) :
    Except WriteFailure WriteOutcome × Entry :=
  let places := Path.places (path root a)
  let content := a.source.toUTF8
  if holds top places content then (.ok .unchanged, top)
  else
    match top.makeDirectories (Path.folderPlaces (path root a)) with
    | (.error e, top) => (.error (failure root a e), top)
    | (.ok (), top) =>
      match top.write (places.getLast?.getD []) content with
      | (.error e, top) => (.error (failure root a e), top)
      | (.ok (), top) => (.ok .written, top)

/-- Writes every artifact below `root` in a tree of files. -/
def writer (root : String) : Writer (StateM Entry) := fun a top =>
  match write root a top with
  | (.ok _, top) => (.ok (), top)
  | (.error e, top) => (.error e, top)

end Output

end ViewWiring
