import ViewWiring.Artifact

namespace ViewWiring

/-- Artifacts in memory, in strictly increasing order of their qualified names. -/
structure Store where
  artifacts : List Artifact
  deriving DecidableEq

namespace Store

def empty : Store := ⟨[]⟩

def insertInto (a : Artifact) : List Artifact → List Artifact
  | [] => [a]
  | b :: bs =>
    if a.qualifiedName < b.qualifiedName then a :: b :: bs
    else if a.qualifiedName = b.qualifiedName then a :: bs
    else b :: insertInto a bs

/-- A later artifact of one name takes the place of an earlier one. -/
def insert (s : Store) (a : Artifact) : Store := ⟨insertInto a s.artifacts⟩

def get? (s : Store) (qualifiedName : String) : Option Artifact :=
  s.artifacts.find? fun a => a.qualifiedName == qualifiedName

def size (s : Store) : Nat := s.artifacts.length

/-- Keeps every artifact and refuses none. -/
def writer : Writer (StateM Store) := fun a => do
  modify (·.insert a)
  pure (.ok ())

end Store

end ViewWiring
