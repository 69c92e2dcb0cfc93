import ViewWiring.Code.SourceFile

namespace ViewWiring.Code

/-- Which class each simple name belongs to in a file, and the classes to import. -/
structure Names where
  claims : List (String × String)
  imports : List String
  deriving DecidableEq

/-- Adds a text to a strictly increasing list, by code points, which is also the order of the
encoded bytes. -/
def insertSorted (text : String) : List String → List String
  | [] => [text]
  | t :: ts =>
    if text < t then text :: t :: ts
    else if text = t then t :: ts
    else t :: insertSorted text ts

/-- Classes of these packages are in sight without an import. -/
def ClassRef.isImplicitIn (r : ClassRef) (package : String) : Bool :=
  r.package.isEmpty || r.package == package || r.package == "java.lang"

namespace Names

def owner? (names : Names) (simpleName : String) : Option String := names.claims.lookup simpleName

/-- Whether the simple name of the class, or of the one around it, means that class here. -/
def resolves (names : Names) (r : ClassRef) : Bool :=
  names.owner? r.topLevel == some r.qualifiedTopLevel

/-- Takes a simple name for a class if nobody holds it; says whether the name is that class's. -/
def claim (names : Names) (simpleName qualifiedName : String) : Bool × Names :=
  match names.owner? simpleName with
  | some owner => (owner == qualifiedName, names)
  | none => (true, { names with claims := (simpleName, qualifiedName) :: names.claims })

/-- A class that gets its name is imported, unless it is in sight anyway. -/
def mention (package : String) (names : Names) (r : ClassRef) : Names :=
  let (held, names) := names.claim r.topLevel r.qualifiedTopLevel
  if held && !r.isImplicitIn package then
    { names with imports := insertSorted r.qualifiedTopLevel names.imports }
  else names

/-- The class itself takes its name first, then the classes that the file mentions take theirs
in order. -/
def ofFile (f : SourceFile) : Names :=
  f.refs.foldl (mention f.package) ((Names.mk [] []).claim f.className f.qualifiedName).2

/-- A class that does not hold its simple name is called by its qualified name. -/
def name (names : Names) (r : ClassRef) : String :=
  if names.resolves r then r.name else r.qualified

end Names

end ViewWiring.Code
