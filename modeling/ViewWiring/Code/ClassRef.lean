import ViewWiring.TypeName

namespace ViewWiring.Code

/-- A class as generated code refers to it; the name is relative to the package and dotted if the
class is nested in another. -/
structure ClassRef where
  package : String
  name : String
  deriving DecidableEq

namespace ClassRef

/-- Everything before the last dot counts as the package. -/
def ofType (type : TypeName) : ClassRef := ⟨type.package, type.simpleName⟩

def nested (r : ClassRef) (name : String) : ClassRef := ⟨r.package, r.name ++ "." ++ name⟩

/-- The outermost class around this one; imports name no other. -/
def topLevel (r : ClassRef) : String := String.ofList (r.name.toList.takeWhile (· != '.'))

/-- A name in the package of this class. -/
def qualify (r : ClassRef) (name : String) : String :=
  if r.package.isEmpty then name else r.package ++ "." ++ name

def qualified (r : ClassRef) : String := r.qualify r.name

def qualifiedTopLevel (r : ClassRef) : String := r.qualify r.topLevel

end ClassRef

end ViewWiring.Code
