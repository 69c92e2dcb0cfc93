import ViewWiring.Member

namespace ViewWiring

inductive DeclarationKind
  | «class» | interface | enum | annotationType | record
  deriving DecidableEq

def DeclarationKind.phrase : DeclarationKind → String
  | «class» => "a class"
  | interface => "an interface"
  | enum => "an enum"
  | annotationType => "an annotation type"
  | record => "a record"

/-- A declaration to generate a subclass for; `layout` is the resource that its views are in. -/
structure Component where
  name : TypeName
  package : String
  kind : DeclarationKind
  base : Option TypeName
  layout : Option Int
  members : List Member
  deriving DecidableEq

namespace Component

/-- A class of this name in the package that the name says, with nothing else declared. -/
def ofName (name : TypeName) : Component := ⟨name, name.package, .«class», none, none, []⟩

def relativeName (c : Component) : String := c.name.relativeTo c.package

end Component

end ViewWiring
