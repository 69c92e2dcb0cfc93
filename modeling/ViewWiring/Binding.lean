import ViewWiring.TypeName

namespace ViewWiring

structure ViewBinding where
  id : Int
  member : String
  type : TypeName
  deriving DecidableEq

/-- A handler with the ids that it listens on, and the class of its parameter if it has exactly
one of a class type. -/
structure ClickBinding where
  handler : String
  ids : List Int
  param : Option TypeName
  deriving DecidableEq

/-- All that is generated for one component, each kind in the order of the members. -/
structure ComponentBinding where
  component : TypeName
  package : String
  relativeName : String
  layout : Option Int
  views : List ViewBinding
  hooks : List String
  clicks : List ClickBinding
  deriving DecidableEq

namespace ComponentBinding

def simpleName (b : ComponentBinding) : String := b.component.simpleName

/-- Two statements set the layout up; then comes one for each view, hook and clicked id. -/
def statementCount (b : ComponentBinding) : Nat :=
  2 + b.views.length + b.hooks.length + (b.clicks.flatMap ClickBinding.ids).length

end ComponentBinding

end ViewWiring
