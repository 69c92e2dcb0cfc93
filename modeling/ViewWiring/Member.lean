import ViewWiring.TypeRef

namespace ViewWiring

inductive Modifier
  | «public» | «protected» | «private» | «static» | «final» | «abstract»
  deriving DecidableEq

def Modifier.word : Modifier → String
  | «public» => "public"
  | «protected» => "protected"
  | «private» => "private"
  | «static» => "static"
  | «final» => "final"
  | «abstract» => "abstract"

/-- What a member asks of the generated class: to be looked up under a view id, to be called once
the views are in place, or to be called when one of some views is clicked. -/
inductive Directive
  | view (id : Int)
  | afterViews
  | click (ids : List Int)
  deriving DecidableEq

inductive Shape
  | field (type : TypeRef)
  | method (params : List TypeRef) (returns : TypeRef)
  deriving DecidableEq

structure Member where
  name : String
  shape : Shape
  modifiers : List Modifier
  directive : Option Directive
  deriving DecidableEq

namespace Member

def isPrivate (m : Member) : Bool := m.modifiers.contains .«private»

/-- Parameter types tell methods of one name apart; a field has its name only. -/
def overrideKey (m : Member) : String × Option (List TypeRef) :=
  match m.shape with
  | .field _ => (m.name, none)
  | .method params _ => (m.name, some params)

/-- A member hides or overrides those of its key further up. -/
def overrides (m other : Member) : Bool := m.overrideKey == other.overrideKey

end Member

end ViewWiring
