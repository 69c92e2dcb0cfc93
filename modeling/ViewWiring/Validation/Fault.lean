import ViewWiring.Component
import ViewWiring.Config
import ViewWiring.Diagnostic
import ViewWiring.Hierarchy

namespace ViewWiring

namespace Component

def anchor (c : Component) : Diagnostic.Anchor := ⟨c.name, none⟩

def memberAnchor (c : Component) (m : Member) : Diagnostic.Anchor := ⟨c.name, some m.name⟩

/-- What keeps a component from being bound at all. -/
inductive Fault
  | notClass (kind : DeclarationKind)
  | missingBase (base : TypeName) (note : String)
  deriving DecidableEq

def Fault.diagnostic (c : Component) : Fault → Diagnostic
  | notClass kind =>
    .anchored .invalidDeclarationKind
      ("'" ++ c.relativeName ++ "' is " ++ kind.phrase ++ ", only classes can be bound to a layout")
      c.anchor
  | missingBase base note =>
    (Diagnostic.anchored .missingRequiredBase
      ("class '" ++ c.relativeName ++ "' must inherit from " ++ base.text) c.anchor).withNote note

end Component

namespace Member

/-- A rule that a member breaks. -/
inductive Fault
  | viewOnMethod
  | hookOnField
  | handlerOnField
  | fieldNotView (type : TypeRef) (view : TypeName) (note : String)
  | privateField
  | privateMethod
  | hookTakesParams (count : Nat)
  | handlerTakes (type : TypeRef) (view : TypeName) (note : String)
  | handlerParamCount (count : Nat)
  | returnsValue (type : TypeRef)
  deriving DecidableEq

namespace Fault

def kind : Fault → Diagnostic.Kind
  | viewOnMethod | hookOnField | handlerOnField | fieldNotView .. => .invalidMemberType
  | privateField | privateMethod => .illegalPrivateModifier
  | hookTakesParams _ | handlerTakes .. | handlerParamCount _ | returnsValue _ => .invalidSignature

def message (member : String) : Fault → String
  | viewOnMethod => "view binding '" ++ member ++ "' must be a field"
  | hookOnField => "post-init hook '" ++ member ++ "' must be a method"
  | handlerOnField => "click handler '" ++ member ++ "' must be a method"
  | fieldNotView type view _ =>
    "field '" ++ member ++ "' of type " ++ type.text ++ " must be a subtype of " ++ view.text
  | privateField => "field '" ++ member ++ "' must not be private"
  | privateMethod => "method '" ++ member ++ "' must not be private"
  | hookTakesParams count =>
    "post-init hook '" ++ member ++ "' must take no parameters, found " ++ toString count
  | handlerTakes type view _ =>
    "click handler '" ++ member ++ "' takes " ++ type.text ++ ", expected a subtype of " ++
      view.text
  | handlerParamCount count =>
    "click handler '" ++ member ++ "' must take exactly one parameter, found " ++ toString count
  | returnsValue type => "method '" ++ member ++ "' must return void, found " ++ type.text

/-- What is said of a fault; of a class that is no view, also why it is none. -/
def diagnostic (c : Component) (m : Member) (f : Fault) : Diagnostic :=
  let d := Diagnostic.anchored f.kind (f.message m.name) (c.memberAnchor m)
  match f with
  | fieldNotView _ _ note | handlerTakes _ _ note => d.withNote note
  | _ => d

@[simp] theorem anchor_diagnostic (c : Component) (m : Member) (f : Fault) :
    (f.diagnostic c m).anchor = some (c.memberAnchor m) := by
  cases f <;> rfl

end Fault

end Member

end ViewWiring
