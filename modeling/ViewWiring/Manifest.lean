import ViewWiring.Source.Declarations

namespace ViewWiring

/-- A manifest as it is written down, before any name in it has been looked at. -/
inductive MemberEntry.Kind
  | field
  | method
  deriving DecidableEq

structure MemberEntry where
  name : String
  kind : MemberEntry.Kind
  type : Option String
  params : Option (List String)
  returns : Option String
  modifiers : List Modifier
  view : Option Int
  afterViews : Bool
  click : Option (List Int)
  deriving DecidableEq

structure ComponentEntry where
  name : String
  kind : DeclarationKind
  package : Option String
  base : Option String
  layout : Option Int
  members : List MemberEntry
  deriving DecidableEq

structure TypeEntry where
  name : String
  base : String
  members : List MemberEntry
  deriving DecidableEq

structure Manifest where
  components : List ComponentEntry
  types : List TypeEntry
  deriving DecidableEq

namespace Manifest

/-- What is wrong with the shape of a member. -/
inductive ShapeFault
  | fieldWithoutType
  | fieldWithSignature
  | methodWithType
  deriving DecidableEq

def ShapeFault.reason : ShapeFault → String
  | fieldWithoutType => "fields need a 'type'"
  | fieldWithSignature => "fields take no 'params' or 'returns'"
  | methodWithType => "methods use 'params' and 'returns', not 'type'"

inductive Error
  | typeName (name : String)
  | packageMismatch (component : TypeName) (package : String)
  | memberName (owner : TypeName) (member : String)
  | conflictingDirectives (owner : TypeName) (member : String)
  | emptyClickIds (owner : TypeName) (member : String)
  | memberShape (owner : TypeName) (member : String) (fault : ShapeFault)
  deriving DecidableEq

def Error.message : Error → String
  | typeName name => "'" ++ name ++ "' is not a valid qualified type name"
  | packageMismatch component package =>
    component.text ++ " is not declared inside package '" ++ package ++ "'"
  | memberName owner member =>
    "'" ++ member ++ "' in " ++ owner.text ++ " is not a valid member name"
  | conflictingDirectives owner member =>
    owner.text ++ "#" ++ member ++ " carries more than one binding directive"
  | emptyClickIds owner member =>
    "click directive on " ++ owner.text ++ "#" ++ member ++ " lists no view ids"
  | memberShape owner member fault => owner.text ++ "#" ++ member ++ ": " ++ fault.reason

def typeName (name : String) : Except Error TypeName :=
  if isQualifiedName name then .ok ⟨name⟩ else .error (.typeName name)

def typeRef (text : String) : Except Error TypeRef :=
  match TypeRef.ofText text with
  | .declared name => (typeName name.text).map .declared
  | builtin => .ok builtin

end Manifest

namespace MemberEntry

def directives (e : MemberEntry) : List Directive :=
  (e.view.map Directive.view).toList ++ (if e.afterViews then [.afterViews] else []) ++
    (e.click.map Directive.click).toList

/-- A member has one directive at most, and a click names some view. -/
def directive (owner : TypeName) (e : MemberEntry) : Except Manifest.Error (Option Directive) :=
  if e.click = some [] then .error (.emptyClickIds owner e.name)
  else
    match e.directives with
    | [] => .ok none
    | [d] => .ok (some d)
    | _ => .error (.conflictingDirectives owner e.name)

/-- A field has a type and nothing else; a method has parameters and a result, by default none. -/
def shape (owner : TypeName) (e : MemberEntry) : Except Manifest.Error Shape :=
  match e.kind, e.type, e.params, e.returns with
  | .field, some type, none, none => (Manifest.typeRef type).map .field
  | .field, none, _, _ => .error (.memberShape owner e.name .fieldWithoutType)
  | .field, some _, _, _ => .error (.memberShape owner e.name .fieldWithSignature)
  | .method, none, params, returns => do
    let params ← (params.getD []).mapM Manifest.typeRef
    let returns ← Manifest.typeRef (returns.getD "void")
    .ok (.method params returns)
  | .method, some _, _, _ => .error (.memberShape owner e.name .methodWithType)

def toMember (owner : TypeName) (e : MemberEntry) : Except Manifest.Error Member :=
  if isIdentifier e.name then do
    let directive ← e.directive owner
    let shape ← e.shape owner
    .ok ⟨e.name, shape, e.modifiers, directive⟩
  else .error (.memberName owner e.name)

end MemberEntry

namespace ComponentEntry

/-- The package as given, which the name has to lie in, or else as the name says; the unnamed
package holds everything. -/
def packageOf (name : TypeName) (package : Option String) : Except Manifest.Error String :=
  match package with
  | none => .ok name.package
  | some package =>
    if package.isEmpty then .ok package
    else if !isQualifiedName package then .error (.typeName package)
    else if (package.toList ++ ['.']).isPrefixOf name.text.toList then .ok package
    else .error (.packageMismatch name package)

def toComponent (e : ComponentEntry) : Except Manifest.Error Component := do
  let name ← Manifest.typeName e.name
  let members ← e.members.mapM (MemberEntry.toMember name)
  let package ← packageOf name e.package
  let base ← e.base.mapM Manifest.typeName
  .ok ⟨name, package, e.kind, base, e.layout, members⟩

end ComponentEntry

/-- Adds what an entry says about a type; one that lists no members leaves them open. -/
def TypeEntry.addTo (d : Declarations) (e : TypeEntry) : Except Manifest.Error Declarations := do
  let name ← Manifest.typeName e.name
  let members ← e.members.mapM (MemberEntry.toMember name)
  let parent ← Manifest.typeName e.base
  let d := d.withType name parent
  .ok (if members.isEmpty then d else d.withTypeMembers name members)

/-- Checks and collects the declarations in the order of the document, components first. -/
def Manifest.declarations (m : Manifest) : Except Manifest.Error Declarations := do
  let components ← m.components.mapM ComponentEntry.toComponent
  m.types.foldlM TypeEntry.addTo (.ofComponents components)

end ViewWiring
