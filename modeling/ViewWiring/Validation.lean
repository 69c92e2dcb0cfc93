import ViewWiring.Diagnostic.Collect
import ViewWiring.Source
import ViewWiring.Validation.Fault

namespace ViewWiring

/-- A component that can be bound, with the members that take part. -/
structure Validated where
  component : Component
  members : List Member
  deriving DecidableEq

/-- What is wrong with a method that can still be called excludes it under the strict policy only. -/
def Config.applyPolicy (config : Config) (held : Collected) : Checked (Noted Unit) :=
  match config.signatures with
  | .strict => held.finish ⟨(), []⟩
  | .permissive => .ok ⟨(), held⟩

/-- The parameters and the result of a method; a field has neither. -/
def Member.expectMethod (m : Member) (c : Component) (onField : Member.Fault) :
    Checked (List TypeRef × TypeRef) :=
  match m.shape with
  | .method params returns => .ok (params, returns)
  | .field _ => .error [onField.diagnostic c m]

namespace Source

variable (source : Source) (config : Config)

/-- The base-type walk of this source, no deeper than the configuration allows. -/
def ascend (start target : TypeName) : Ascent :=
  ViewWiring.ascend source.superType start target config.maxDepth

/-- Members with a directive along a chain of types, the last type's first, without those that
are overridden by one in `visible` or by one kept from a type nearer to the head. -/
def inheritedAlong (declared : TypeName → List Member) : List Member → List TypeName → List Member
  | _, [] => []
  | visible, type :: types =>
    let kept := (declared type).filter fun m =>
      m.directive.isSome && !visible.any fun v => v.overrides m
    inheritedAlong declared (visible ++ kept) types ++ kept

/-- The members of a component: those it inherits, root-most first, and then its own. -/
def members (c : Component) : List Member :=
  inheritedAlong source.declaredMembers c.members
    (ancestors source.superType c.name config.maxDepth) ++ c.members

/-- The kind first and then the base, which has to lead to the platform's activity; the first fault
ends the check. -/
def checkComponent (c : Component) : Checked Unit := do
  unless c.kind = .«class» do
    throw [(Component.Fault.notClass c.kind).diagnostic c]
  match (source.ascend config c.name config.platform.activity).note with
  | none => pure ()
  | some note =>
    throw [(Component.Fault.missingBase config.platform.activity note).diagnostic c]

/-- Why a type is no view; none if it is one. -/
def notViewNote (type : TypeRef) : Option String :=
  match type with
  | .declared name => (source.ascend config name config.platform.view).note
  | _ => some (type.text ++ " is not a class type")

/-- Type and visibility of a view's field are looked at independently. -/
def checkView (c : Component) (m : Member) : Checked Unit :=
  match m.shape with
  | .method .. => .error [Member.Fault.viewOnMethod.diagnostic c m]
  | .field type =>
    let held : Collected :=
      match source.notViewNote config type with
      | some note =>
        .report [] ((Member.Fault.fieldNotView type config.platform.view note).diagnostic c m)
      | none => []
    let held :=
      if m.isPrivate then held.report (Member.Fault.privateField.diagnostic c m) else held
    held.finish ()

def hookParamFaults (params : List TypeRef) : List Member.Fault :=
  if params.isEmpty then [] else [.hookTakesParams params.length]

def handlerParamFaults : List TypeRef → List Member.Fault
  | [type] => ((source.notViewNote config type).map (.handlerTakes type config.platform.view)).toList
  | params => [.handlerParamCount params.length]

/-- Checks a method that is to be called, all of it whatever is found, and leaves the rest to the
policy. -/
def checkMethod (onField : Member.Fault) (paramFaults : List TypeRef → List Member.Fault)
    (c : Component) (m : Member) : Checked (Noted Unit) := do
  let (params, returns) ← m.expectMethod c onField
  let held : Collected :=
    if m.isPrivate then .report [] (Member.Fault.privateMethod.diagnostic c m) else []
  let held := held.reportAll ((paramFaults params).map (Member.Fault.diagnostic c m))
  let held :=
    if returns = .void then held
    else held.report ((Member.Fault.returnsValue returns).diagnostic c m)
  config.applyPolicy held

/-- An error excludes the member; what is only noted keeps it. -/
def checkMember (c : Component) (m : Member) : Checked (Noted Unit) :=
  match m.directive with
  | none => .ok ⟨(), []⟩
  | some (.view _) => (source.checkView config c m).map fun u => ⟨u, []⟩
  | some .afterViews => checkMethod config .hookOnField hookParamFaults c m
  | some (.click _) => checkMethod config .handlerOnField (source.handlerParamFaults config) c m

/-- Adds one member, if it is kept, and what is to be said of it. -/
def takeMember (c : Component) (found : Noted (List Member)) (m : Member) : Noted (List Member) :=
  match Collected.take found.diagnostics (source.checkMember config c m) with
  | (some warnings, held) => ⟨found.value ++ [m], (held.record warnings).2⟩
  | (none, held) => ⟨found.value, held⟩

/-- Members are looked at only if the component itself is in order, and each on its own. -/
def validate (c : Component) : Noted (Option Validated) :=
  match source.checkComponent config c with
  | .error ds => ⟨none, ds⟩
  | .ok () =>
    let found := (source.members config c).foldl (source.takeMember config c) ⟨[], []⟩
    ⟨some ⟨c, found.value⟩, found.diagnostics⟩

end Source

end ViewWiring
