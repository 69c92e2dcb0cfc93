import ViewWiring.Binding
import ViewWiring.Validation

namespace ViewWiring

namespace Member

def viewBinding? (m : Member) : Option ViewBinding :=
  match m.directive, m.shape with
  | some (.view id), .field (.declared type) => some ⟨id, m.name, type⟩
  | _, _ => none

def hook? (m : Member) : Option String :=
  match m.directive with
  | some .afterViews => some m.name
  | _ => none

/-- The class of the only parameter. -/
def onlyParam? (m : Member) : Option TypeName :=
  match m.shape with
  | .method [type] _ => type.declaredName?
  | _ => none

def clickBinding? (m : Member) : Option ClickBinding :=
  match m.directive with
  | some (.click ids) => some ⟨m.name, ids, m.onlyParam?⟩
  | _ => none

end Member

def Validated.binding (v : Validated) : ComponentBinding where
  component := v.component.name
  package := v.component.package
  relativeName := v.component.relativeName
  layout := v.component.layout
  views := v.members.filterMap Member.viewBinding?
  hooks := v.members.filterMap Member.hook?
  clicks := v.members.filterMap Member.clickBinding?

end ViewWiring
