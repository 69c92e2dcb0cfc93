import ViewWiring.Source
import ViewWiring.Source.Platform

namespace ViewWiring

/-- Components with what was declared about other types; of two entries for one type the one
nearer the head is the later and holds. -/
structure Declarations where
  components : List Component
  parents : List (TypeName × TypeName)
  typeMembers : List (TypeName × List Member)
  deriving DecidableEq

namespace Declarations

def ofComponents (components : List Component) : Declarations := ⟨components, [], []⟩

def withType (d : Declarations) (name parent : TypeName) : Declarations :=
  { d with parents := (name, parent) :: d.parents }

def withTypeMembers (d : Declarations) (name : TypeName) (members : List Member) : Declarations :=
  { d with typeMembers := (name, members) :: d.typeMembers }

def component? (d : Declarations) (name : TypeName) : Option Component :=
  d.components.find? fun c => c.name == name

theorem component?_eq_none_iff {d : Declarations} {name : TypeName} :
    d.component? name = none ↔ ∀ c ∈ d.components, c.name ≠ name := by
  simp [component?]

/-- A declared parent wins over the base that a component names, and both win over the
platform's hierarchy. -/
def superType (d : Declarations) (name : TypeName) : Option TypeName :=
  ((d.parents.lookup name).or ((d.component? name).bind Component.base)).or (Platform.superType name)

theorem superType_withType (d : Declarations) (name parent type : TypeName) :
    (d.withType name parent).superType type =
      if type = name then some parent else d.superType type := by
  by_cases h : type = name
  · simp [superType, withType, h]
  · have hne : (type == name) = false := by simpa using h
    simp [superType, withType, component?, List.lookup_cons, h, hne]

/-- A parent is that of an entry, the base of a component, or the platform's. -/
theorem superType_cases {d : Declarations} {name parent : TypeName}
    (h : d.superType name = some parent) :
    (name, parent) ∈ d.parents ∨ (∃ c ∈ d.components, c.base = some parent) ∨
      Platform.superType name = some parent := by
  unfold superType at h
  obtain h | ⟨-, h⟩ := Option.or_eq_some_iff.mp h
  · obtain h | ⟨-, h⟩ := Option.or_eq_some_iff.mp h
    · obtain ⟨before, after, he, -⟩ := List.lookup_eq_some_iff.mp h
      exact .inl (by simp [he])
    · obtain ⟨c, hc, hbase⟩ := Option.bind_eq_some_iff.mp h
      exact .inr (.inl ⟨c, List.mem_of_find?_eq_some hc, hbase⟩)
  · exact .inr (.inr h)

/-- Members declared for a type hide those of a component of the same name, even if none. -/
def declaredMembers (d : Declarations) (name : TypeName) : List Member :=
  match d.typeMembers.lookup name with
  | some members => members
  | none => ((d.component? name).map Component.members).getD []

/-- Members are those of an entry for the type or of a component of its name. -/
theorem declaredMembers_cases (d : Declarations) (name : TypeName) :
    d.declaredMembers name = [] ∨
    (∃ entry ∈ d.typeMembers, d.declaredMembers name = entry.2) ∨
    ∃ c ∈ d.components, d.declaredMembers name = c.members := by
  unfold declaredMembers
  cases ht : d.typeMembers.lookup name with
  | some members =>
    obtain ⟨before, after, he, -⟩ := List.lookup_eq_some_iff.mp ht
    exact .inr (.inl ⟨(name, members), by simp [he], rfl⟩)
  | none =>
    cases hc : d.component? name with
    | none => exact .inl rfl
    | some c => exact .inr (.inr ⟨c, List.mem_of_find?_eq_some hc, rfl⟩)

def toSource (d : Declarations) : Source := ⟨d.components, d.superType, d.declaredMembers⟩

end Declarations

end ViewWiring
