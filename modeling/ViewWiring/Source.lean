import ViewWiring.Component

namespace ViewWiring

/-- One batch of components, with what is known of the types above them. -/
structure Source where
  components : List Component
  superType : TypeName → Option TypeName
  declaredMembers : TypeName → List Member

end ViewWiring
