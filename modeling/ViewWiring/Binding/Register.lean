import ViewWiring.Binding

namespace ViewWiring

/-- The bindings of a batch in the order of their first insertion, with the place of each
component's binding. -/
structure Register where
  bindings : List ComponentBinding
  places : List (TypeName × Nat)
  deriving DecidableEq

namespace Register

def empty : Register := ⟨[], []⟩

def contains (r : Register) (component : TypeName) : Bool := (r.places.lookup component).isSome

def get? (r : Register) (component : TypeName) : Option ComponentBinding :=
  (r.places.lookup component).bind fun place => r.bindings[place]?

/-- Registers a binding, or hands it back if its component has one. -/
def insert (r : Register) (b : ComponentBinding) : Except ComponentBinding Unit × Register :=
  if r.contains b.component then (.error b, r)
  else (.ok (), ⟨r.bindings ++ [b], (b.component, r.bindings.length) :: r.places⟩)

/-- Registers what can be registered of a list of bindings. -/
def insertAll (r : Register) (bs : List ComponentBinding) : Register :=
  bs.foldl (fun r b => (r.insert b).2) r

def size (r : Register) : Nat := r.bindings.length

end Register

end ViewWiring
