import ViewWiring.Diagnostic

namespace ViewWiring

/-- A result that is lost when anything is wrong. -/
abbrev Checked (α : Type) := Except (List Diagnostic) α

/-- A result that stands whatever was found wrong on the way to it. -/
structure Noted (α : Type) where
  value : α
  diagnostics : List Diagnostic
  deriving DecidableEq

/-- The diagnostics of one step, gathered in order. -/
abbrev Collected := List Diagnostic

namespace Collected

def report (held : Collected) (d : Diagnostic) : Collected := held ++ [d]

def reportAll (held : Collected) (ds : List Diagnostic) : Collected := ds.foldl report held

theorem reportAll_eq_append (held : Collected) (ds : List Diagnostic) :
    held.reportAll ds = held ++ ds := by
  induction ds generalizing held with
  | nil => exact (List.append_nil held).symm
  | cons d ds ih => exact (ih (held.report d)).trans (List.append_assoc held [d] ds)

/-- Keeps the diagnostics of a failed result and yields the value of any other. -/
def take {α : Type} (held : Collected) : Checked α → Option α × Collected
  | .ok value => (some value, held)
  | .error ds => (none, held ++ ds)

/-- Yields the value and keeps the diagnostics that came with it. -/
def record {α : Type} (held : Collected) (result : Noted α) : α × Collected :=
  (result.value, held ++ result.diagnostics)

/-- The value, if nothing was gathered. -/
def finish {α : Type} (held : Collected) (value : α) : Checked α :=
  if held.isEmpty then .ok value else .error held

end Collected

end ViewWiring
