import ViewWiring.Artifact
import ViewWiring.Binding.Build
import ViewWiring.Binding.Register
import ViewWiring.Code.Initializer

namespace ViewWiring

/-- What became of a batch: the components generated and failed, all that was reported, and the
count of it, kept while reporting. -/
structure Report where
  generated : List TypeName
  failed : List TypeName
  diagnostics : List Diagnostic
  count : Nat
  deriving DecidableEq

namespace Report

def empty : Report := ⟨[], [], [], 0⟩

/-- Counts a diagnostic and passes it on. -/
def report (r : Report) (d : Diagnostic) : Report :=
  { r with count := r.count + 1, diagnostics := Collected.report r.diagnostics d }

def reportAll (r : Report) (ds : List Diagnostic) : Report := ds.foldl report r

def addFailed (r : Report) (component : TypeName) : Report :=
  { r with failed := r.failed ++ [component] }

def addGenerated (r : Report) (component : TypeName) : Report :=
  { r with generated := r.generated ++ [component] }

def isClean (r : Report) : Bool := r.count == 0

end Report

/-- The components of a batch that can be bound, and what was reported of all. -/
structure Intake where
  validated : List Validated
  report : Report

def Component.duplicate (c : Component) : Diagnostic :=
  .anchored .duplicateComponent ("'" ++ c.name.text ++ "' appears more than once in the batch")
    c.anchor

namespace Source

variable (source : Source) (config : Config)

/-- Validates components in order, given the names met so far; of several components of one name
only the first is looked at. -/
def validateAll (seen : List TypeName) (intake : Intake) : List Component → Intake
  | [] => intake
  | c :: cs =>
    if c.name ∈ seen then
      let report := (intake.report.report c.duplicate).addFailed c.name
      validateAll seen { intake with report } cs
    else
      let result := source.validate config c
      let report := intake.report.reportAll result.diagnostics
      match result.value with
      | some v => validateAll (c.name :: seen) ⟨intake.validated ++ [v], report⟩ cs
      | none => validateAll (c.name :: seen) ⟨intake.validated, report.addFailed c.name⟩ cs

def intake : Intake := source.validateAll config [] ⟨[], .empty⟩ source.components

end Source

namespace ComponentBinding

def emissionFailure (b : ComponentBinding) (f : WriteFailure) : Diagnostic :=
  .anchored .emissionFailure f.message ⟨b.component, none⟩

/-- Generates the class of a binding and hands it to the writer; gives the name of the class. -/
def emit {m : Type → Type} [Monad m] (config : Config) (write : Writer m)
    (b : ComponentBinding) : m (Checked String) :=
  match b.sourceFile config with
  | .error d => pure (.error [d])
  | .ok file => do
    let artifact := Artifact.ofSourceFile config file
    match ← write artifact with
    | .ok () => pure (.ok artifact.qualifiedName)
    | .error f => pure (.error [b.emissionFailure f])

def emitAll {m : Type → Type} [Monad m] (config : Config) (write : Writer m) (r : Report) :
    List ComponentBinding → m Report
  | [] => pure r
  | b :: bs => do
    match ← b.emit config write with
    | .ok _ => emitAll config write (r.addGenerated b.component) bs
    | .error ds => emitAll config write ((r.reportAll ds).addFailed b.component) bs

end ComponentBinding

/-- Validates all components, then generates the classes of those that can be bound. A failure
stays with its component. -/
def Source.process {m : Type → Type} [Monad m] (source : Source) (config : Config)
    (write : Writer m) : m Report :=
  let intake := source.intake config
  let register := Register.empty.insertAll (intake.validated.map Validated.binding)
  ComponentBinding.emitAll config write intake.report register.bindings

end ViewWiring
