import ViewWiring.Batch

namespace ViewWiring

namespace Report

/-- One report and then another. -/
def append (r s : Report) : Report :=
  ⟨r.generated ++ s.generated, r.failed ++ s.failed, r.diagnostics ++ s.diagnostics,
    r.count + s.count⟩

instance : Append Report := ⟨append⟩

variable (r s t : Report)

@[simp] theorem generated_append : (r ++ s).generated = r.generated ++ s.generated := rfl

@[simp] theorem failed_append : (r ++ s).failed = r.failed ++ s.failed := rfl

@[simp] theorem diagnostics_append : (r ++ s).diagnostics = r.diagnostics ++ s.diagnostics := rfl

@[simp] theorem count_append : (r ++ s).count = r.count + s.count := rfl

@[ext] theorem ext {r s : Report} (hgenerated : r.generated = s.generated)
    (hfailed : r.failed = s.failed) (hdiagnostics : r.diagnostics = s.diagnostics)
    (hcount : r.count = s.count) : r = s := by
  cases r
  cases s
  simp_all

theorem append_assoc : r ++ s ++ t = r ++ (s ++ t) := by
  ext1 <;> simp [Nat.add_assoc]

theorem append_empty : r ++ empty = r := by
  ext1 <;> simp [empty]

theorem empty_append : empty ++ r = r := by
  ext1 <;> simp [empty]

/-- What is reported of a component that goes on. -/
def ofDiagnostics (ds : List Diagnostic) : Report := ⟨[], [], ds, ds.length⟩

def ofFailed (component : TypeName) (ds : List Diagnostic) : Report :=
  ⟨[], [component], ds, ds.length⟩

def ofGenerated (component : TypeName) : Report := ⟨[component], [], [], 0⟩

/-- Every diagnostic is passed on and counted once. -/
theorem reportAll_eq (ds : List Diagnostic) :
    r.reportAll ds = ⟨r.generated, r.failed, r.diagnostics ++ ds, r.count + ds.length⟩ := by
  induction ds generalizing r with
  | nil => simp [reportAll]
  | cons d ds ih =>
    have hcons : r.reportAll (d :: ds) = (r.report d).reportAll ds := rfl
    rw [hcons, ih]
    simp [report, Collected.report, Nat.add_assoc, Nat.add_comm 1]

/-- What is reported comes behind what was reported before. -/
theorem reportAll_eq_append (ds : List Diagnostic) : r.reportAll ds = r ++ ofDiagnostics ds := by
  rw [reportAll_eq]
  ext1 <;> simp [ofDiagnostics]

theorem addFailed_reportAll (component : TypeName) (ds : List Diagnostic) :
    (r.reportAll ds).addFailed component = r ++ ofFailed component ds := by
  rw [reportAll_eq]
  ext1 <;> simp [ofFailed, addFailed]

theorem addGenerated_eq_append (component : TypeName) :
    r.addGenerated component = r ++ ofGenerated component := by
  ext1 <;> simp [ofGenerated, addGenerated]

end Report

namespace Source

variable (source : Source) (config : Config)

/-- What the validation of components adds to a batch, given the names met so far. -/
def intakeOf (seen : List TypeName) : List Component → Intake
  | [] => ⟨[], .empty⟩
  | c :: cs =>
    if c.name ∈ seen then
      let rest := intakeOf seen cs
      ⟨rest.validated, .ofFailed c.name [c.duplicate] ++ rest.report⟩
    else
      let rest := intakeOf (c.name :: seen) cs
      match source.validate config c with
      | ⟨some v, ds⟩ => ⟨v :: rest.validated, .ofDiagnostics ds ++ rest.report⟩
      | ⟨none, ds⟩ => ⟨rest.validated, .ofFailed c.name ds ++ rest.report⟩

/-- The pass over a batch adds to what there is, component by component. -/
theorem validateAll_eq (seen : List TypeName) (intake : Intake) (cs : List Component) :
    source.validateAll config seen intake cs =
      ⟨intake.validated ++ (source.intakeOf config seen cs).validated,
        intake.report ++ (source.intakeOf config seen cs).report⟩ := by
  induction cs generalizing seen intake with
  | nil => simp [validateAll, intakeOf, Report.append_empty]
  | cons c cs ih =>
    rw [validateAll, intakeOf]
    split
    · rw [ih]
      have hduplicate : (intake.report.report c.duplicate).addFailed c.name =
          intake.report ++ .ofFailed c.name [c.duplicate] :=
        intake.report.addFailed_reportAll c.name [c.duplicate]
      simp only [hduplicate, Report.append_assoc]
    · cases hv : source.validate config c with
      | mk value ds =>
        cases value with
        | some v =>
          simp only [ih, Report.reportAll_eq_append, Report.append_assoc, List.append_assoc,
            List.singleton_append]
        | none => simp only [ih, Report.addFailed_reportAll, Report.append_assoc]

theorem intake_eq : source.intake config = source.intakeOf config [] source.components := by
  rw [intake, validateAll_eq]
  simp only [List.nil_append, Report.empty_append]

end Source

end ViewWiring
