import ViewWiring.Proofs.Batch.Emission
import Mathlib.Data.List.Perm.Basic

namespace ViewWiring

/-- The report settles the components `names` but for those that it passes on as `passed`: each of
the others is generated or failed, a failure is what a diagnostic at a component as a whole stands
for, and the count is right. -/
structure Report.Settles (r : Report) (names passed : List TypeName) : Prop where
  perm : (r.generated ++ r.failed ++ passed).Perm names
  failed_eq : r.failed = r.diagnostics.filterMap Diagnostic.wholeComponent?
  count_eq : r.count = r.diagnostics.length

namespace Report

namespace Settles

variable {r s : Report} {names names' passed passed' : List TypeName}

theorem empty : Report.empty.Settles [] [] := ⟨.refl _, rfl, rfl⟩

theorem ofDiagnostics {ds : List Diagnostic} (component : TypeName)
    (h : ds.filterMap Diagnostic.wholeComponent? = []) :
    (Report.ofDiagnostics ds).Settles [component] [component] :=
  ⟨.refl _, h.symm, rfl⟩

theorem ofFailed {ds : List Diagnostic} {component : TypeName}
    (h : ds.filterMap Diagnostic.wholeComponent? = [component]) :
    (Report.ofFailed component ds).Settles [component] [] :=
  ⟨.refl _, h.symm, rfl⟩

theorem ofGenerated (component : TypeName) : (Report.ofGenerated component).Settles [component] [] :=
  ⟨.refl _, rfl, rfl⟩

/-- A second report takes over what the first passes on of `taken`, and looks at more. -/
theorem seq (taken : List TypeName) (hr : r.Settles names (taken ++ passed))
    (hs : s.Settles (taken ++ names') passed') :
    (r ++ s).Settles (names ++ names') (passed ++ passed') := by
  refine ⟨?_, ?_, ?_⟩
  · rw [List.perm_iff_count]
    intro n
    have h := hr.perm.count_eq n
    have h' := hs.perm.count_eq n
    simp only [generated_append, failed_append, List.count_append] at h h' ⊢
    omega
  · rw [failed_append, diagnostics_append, List.filterMap_append, hr.failed_eq, hs.failed_eq]
  · rw [count_append, diagnostics_append, List.length_append, hr.count_eq, hs.count_eq]

/-- Reports on different parts of a batch make up one on the whole. -/
theorem append (hr : r.Settles names passed) (hs : s.Settles names' passed') :
    (r ++ s).Settles (names ++ names') (passed ++ passed') :=
  seq [] hr hs

theorem trans (hr : r.Settles names passed) (hs : s.Settles passed passed') :
    (r ++ s).Settles names passed' := by
  have hr' : r.Settles names (passed ++ []) := by simpa using hr
  have hs' : s.Settles (passed ++ []) passed' := by simpa using hs
  simpa using seq passed hr' hs'

/-- With nothing left to pass on and nothing reported, all components are generated, in order. -/
theorem generated_eq_of_isClean (h : r.Settles names []) (hg : r.generated.Sublist names)
    (hc : r.isClean = true) : r.generated = names := by
  have hz : r.count = 0 := by simpa [isClean] using hc
  have hd : r.diagnostics = [] := by
    rw [← List.length_eq_zero_iff, ← h.count_eq]
    exact hz
  have hf : r.failed = [] := by rw [h.failed_eq, hd, List.filterMap_nil]
  apply hg.eq_of_length
  simpa [hf] using h.perm.length_eq

end Settles

end Report

namespace Source

variable (source : Source) (config : Config)

theorem intakeOf_settles (seen : List TypeName) (cs : List Component) :
    (source.intakeOf config seen cs).report.Settles (cs.map Component.name)
      ((source.intakeOf config seen cs).validated.map fun v => v.component.name) := by
  induction cs generalizing seen with
  | nil => exact .empty
  | cons c cs ih =>
    rw [intakeOf]
    split
    · exact (Report.Settles.ofFailed rfl).append (ih seen)
    · have hw := source.wholeComponent_validate config c
      split
      · rename_i v ds hv
        have hc : v.component = c := source.component_of_validate config c (by rw [hv])
        rw [hv] at hw
        have h := (Report.Settles.ofDiagnostics c.name hw).append (ih (c.name :: seen))
        rwa [← hc] at h ⊢
      · rename_i ds hv
        rw [hv] at hw
        exact (Report.Settles.ofFailed hw).append (ih (c.name :: seen))

/-- Validation passes on the components that it finds to be in order, and fails all others. -/
theorem intake_settles :
    (source.intake config).report.Settles (source.components.map Component.name)
      ((source.intake config).validated.map fun v => v.component.name) := by
  rw [intake_eq]
  exact source.intakeOf_settles config [] source.components

end Source

namespace ComponentBinding

variable (config : Config)

theorem settled_settles (b : ComponentBinding) (answer : Except WriteFailure Unit) :
    (b.settled answer).Settles [b.component] [] := by
  cases answer with
  | ok => exact .ofGenerated b.component
  | error f => exact .ofFailed rfl

theorem reportOn_settles {bs : List ComponentBinding} {answers : List (Except WriteFailure Unit)}
    (h : answers.length = (bs.filterMap (artifact? config)).length) :
    (reportOn config bs answers).Settles (bs.map component) [] := by
  induction bs generalizing answers with
  | nil => exact .empty
  | cons b bs ih =>
    cases ha : b.artifact? config with
    | none =>
      have hrest : (reportOn config bs answers).Settles (bs.map component) [] :=
        ih (by simpa [ha] using h)
      have hb : (Report.ofFailed b.component [b.missingLayout]).Settles [b.component] [] :=
        .ofFailed rfl
      simpa [reportOn, ha] using hb.append hrest
    | some a =>
      cases answers with
      | nil => simp [ha] at h
      | cons answer answers =>
        have hrest : (reportOn config bs answers).Settles (bs.map component) [] :=
          ih (by simpa [ha] using h)
        simpa [reportOn, ha] using (b.settled_settles answer).append hrest

/-- Only what was made is reported as generated. -/
theorem reportOn_generated_sublist_filter (bs : List ComponentBinding)
    (answers : List (Except WriteFailure Unit)) :
    (reportOn config bs answers).generated.Sublist
      ((bs.filter fun b => (b.artifact? config).isSome).map component) := by
  induction bs generalizing answers with
  | nil => exact .slnil
  | cons b bs ih =>
    unfold reportOn
    split
    · rename_i ha
      rw [List.filter_cons_of_neg (by simp [ha])]
      exact ih _
    · rename_i answer answers ha
      rw [List.filter_cons_of_pos (by simp [ha]), List.map_cons]
      cases answer with
      | ok => exact (ih answers).cons_cons b.component
      | error f => exact (ih answers).cons b.component
    · rename_i ha
      rw [List.filter_cons_of_pos (by simp [ha]), List.map_cons]
      exact (ih []).cons b.component

theorem reportOn_generated_sublist (bs : List ComponentBinding)
    (answers : List (Except WriteFailure Unit)) :
    (reportOn config bs answers).generated.Sublist (bs.map component) :=
  (reportOn_generated_sublist_filter config bs answers).trans (List.filter_sublist.map component)

end ComponentBinding

section Runs

variable {σ α β : Type}

theorem run_mapM_cons {f : α → StateM σ β} {s s' s'' : σ} {x : α} {xs : List α} {y : β}
    {ys : List β} (h : (f x).run s = (y, s')) (hs : (xs.mapM f).run s' = (ys, s'')) :
    ((x :: xs).mapM f).run s = (y :: ys, s'') := by
  rw [List.mapM_cons, StateT.run_bind, h]
  change StateT.run (do
    let rest ← xs.mapM f
    pure (y :: rest)) s' = _
  rw [StateT.run_bind, hs]
  rfl

theorem length_mapM_run (f : α → StateM σ β) (as : List α) (s : σ) :
    ((as.mapM f).run s).1.length = as.length := by
  induction as generalizing s with
  | nil => rfl
  | cons a as ih =>
    rw [List.mapM_cons]
    exact congrArg Nat.succ (ih ((f a).run s).2)

end Runs

namespace Source

variable (source : Source) (config : Config)

theorem intakeOf_generated (seen : List TypeName) (cs : List Component) :
    (source.intakeOf config seen cs).report.generated = [] := by
  induction cs generalizing seen with
  | nil => rfl
  | cons c cs ih =>
    rw [intakeOf]
    split
    · exact ih seen
    · split <;> exact ih (c.name :: seen)

theorem generated_intake : (source.intake config).report.generated = [] := by
  rw [intake_eq]
  exact source.intakeOf_generated config [] source.components

theorem process_settles {σ : Type} (write : Writer (StateM σ)) (s : σ) :
    ((source.process config write).run s).1.Settles (source.components.map Component.name) [] := by
  have hanswers := length_mapM_run write (source.artifacts config) s
  have hemit := ComponentBinding.reportOn_settles config hanswers
  rw [source.bindings_names] at hemit
  rw [source.report_process]
  exact (source.intake_settles config).trans hemit

/-- Whatever the writer does, every component of the batch is either generated, at its first
occurrence and in order, or failed with a diagnostic of its own at the component as a whole; the
report counts what was reported, so a clean one means that all components were generated; and the
register never turns a binding away. -/
theorem process_accounts {σ : Type} (write : Writer (StateM σ)) (s : σ) :
    let names := source.components.map Component.name
    let report := ((source.process config write).run s).1
    (report.generated ++ report.failed).Perm names ∧
    report.generated.Nodup ∧
    report.generated.Sublist names.eraseDups ∧
    report.failed = report.diagnostics.filterMap Diagnostic.wholeComponent? ∧
    report.count = report.diagnostics.length ∧
    (report.isClean = true → report.generated = names) ∧
    ∀ before b after, (source.intake config).validated.map Validated.binding = before ++ b :: after →
      ((Register.empty.insertAll before).insert b).1 = .ok () := by
  intro names report
  let answers := (((source.artifacts config).mapM write).run s).1
  have hreport : report = (source.intake config).report ++
      ComponentBinding.reportOn config (source.bindings config) answers :=
    source.report_process config write s
  have hsettles : report.Settles names [] := source.process_settles config write s
  have hgenerated : report.generated =
      (ComponentBinding.reportOn config (source.bindings config) answers).generated := by
    rw [hreport, Report.generated_append, generated_intake, List.nil_append]
  -- bindings keep the order of the batch, and emission the order of the bindings
  have horder : report.generated.Sublist ((firstMet [] source.components).map Component.name) := by
    rw [hgenerated]
    apply (ComponentBinding.reportOn_generated_sublist config _ answers).trans
    rw [source.bindings_names]
    exact source.intake_names_sublist config
  have hfirst : (firstMet [] source.components).map Component.name = names.eraseDups := by
    rw [firstMet_names]
    simp [names]
  refine ⟨by simpa using hsettles.perm, horder.nodup (firstMet_nodup [] source.components).1,
    hfirst ▸ horder, hsettles.failed_eq, hsettles.count_eq, ?_, ?_⟩
  · apply hsettles.generated_eq_of_isClean
    exact horder.trans ((firstMet_sublist [] source.components).map Component.name)
  · intro before b after h
    exact source.insert_bindings config h

end Source

end ViewWiring
