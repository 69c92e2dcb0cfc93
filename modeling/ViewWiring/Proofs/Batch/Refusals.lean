import ViewWiring.Proofs.Batch.Artifacts

namespace ViewWiring

/-- An artifact that a writer was offered, with the answer that it met. -/
structure Offer where
  artifact : Artifact
  answer : Except WriteFailure Unit

/-- Why the artifact was refused, if it was. -/
def Offer.refusal? (o : Offer) : Option WriteFailure :=
  match o.answer with
  | .ok () => none
  | .error f => some f

/-- Answers as `write` does, and puts on record all that it is offered. -/
def Writer.recorded {σ : Type} (write : Writer (StateM σ)) : Writer (StateM (σ × List Offer)) :=
  fun a => do
    let (s, offers) ← get
    let (answer, s) := (write a).run s
    set (s, offers ++ [⟨a, answer⟩])
    pure answer

/-- Recording changes neither the answers of a writer nor where they lead it. -/
theorem Writer.run_mapM_recorded {σ : Type} (write : Writer (StateM σ)) (as : List Artifact) (s : σ)
    (offers : List Offer) :
    (as.mapM write.recorded).run (s, offers) =
      (((as.mapM write).run s).1, ((as.mapM write).run s).2,
        offers ++ List.zipWith Offer.mk as ((as.mapM write).run s).1) := by
  induction as generalizing s offers with
  | nil =>
    rw [List.zipWith_nil_left, List.append_nil]
    rfl
  | cons a as ih =>
    have hrest := ih ((write a).run s).2 (offers ++ [⟨a, ((write a).run s).1⟩])
    rw [List.append_assoc, List.singleton_append] at hrest
    rw [List.mapM_cons, List.mapM_cons]
    exact congrArg (fun run => (((write a).run s).1 :: run.1, run.2)) hrest

/-- What is reported of a component whose artifact is refused. -/
def Diagnostic.ofRefusal (component : TypeName) (f : WriteFailure) : Diagnostic :=
  ⟨.emissionFailure, f.message, some ⟨component, none⟩, []⟩

def Diagnostic.isRefusal (d : Diagnostic) : Bool := d.kind == .emissionFailure

@[simp] theorem Diagnostic.isRefusal_ofRefusal (component : TypeName) (f : WriteFailure) :
    (ofRefusal component f).isRefusal = true :=
  rfl

/-- Of the components `names`, each with the offer at its place, those whose artifacts were
accepted. -/
def accepted (names : List TypeName) (offers : List Offer) : List TypeName :=
  ((names.zip offers).filter fun p => p.2.refusal?.isNone).map Prod.fst

/-- Of the components `names`, each with the offer at its place, those whose artifacts were refused,
and why. -/
def refused (names : List TypeName) (offers : List Offer) : List (TypeName × WriteFailure) :=
  (names.zip offers).filterMap fun p => p.2.refusal?.map fun f => (p.1, f)

namespace ComponentBinding

variable (config : Config)

@[simp] theorem isRefusal_missingLayout (b : ComponentBinding) : b.missingLayout.isRefusal = false :=
  rfl

theorem emissionFailure_eq (b : ComponentBinding) (f : WriteFailure) :
    b.emissionFailure f = .ofRefusal b.component f :=
  rfl

theorem reportOn_generated (bs : List ComponentBinding) (answers : List (Except WriteFailure Unit)) :
    (reportOn config bs answers).generated =
      accepted ((bs.filter fun b => (b.artifact? config).isSome).map component)
        (List.zipWith Offer.mk (bs.filterMap (artifact? config)) answers) := by
  fun_induction reportOn config bs answers with
  | case1 => rfl
  | case2 b bs answers ha ih => simp [ha, Report.ofFailed, ih]
  | case3 b bs a answer answers ha ih =>
    cases answer with
    | ok => simp [ha, settled, Report.ofGenerated, accepted, Offer.refusal?, ih]
    | error f => simp [ha, settled, Report.ofFailed, accepted, Offer.refusal?, ih]
  | case4 b bs a ha ih => simp [ha, accepted, ih]

theorem reportOn_refusals (bs : List ComponentBinding) (answers : List (Except WriteFailure Unit)) :
    (reportOn config bs answers).diagnostics.filter Diagnostic.isRefusal =
      (refused ((bs.filter fun b => (b.artifact? config).isSome).map component)
        (List.zipWith Offer.mk (bs.filterMap (artifact? config)) answers)).map
          fun p => .ofRefusal p.1 p.2 := by
  fun_induction reportOn config bs answers with
  | case1 => rfl
  | case2 b bs answers ha ih => simp [ha, Report.ofFailed, ih]
  | case3 b bs a answer answers ha ih =>
    cases answer with
    | ok => simp [ha, settled, Report.ofGenerated, refused, Offer.refusal?, ih]
    | error f =>
      simp [ha, settled, Report.ofFailed, emissionFailure_eq, List.filter_cons, refused,
        Offer.refusal?, ih]
  | case4 b bs a ha ih => simp [ha, refused, ih]

theorem reportOn_others (bs : List ComponentBinding) (answers : List (Except WriteFailure Unit)) :
    (reportOn config bs answers).diagnostics.filter (fun d => !d.isRefusal) =
      (bs.filter fun b => b.layout.isNone).map missingLayout := by
  have hlayout : ∀ b : ComponentBinding, b.layout.isNone = (b.artifact? config).isNone := by
    intro b
    rw [Bool.eq_iff_iff, Option.isNone_iff_eq_none, Option.isNone_iff_eq_none,
      artifact?_eq_none_iff]
  fun_induction reportOn config bs answers with
  | case1 => rfl
  | case2 b bs answers ha ih => simp [hlayout b, ha, Report.ofFailed, ih]
  | case3 b bs a answer answers ha ih =>
    cases answer with
    | ok => simp [hlayout b, ha, settled, Report.ofGenerated, ih]
    | error f => simp [hlayout b, ha, settled, Report.ofFailed, emissionFailure_eq, ih]
  | case4 b bs a ha ih => simp [hlayout b, ha, ih]

end ComponentBinding

namespace Source

variable (source : Source) (config : Config)

theorem isRefusal_of_mem_validate (c : Component) :
    ∀ d ∈ (source.validate config c).diagnostics, d.isRefusal = false := by
  obtain ⟨fault, -, hv⟩ | ⟨-, hv⟩ := source.validate_cases config c
  · rw [hv]
    cases fault <;> simp [Component.Fault.diagnostic, Diagnostic.isRefusal]
  · rw [hv]
    simp only [List.mem_flatMap, memberDiagnostics, List.mem_map]
    rintro d ⟨m, -, fault, -, rfl⟩
    cases fault <;> rfl

theorem isRefusal_of_mem_intakeOf (seen : List TypeName) (cs : List Component) :
    ∀ d ∈ (source.intakeOf config seen cs).report.diagnostics, d.isRefusal = false := by
  induction cs generalizing seen with
  | nil => simp [intakeOf, Report.empty]
  | cons c cs ih =>
    have hvalidate := source.isRefusal_of_mem_validate config c
    rw [intakeOf]
    split
    · rw [Report.diagnostics_append, List.forall_mem_append]
      exact ⟨by simp [Report.ofFailed, Component.duplicate, Diagnostic.isRefusal], ih seen⟩
    · split
      all_goals
        rename_i hv
        rw [hv] at hvalidate
        rw [Report.diagnostics_append, List.forall_mem_append]
        exact ⟨hvalidate, ih (c.name :: seen)⟩

/-- Nothing that comes before the writer is reported as a refusal. -/
theorem isRefusal_of_mem_intake :
    ∀ d ∈ (source.intake config).report.diagnostics, d.isRefusal = false := by
  rw [intake_eq]
  exact source.isRefusal_of_mem_intakeOf config [] source.components

/-- The binding of a component, looked at on its own. -/
def boundAs? (c : Component) : Option ComponentBinding :=
  (source.validate config c).value.map Validated.binding

/-- What a component is generated as, looked at on its own. -/
def generatedAs? (c : Component) : Option Artifact :=
  (source.boundAs? config c).bind (ComponentBinding.artifact? config)

theorem component_of_boundAs? {c : Component} {b : ComponentBinding}
    (h : source.boundAs? config c = some b) : b.component = c.name := by
  obtain ⟨v, hv, rfl⟩ := Option.map_eq_some_iff.mp h
  rw [← source.component_of_validate config c hv]
  rfl

theorem bindings_eq :
    source.bindings config = (firstMet [] source.components).filterMap (source.boundAs? config) := by
  rw [bindings, validated_intake, List.map_filterMap]
  rfl

theorem generating_filterMap (cs : List Component) :
    ((cs.filterMap (source.boundAs? config)).filter fun b => (b.artifact? config).isSome).map
        ComponentBinding.component =
      (cs.filter fun c => (source.generatedAs? config c).isSome).map Component.name := by
  induction cs with
  | nil => rfl
  | cons c cs ih =>
    cases hb : source.boundAs? config c with
    | none =>
      have hc : source.generatedAs? config c = none := by rw [generatedAs?, hb, Option.bind_none]
      rw [List.filterMap_cons_none hb, ih, List.filter_cons_of_neg (by simp [hc])]
    | some b =>
      have hc : source.generatedAs? config c = b.artifact? config := by
        rw [generatedAs?, hb, Option.bind_some]
      rw [List.filterMap_cons_some hb, List.filter_cons, List.filter_cons, hc]
      split
      · rw [List.map_cons, List.map_cons, ih, source.component_of_boundAs? config hb]
      · exact ih

/-- The components that something is generated for, each at the first place that its name has in the
batch. -/
def offering : List TypeName :=
  ((source.components.map Component.name).eraseDups).filter fun name =>
    (source.artifactOf? config name).isSome

theorem map_component_generating :
    (source.generating config).map ComponentBinding.component = source.offering config := by
  have hfirst : ∀ c ∈ firstMet [] source.components,
      source.artifactOf? config c.name = source.generatedAs? config c := by
    intro c hc
    have hfind : source.component? c.name = some c := find?_of_mem_firstMet hc
    rw [artifactOf?, hfind, Option.bind_some, generatedAs?, boundAs?, Option.bind_map]
    rfl
  have hnames : (source.components.map Component.name).eraseDups =
      (firstMet [] source.components).map Component.name := by
    rw [firstMet_names]
    simp
  rw [generating, bindings_eq, generating_filterMap, offering, hnames, List.filter_map]
  congr 1
  apply List.filter_congr
  intro c hc
  rw [Function.comp_apply, hfirst c hc]

/-- What is reported of a batch whatever its writer answers: all that validation finds, and the
layouts that are missing. -/
def standing : List Diagnostic :=
  (source.intake config).report.diagnostics ++
    ((source.bindings config).filter fun b => b.layout.isNone).map ComponentBinding.missingLayout

/-- A report that the answers to `offers` bear on nowhere but at the components offered: each of
these was offered once, as what it is generated as by itself, and is generated unless it was
refused; a refusal adds one diagnostic and one failure, both of its component. -/
structure ChargesRefusals (report : Report) (offers : List Offer) : Prop where
  offered : offers.map (fun o => some o.artifact) =
    (source.offering config).map (source.artifactOf? config)
  generated_eq : report.generated = accepted (source.offering config) offers
  refusals_eq : report.diagnostics.filter Diagnostic.isRefusal =
    (refused (source.offering config) offers).map fun p => .ofRefusal p.1 p.2
  others_eq : report.diagnostics.filter (fun d => !d.isRefusal) = source.standing config
  failed_perm : report.failed.Perm ((source.standing config).filterMap Diagnostic.wholeComponent? ++
    (refused (source.offering config) offers).map Prod.fst)

variable {σ : Type} (write : Writer (StateM σ)) (s : σ)

theorem process_recorded :
    let answers := ((source.artifacts config).mapM write).run s
    (source.process config write.recorded).run (s, []) =
      ((source.intake config).report ++
        ComponentBinding.reportOn config (source.bindings config) answers.1,
        answers.2, List.zipWith Offer.mk (source.artifacts config) answers.1) := by
  intro answers
  rw [source.process_eq, StateT.run_map, Writer.run_mapM_recorded, List.nil_append]
  rfl

theorem run_process_recorded :
    let run := (source.process config write.recorded).run (s, [])
    (source.process config write).run s = (run.1, run.2.1) := by
  rw [source.process_recorded, source.process_eq]
  rfl

theorem map_artifact_recorded :
    ((source.process config write.recorded).run (s, [])).2.2.map Offer.artifact =
      source.artifacts config := by
  have hlength := length_mapM_run write (source.artifacts config) s
  rw [source.process_recorded, ← List.map_uncurry_zip_eq_zipWith, List.map_map]
  exact List.map_fst_zip hlength.ge

theorem process_failed :
    let report := ((source.process config write).run s).1
    report.failed = report.diagnostics.filterMap Diagnostic.wholeComponent? :=
  (source.process_settles config write s).failed_eq

theorem filter_isRefusal_process :
    let run := (source.process config write.recorded).run (s, [])
    run.1.diagnostics.filter Diagnostic.isRefusal =
      (refused (source.offering config) run.2.2).map fun p => .ofRefusal p.1 p.2 := by
  intro run
  have hrun : run = _ := source.process_recorded config write s
  have hintake : (source.intake config).report.diagnostics.filter Diagnostic.isRefusal = [] := by
    rw [List.filter_eq_nil_iff]
    intro d hd
    simp [source.isRefusal_of_mem_intake config d hd]
  rw [hrun, Report.diagnostics_append, List.filter_append, hintake, List.nil_append,
    ComponentBinding.reportOn_refusals, ← source.map_component_generating]
  rfl

theorem filter_not_isRefusal_process :
    let report := ((source.process config write).run s).1
    report.diagnostics.filter (fun d => !d.isRefusal) = source.standing config := by
  intro report
  have hreport : report = _ := source.report_process config write s
  have hintake : (source.intake config).report.diagnostics.filter (fun d => !d.isRefusal) =
      (source.intake config).report.diagnostics := by
    rw [List.filter_eq_self]
    intro d hd
    simp [source.isRefusal_of_mem_intake config d hd]
  rw [hreport, Report.diagnostics_append, List.filter_append, hintake,
    ComponentBinding.reportOn_others, standing]

theorem process_chargesRefusals :
    let run := (source.process config write.recorded).run (s, [])
    source.ChargesRefusals config run.1 run.2.2 := by
  intro run
  have hrefusals := source.filter_isRefusal_process config write s
  have hothers := source.filter_not_isRefusal_process config write.recorded (s, [])
  refine ⟨?_, ?_, hrefusals, hothers, ?_⟩
  · rw [← source.map_component_generating, source.generating_artifacts,
      ← source.map_artifact_recorded config write s, List.map_map]
    rfl
  · have hrun : run = _ := source.process_recorded config write s
    rw [hrun, Report.generated_append, generated_intake, List.nil_append,
      ComponentBinding.reportOn_generated, ← source.map_component_generating]
    rfl
  · have hwhole : ((refused (source.offering config) run.2.2).map fun p =>
        Diagnostic.ofRefusal p.1 p.2).filterMap Diagnostic.wholeComponent? =
          (refused (source.offering config) run.2.2).map Prod.fst := by
      rw [List.filterMap_map, ← List.filterMap_eq_map]
      rfl
    have hsplit := List.filter_append_perm Diagnostic.isRefusal run.1.diagnostics
    rw [source.process_failed config write.recorded (s, []), ← hwhole, ← hrefusals, ← hothers,
      ← List.filterMap_append]
    exact (hsplit.symm.trans List.perm_append_comm).filterMap _

/-- What a writer refuses stays with the components refused: any two writers, whatever they are and
whatever they remember, are offered the same artifacts in the order of the batch, and all that is
reported besides refusals is the same; each refusal adds one diagnostic and one failure. -/
theorem refusals_stay_local {σ σ' : Type} (write : Writer (StateM σ)) (write' : Writer (StateM σ'))
    (s : σ) (s' : σ') :
    let run := (source.process config write.recorded).run (s, [])
    let run' := (source.process config write'.recorded).run (s', [])
    (source.process config write).run s = (run.1, run.2.1) ∧
    (source.process config write').run s' = (run'.1, run'.2.1) ∧
    run.2.2.map Offer.artifact = run'.2.2.map Offer.artifact ∧
    run.1.diagnostics.filter (fun d => !d.isRefusal) =
      run'.1.diagnostics.filter (fun d => !d.isRefusal) ∧
    source.ChargesRefusals config run.1 run.2.2 ∧ source.ChargesRefusals config run'.1 run'.2.2 := by
  intro run run'
  have hcharges := source.process_chargesRefusals config write s
  have hcharges' := source.process_chargesRefusals config write' s'
  refine ⟨source.run_process_recorded config write s, source.run_process_recorded config write' s',
    ?_, ?_, hcharges, hcharges'⟩
  · rw [source.map_artifact_recorded, source.map_artifact_recorded]
  · rw [hcharges.others_eq, hcharges'.others_eq]

end Source

end ViewWiring
