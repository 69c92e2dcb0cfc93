import ViewWiring.Proofs.Artifact.Naming
import ViewWiring.Proofs.Batch.Intake
import ViewWiring.Proofs.Binding.Register

namespace ViewWiring

namespace ComponentBinding

variable (config : Config)

/-- What becomes of a binding whose artifact a writer answers so. -/
def emitted (b : ComponentBinding) (a : Artifact) : Except WriteFailure Unit → Checked String
  | .ok () => .ok a.qualifiedName
  | .error f => .error [b.emissionFailure f]

/-- What a writer's answer to the artifact of a binding adds to the report. -/
def settled (b : ComponentBinding) : Except WriteFailure Unit → Report
  | .ok () => .ofGenerated b.component
  | .error f => .ofFailed b.component [b.emissionFailure f]

/-- The report on bindings, given the writer's answers to the artifacts of those with a layout. -/
def reportOn : List ComponentBinding → List (Except WriteFailure Unit) → Report
  | [], _ => .empty
  | b :: bs, answers =>
    match b.artifact? config, answers with
    | none, answers => .ofFailed b.component [b.missingLayout] ++ reportOn bs answers
    | some _, answer :: answers => b.settled answer ++ reportOn bs answers
    | some _, [] => reportOn bs []

variable {m : Type → Type} [Monad m] [LawfulMonad m] (write : Writer m)

theorem emit_eq (b : ComponentBinding) :
    b.emit config write =
      match b.artifact? config with
      | none => pure (.error [b.missingLayout])
      | some a => b.emitted a <$> write a := by
  obtain ⟨-, hf⟩ | ⟨layout, -, hf⟩ := b.sourceFile_cases config
  · simp only [emit, artifact?, hf, Except.toOption, Option.map_none]
  · simp only [emit, artifact?, hf, Except.toOption, Option.map_some, map_eq_pure_bind]
    congr 1
    funext answer
    cases answer <;> rfl

/-- Emission is one pass of the writer over the artifacts, which it cannot change, and a report
made from its answers alone. -/
theorem emitAll_eq (r : Report) (bs : List ComponentBinding) :
    emitAll config write r bs =
      (fun answers => r ++ reportOn config bs answers) <$>
        (bs.filterMap (artifact? config)).mapM write := by
  induction bs generalizing r with
  | nil => simp [emitAll, reportOn, Report.append_empty]
  | cons b bs ih =>
    rw [emitAll, emit_eq]
    simp only [ih, Report.addFailed_reportAll, Report.addGenerated_eq_append]
    cases h : b.artifact? config with
    | none => simp [h, reportOn, Report.append_assoc]
    | some a =>
      simp only [List.filterMap_cons, h, List.mapM_cons, reportOn, bind_pure_comp, map_bind,
        Functor.map_map, bind_map_left]
      congr 1
      funext answer
      cases answer <;> simp [emitted, settled, Report.append_assoc]

end ComponentBinding

namespace Source

variable (source : Source) (config : Config)

/-- The bindings of the components that pass, in the order of the batch. -/
def bindings : List ComponentBinding := (source.intake config).validated.map Validated.binding

/-- All that a batch offers to its writer, in this order. -/
def artifacts : List Artifact :=
  (source.bindings config).filterMap (ComponentBinding.artifact? config)

theorem bindings_names :
    (source.bindings config).map ComponentBinding.component =
      (source.intake config).validated.map fun v => v.component.name := by
  simp [bindings, Validated.binding]

theorem bindings_nodup : ((source.bindings config).map ComponentBinding.component).Nodup := by
  rw [bindings_names]
  exact source.intake_names_nodup config

/-- No binding is turned away: after any number of them the next one finds its name free. -/
theorem insert_bindings {before after : List ComponentBinding} {b : ComponentBinding}
    (h : source.bindings config = before ++ b :: after) :
    ((Register.empty.insertAll before).insert b).1 = .ok () := by
  have hn := source.bindings_nodup config
  rw [h, List.map_append, List.map_cons, List.nodup_append] at hn
  obtain ⟨hc, hb⟩ := Register.insertAll_empty hn.1
  have hfree : b.component ∉ (Register.empty.insertAll before).names := by
    intro hm
    rw [Register.names, hb] at hm
    exact hn.2.2 _ hm _ List.mem_cons_self rfl
  rw [hc.insert_of_notMem hfree]

theorem register_bindings :
    (Register.empty.insertAll (source.bindings config)).bindings = source.bindings config :=
  (Register.insertAll_empty (source.bindings_nodup config)).2

theorem process_eq {m : Type → Type} [Monad m] [LawfulMonad m] (write : Writer m) :
    source.process config write =
      (fun answers => (source.intake config).report ++
        ComponentBinding.reportOn config (source.bindings config) answers) <$>
          (source.artifacts config).mapM write := by
  have hr := source.register_bindings config
  rw [bindings] at hr
  rw [process, ComponentBinding.emitAll_eq, hr]
  rfl

theorem report_process {σ : Type} (write : Writer (StateM σ)) (s : σ) :
    ((source.process config write).run s).1 = (source.intake config).report ++
      ComponentBinding.reportOn config (source.bindings config)
        (((source.artifacts config).mapM write).run s).1 := by
  rw [process_eq]
  rfl

theorem state_process {σ : Type} (write : Writer (StateM σ)) (s : σ) :
    ((source.process config write).run s).2 =
      (((source.artifacts config).mapM write).run s).2 := by
  rw [process_eq]
  rfl

end Source

end ViewWiring
