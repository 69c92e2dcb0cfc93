import ViewWiring.Manifest
import ViewWiring.Proofs.Artifact.Store
import ViewWiring.Proofs.Batch.Accounting

namespace ViewWiring

/-- The classes generated for two components get different names: they lie in different packages
or differ in their simple names. -/
def Component.IsNamedApart (c c' : Component) : Prop :=
  c.package = c'.package → c.name.simpleName ≠ c'.name.simpleName

instance (c c' : Component) : Decidable (c.IsNamedApart c') := by
  unfold Component.IsNamedApart
  infer_instance

namespace ComponentBinding

variable (config : Config)

theorem reportOn_generated_of_ok (bs : List ComponentBinding) :
    (reportOn config bs ((bs.filterMap (artifact? config)).map fun _ => .ok ())).generated =
      (bs.filter fun b => (b.artifact? config).isSome).map component := by
  induction bs with
  | nil => rfl
  | cons b bs ih =>
    cases ha : b.artifact? config with
    | none =>
      rw [List.filterMap_cons_none ha, List.filter_cons_of_neg (by simp [ha]), ← ih]
      simp [reportOn, ha, Report.ofFailed]
    | some a =>
      rw [List.filterMap_cons_some ha, List.filter_cons_of_pos (by simp [ha]), List.map_cons,
        List.map_cons, ← ih]
      simp [reportOn, ha, settled, Report.ofGenerated]

/-- The names of what is generated do not repeat iff no two bindings that generate something share
the package and the simple name. -/
theorem artifacts_nodup_iff (hc : config.Legal) (bs : List ComponentBinding) :
    ((bs.filterMap (artifact? config)).map Artifact.qualifiedName).Nodup ↔
      (bs.filter fun b => (b.artifact? config).isSome).Pairwise fun b b' =>
        b.package = b'.package → b.simpleName ≠ b'.simpleName := by
  rw [List.Nodup, List.pairwise_map, List.pairwise_filterMap, List.pairwise_filter]
  apply iff_of_eq
  congr 1
  funext b b'
  apply propext
  cases h : b.artifact? config with
  | none => simp
  | some a =>
    cases h' : b'.artifact? config with
    | none => simp
    | some a' => simp [qualifiedName_artifact?_eq_iff hc h h']

end ComponentBinding

namespace Source

variable (source : Source) (config : Config)

/-- The component that a name stands for in a batch, which is the first that bears it. -/
def component? (name : TypeName) : Option Component :=
  source.components.find? fun c => c.name == name

/-- What the component of a name is generated as, looked at on its own. -/
def artifactOf? (name : TypeName) : Option Artifact :=
  (source.component? name).bind fun c =>
    (source.validate config c).value.bind fun v => v.binding.artifact? config

theorem find?_of_mem_firstMet {seen : List TypeName} {cs : List Component} {c : Component}
    (h : c ∈ firstMet seen cs) : cs.find? (fun c' => c'.name == c.name) = some c := by
  induction cs generalizing seen with
  | nil => simp [firstMet] at h
  | cons d ds ih =>
    rw [firstMet] at h
    split at h
    · rename_i hd
      have hn : d.name ≠ c.name := fun hn => (firstMet_nodup seen ds).2 c h (hn ▸ hd)
      rw [List.find?_cons_of_neg (by simpa using hn), ih h]
    · rcases List.mem_cons.mp h with rfl | h
      · simp
      · have hn : d.name ≠ c.name := by
          intro hn
          exact (firstMet_nodup (d.name :: seen) ds).2 c h (hn ▸ List.mem_cons_self)
        rw [List.find?_cons_of_neg (by simpa using hn), ih h]

/-- A binding is built from the component that its name stands for. -/
theorem validated_of_mem_bindings {b : ComponentBinding} (h : b ∈ source.bindings config) :
    ∃ c v, source.component? b.component = some c ∧ (source.validate config c).value = some v ∧
      v.component = c ∧ v.binding = b := by
  rw [bindings, validated_intake] at h
  obtain ⟨v, hv, rfl⟩ := List.mem_map.mp h
  obtain ⟨c, hc, hcv⟩ := List.mem_filterMap.mp hv
  have hvc : v.component = c := source.component_of_validate config c hcv
  refine ⟨c, v, ?_, hcv, hvc, rfl⟩
  change source.component? v.component.name = some c
  rw [hvc]
  exact find?_of_mem_firstMet hc

/-- A binding is that of the component its name stands for, and generated as that one. -/
theorem component_of_mem_bindings {b : ComponentBinding} (h : b ∈ source.bindings config) :
    ∃ c, source.component? b.component = some c ∧ c.name = b.component ∧ c.package = b.package ∧
      source.artifactOf? config b.component = b.artifact? config := by
  obtain ⟨c, v, hc, hcv, rfl, rfl⟩ := source.validated_of_mem_bindings config h
  refine ⟨v.component, hc, rfl, rfl, ?_⟩
  rw [artifactOf?, hc, Option.bind_some, hcv, Option.bind_some]

def generating : List ComponentBinding :=
  (source.bindings config).filter fun b => (b.artifact? config).isSome

/-- Whatever the writer does, what is reported as generated is among what there is to generate. -/
theorem generated_sublist_generating {σ : Type} (write : Writer (StateM σ)) (s : σ) :
    ((source.process config write).run s).1.generated.Sublist
      ((source.generating config).map ComponentBinding.component) := by
  rw [source.report_process, Report.generated_append, generated_intake, List.nil_append]
  exact ComponentBinding.reportOn_generated_sublist_filter config _ _

theorem generating_artifacts :
    ((source.generating config).map ComponentBinding.component).map (source.artifactOf? config) =
      (source.artifacts config).map some := by
  rw [artifacts, List.map_filterMap_some_eq_filter_map_isSome, List.filter_map, List.map_map]
  apply List.map_congr_left
  intro b hb
  obtain ⟨c, -, -, -, ha⟩ := source.component_of_mem_bindings config (List.mem_of_mem_filter hb)
  exact ha

theorem generating_apart_iff :
    (((source.generating config).map ComponentBinding.component).filterMap
        source.component?).Pairwise Component.IsNamedApart ↔
      (source.generating config).Pairwise fun b b' =>
        b.package = b'.package → b.simpleName ≠ b'.simpleName := by
  rw [List.filterMap_map, List.pairwise_filterMap]
  apply List.Pairwise.iff_of_mem
  intro b b' hb hb'
  obtain ⟨c, hc, hn, hp, -⟩ := source.component_of_mem_bindings config (List.mem_of_mem_filter hb)
  obtain ⟨c', hc', hn', hp', -⟩ :=
    source.component_of_mem_bindings config (List.mem_of_mem_filter hb')
  simp [hc, hc', Component.IsNamedApart, hn, hn', hp, hp', ComponentBinding.simpleName]

theorem process_writer :
    let run := (source.process config Store.writer).run .empty
    run.1.generated = (source.generating config).map ComponentBinding.component ∧
      run.2 = Store.empty.insertAll (source.artifacts config) := by
  intro run
  have hrun : run = ((source.intake config).report ++ ComponentBinding.reportOn config
      (source.bindings config) ((source.artifacts config).map fun _ => .ok ()),
      Store.empty.insertAll (source.artifacts config)) := by
    change (source.process config Store.writer).run .empty = _
    rw [source.process_eq, StateT.run_map, Store.run_mapM_writer]
    rfl
  rw [hrun]
  refine ⟨?_, rfl⟩
  rw [Report.generated_append, generated_intake, List.nil_append, artifacts,
    ComponentBinding.reportOn_generated_of_ok, generating]

/-- What a run into an empty store owes to the components it reports as generated: their artifacts
have different names, and the store holds the artifact of each of them and nothing else. -/
structure KeepsArtifacts (report : Report) (store : Store) : Prop where
  apart : ∀ name ∈ report.generated, ∀ name' ∈ report.generated, name ≠ name' →
    (source.artifactOf? config name).map Artifact.qualifiedName ≠
      (source.artifactOf? config name').map Artifact.qualifiedName
  held : (store.artifacts.map some).Perm (report.generated.map (source.artifactOf? config))
  size_eq : store.size = report.generated.length

variable {source config} in
theorem keepsArtifacts_iff_nodup {report : Report} {store : Store} (hg : report.generated.Nodup)
    (ho : report.generated.map (source.artifactOf? config) = (source.artifacts config).map some)
    (hs : store = Store.empty.insertAll (source.artifacts config)) :
    source.KeepsArtifacts config report store ↔
      ((source.artifacts config).map Artifact.qualifiedName).Nodup := by
  let nameOf := fun name => (source.artifactOf? config name).map Artifact.qualifiedName
  have hnames : report.generated.map nameOf =
      ((source.artifacts config).map Artifact.qualifiedName).map some := by
    have h := congrArg (List.map (Option.map Artifact.qualifiedName)) ho
    simpa [nameOf, Function.comp_def] using h
  constructor
  · intro hk
    have hd : (report.generated.map nameOf).Nodup := by
      apply List.Nodup.map_on _ hg
      intro name hn name' hn' he
      by_contra hne
      exact hk.apart name hn name' hn' hne he
    rw [hnames] at hd
    exact List.Nodup.of_map some hd
  · intro hd
    have hsome := List.Nodup.map (fun _ _ => Option.some.inj) hd
    rw [← hnames] at hsome
    have hperm : store.artifacts.Perm (source.artifacts config) := by
      rw [hs]
      exact Store.insertAll_perm hd
    refine ⟨?_, ?_, ?_⟩
    · intro name hn name' hn' hne he
      exact hne (List.inj_on_of_nodup_map hsome hn hn' he)
    · rw [ho]
      exact hperm.map some
    · have hl := congrArg List.length ho
      rw [List.length_map, List.length_map] at hl
      rw [hl, Store.size]
      exact hperm.length_eq

/-- A run offers to its store the artifact of each component reported as generated; the store keeps
them in order, and under each name the last one offered is found. None is lost iff no two of these
components share the package and the simple name. -/
theorem keepsArtifacts_iff (hc : config.check = .ok config) :
    let run := (source.process config Store.writer).run .empty
    run.1.generated.map (source.artifactOf? config) = (source.artifacts config).map some ∧
    run.2.Ordered ∧
    (∀ name, run.2.get? name =
      (source.artifacts config).reverse.find? fun a => a.qualifiedName == name) ∧
    (source.KeepsArtifacts config run.1 run.2 ↔
      (run.1.generated.filterMap source.component?).Pairwise Component.IsNamedApart) := by
  intro run
  obtain ⟨hg, hs⟩ := source.process_writer config
  change run.1.generated = _ at hg
  change run.2 = _ at hs
  have hlegal : config.Legal := ((config.check_eq_ok_iff config).mp hc).1
  have hoffered : run.1.generated.map (source.artifactOf? config) =
      (source.artifacts config).map some := by
    rw [hg]
    exact source.generating_artifacts config
  have hnodup : run.1.generated.Nodup := by
    rw [hg]
    exact (source.bindings_nodup config).sublist (List.filter_sublist.map _)
  refine ⟨hoffered, ?_, ?_, ?_⟩
  · rw [hs]
    exact Store.ordered_empty.insertAll _
  · intro name
    rw [hs, Store.get?_insertAll]
    simp [Store.get?, Store.empty]
  · rw [keepsArtifacts_iff_nodup hnodup hoffered hs, hg, source.generating_apart_iff, artifacts,
      ComponentBinding.artifacts_nodup_iff config hlegal, generating]

theorem keepsArtifacts_nested :
    let screen (name : String) (layout : Int) : Component :=
      ⟨⟨name⟩, "a", .«class», some ⟨"android.app.Activity"⟩, some layout, []⟩
    let source :=
      (Declarations.ofComponents [screen "a.Main" 1, screen "a.Outer.Inner" 2]).toSource
    let run := (source.process .standard Store.writer).run .empty
    Config.standard.check = .ok .standard ∧
      run.1.generated = [⟨"a.Main"⟩, ⟨"a.Outer.Inner"⟩] ∧
      source.KeepsArtifacts .standard run.1 run.2 := by
  intro screen source run
  have hc : Config.standard.check = .ok .standard := by decide +kernel
  have hg : run.1.generated = [⟨"a.Main"⟩, ⟨"a.Outer.Inner"⟩] := by decide +kernel
  refine ⟨hc, hg, (keepsArtifacts_iff source .standard hc).2.2.2.mpr ?_⟩
  decide +kernel

/-- A nested component put into the package of a component of its own simple name takes the place
of the latter, and the report is clean. -/
theorem nested_component_replaces :
    let entry (name : String) (package : Option String) (layout : Int) : ComponentEntry :=
      ⟨name, .«class», package, some "android.app.Activity", some layout, []⟩
    let manifest : Manifest := ⟨[entry "a.Main" none 1, entry "a.Outer.Main" (some "a") 2], []⟩
    ∃ d, manifest.declarations = .ok d ∧
      let run := (d.toSource.process .standard Store.writer).run .empty
      Config.standard.check = .ok .standard ∧
      run.1.isClean = true ∧
      run.1.generated = [⟨"a.Main"⟩, ⟨"a.Outer.Main"⟩] ∧
      run.2.artifacts.map Artifact.qualifiedName = ["a.Main_"] ∧
      run.2.artifacts.map some = [d.toSource.artifactOf? .standard ⟨"a.Outer.Main"⟩] ∧
      ¬d.toSource.KeepsArtifacts .standard run.1 run.2 := by
  intro entry manifest
  refine ⟨⟨[⟨⟨"a.Main"⟩, "a", .«class», some ⟨"android.app.Activity"⟩, some 1, []⟩,
    ⟨⟨"a.Outer.Main"⟩, "a", .«class», some ⟨"android.app.Activity"⟩, some 2, []⟩], [], []⟩,
    by decide +kernel, ?_⟩
  intro run
  have hg : run.1.generated.length = 2 := by decide +kernel
  have hs : run.2.size = 1 := by decide +kernel
  refine ⟨by decide +kernel, by decide +kernel, by decide +kernel, by decide +kernel,
    by decide +kernel, ?_⟩
  intro hk
  have h := hk.size_eq
  omega

end Source

end ViewWiring
