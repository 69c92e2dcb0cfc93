import ViewWiring.Proofs.Artifact.Superclass
import ViewWiring.Proofs.Batch.Artifacts

namespace ViewWiring

/-- A component that is named as the class generated for `c` is. -/
def Component.IsNamesake (config : Config) (c c' : Component) : Prop :=
  c'.name.package = c.package ∧ c'.name.simpleName = c.name.simpleName ++ config.suffix

instance (config : Config) (c c' : Component) : Decidable (c.IsNamesake config c') := by
  unfold Component.IsNamesake
  infer_instance

/-- No class reported as generated bears the name of another component. -/
def Source.SparesNames (source : Source) (config : Config) (report : Report) : Prop :=
  ∀ name ∈ report.generated, ∀ a ∈ source.artifactOf? config name,
    ∀ c ∈ source.components, c.name ≠ name → a.qualifiedName ≠ c.name.text

instance (source : Source) (config : Config) (report : Report) :
    Decidable (source.SparesNames config report) := by
  unfold Source.SparesNames
  infer_instance

namespace Source

variable (source : Source) (config : Config)

/-- What is reported as generated is the artifact of the component that the name stands for. -/
theorem artifactOf?_of_mem_generated {σ : Type} (write : Writer (StateM σ)) (s : σ)
    {name : TypeName} (h : name ∈ ((source.process config write).run s).1.generated) :
    ∃ c a, source.component? name = some c ∧ c.name = name ∧
      source.artifactOf? config name = some a ∧ a.package = c.package ∧
      a.className = c.name.simpleName ++ config.suffix := by
  obtain ⟨b, hb, rfl⟩ :=
    List.mem_map.mp ((source.generated_sublist_generating config write s).subset h)
  obtain ⟨hb, hsome⟩ := List.mem_filter.mp hb
  obtain ⟨a, ha⟩ := Option.isSome_iff_exists.mp hsome
  obtain ⟨c, hc, hname, hpackage, hof⟩ := source.component_of_mem_bindings config hb
  obtain ⟨hap, hac⟩ := ComponentBinding.named_of_artifact? ha
  refine ⟨c, a, hc, hname, hof.trans ha, hap.trans hpackage.symm, ?_⟩
  rw [hac, ComponentBinding.className, ComponentBinding.simpleName, hname]

end Source

namespace Manifest

variable {m : Manifest} {d : Declarations}

/-- Whatever the writer does, generated classes spare the names of the other components iff no
component has, in the package of a generated one, the simple name of that one with the suffix. -/
theorem sparesNames_iff (hm : m.declarations = .ok d) {config : Config}
    (hc : config.check = .ok config) {σ : Type} (write : Writer (StateM σ)) (s : σ) :
    let source := d.toSource
    let report := ((source.process config write).run s).1
    source.SparesNames config report ↔
      ∀ name ∈ report.generated, ∀ c ∈ source.component? name,
        ∀ c' ∈ source.components, ¬c.IsNamesake config c' := by
  intro source report
  have hlegal := ((config.check_eq_ok_iff config).mp hc).1
  apply forall₂_congr
  intro name hname
  obtain ⟨c, a, hcomponent, hcname, hartifact, hpackage, hclass⟩ :=
    source.artifactOf?_of_mem_generated config write s hname
  have hdot : '.' ∉ a.className.toList := by
    rw [hclass, String.toList_append, List.mem_append, not_or]
    exact ⟨c.name.dot_notMem_simpleName, hlegal.dot_notMem_suffix⟩
  have htakes : ∀ c' ∈ source.components,
      (a.qualifiedName = c'.name.text ↔ c.IsNamesake config c') := by
    intro c' hc'
    rw [Artifact.qualifiedName_eq_text_iff hdot (wellNamed_of_mem hm hc').name, hpackage, hclass,
      Component.IsNamesake, eq_comm, @eq_comm _ (c.name.simpleName ++ config.suffix)]
  -- with a suffix no component is named as the class generated for itself
  have hother : ∀ c', c.IsNamesake config c' → c'.name ≠ name := by
    intro c' hnamesake he
    have hlast : c.name.simpleName ++ config.suffix = c.name.simpleName := by
      rw [← hnamesake.2, he, hcname]
    exact hlegal.append_suffix_ne _ hlast
  simp only [hartifact, hcomponent, Option.mem_some_iff, forall_eq']
  constructor
  · intro hspares c' hc' hnamesake
    exact hspares c' hc' (hother c' hnamesake) ((htakes c' hc').mpr hnamesake)
  · intro hnone c' hc' _ htaken
    exact hnone c' hc' ((htakes c' hc').mp htaken)

theorem sparesNames_other_package :
    let entry (name : String) (layout : Int) : ComponentEntry :=
      ⟨name, .«class», none, some "android.app.Activity", some layout, []⟩
    let manifest : Manifest := ⟨[entry "a.Main" 1, entry "b.Main_" 2], []⟩
    ∃ d, manifest.declarations = .ok d ∧ Config.standard.check = .ok .standard ∧
      let report := ((d.toSource.process .standard Store.writer).run .empty).1
      report.generated = [⟨"a.Main"⟩, ⟨"b.Main_"⟩] ∧
      d.toSource.SparesNames .standard report := by
  intro entry manifest
  have hm : manifest.declarations =
      .ok ⟨[⟨⟨"a.Main"⟩, "a", .«class», some ⟨"android.app.Activity"⟩, some 1, []⟩,
        ⟨⟨"b.Main_"⟩, "b", .«class», some ⟨"android.app.Activity"⟩, some 2, []⟩], [], []⟩ := by
    decide +kernel
  have hc : Config.standard.check = .ok .standard := by decide +kernel
  refine ⟨_, hm, hc, by decide +kernel, (sparesNames_iff hm hc Store.writer .empty).mpr ?_⟩
  decide +kernel

/-- The class generated for `a.Main` takes the name of the component `a.Main_`, which the class
generated for that one extends, and the report is clean. -/
theorem generated_class_takes_name :
    let entry (name : String) (layout : Int) : ComponentEntry :=
      ⟨name, .«class», none, some "android.app.Activity", some layout, []⟩
    let manifest : Manifest := ⟨[entry "a.Main" 1, entry "a.Main_" 2], []⟩
    ∃ d, manifest.declarations = .ok d ∧ Config.standard.check = .ok .standard ∧
      let run := (d.toSource.process .standard Store.writer).run .empty
      run.1.isClean = true ∧
      run.1.generated = [⟨"a.Main"⟩, ⟨"a.Main_"⟩] ∧
      run.2.artifacts.map Artifact.qualifiedName = ["a.Main_", "a.Main__"] ∧
      ¬d.toSource.SparesNames .standard run.1 := by
  intro entry manifest
  refine ⟨⟨[⟨⟨"a.Main"⟩, "a", .«class», some ⟨"android.app.Activity"⟩, some 1, []⟩,
    ⟨⟨"a.Main_"⟩, "a", .«class», some ⟨"android.app.Activity"⟩, some 2, []⟩], [], []⟩,
    by decide +kernel, by decide +kernel, ?_⟩
  intro run
  exact ⟨by decide +kernel, by decide +kernel, by decide +kernel, by decide +kernel⟩

end Manifest

end ViewWiring
