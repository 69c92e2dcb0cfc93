import ViewWiring.Artifact
import ViewWiring.Proofs.Config.Legal
import ViewWiring.Proofs.Initializer.Statements
import ViewWiring.Proofs.Names.Qualified

namespace ViewWiring

namespace Artifact

theorem qualifiedName_eq_qualify (a : Artifact) :
    a.qualifiedName = (Code.ClassRef.mk a.package a.className).qualify a.className :=
  rfl

theorem qualifiedName_eq_iff {a b : Artifact} (ha : '.' ∉ a.className.toList)
    (hb : '.' ∉ b.className.toList) :
    a.qualifiedName = b.qualifiedName ↔ a.package = b.package ∧ a.className = b.className := by
  rw [qualifiedName_eq_qualify, qualifiedName_eq_qualify, Code.ClassRef.qualify_eq_iff ha hb]

theorem qualifiedName_eq_text_iff {a : Artifact} (ha : '.' ∉ a.className.toList) {name : TypeName}
    (hname : isQualifiedName name.text = true) :
    a.qualifiedName = name.text ↔ a.package = name.package ∧ a.className = name.simpleName := by
  rw [qualifiedName_eq_qualify, ← Code.ClassRef.qualify_ofType hname,
    Code.ClassRef.qualify_eq_iff ha name.dot_notMem_simpleName]
  rfl

end Artifact

namespace ComponentBinding

variable {config : Config}

/-- What is offered to a writer for a binding; nothing, without a layout. -/
def artifact? (config : Config) (b : ComponentBinding) : Option Artifact :=
  (b.sourceFile config).toOption.map (Artifact.ofSourceFile config)

theorem artifact?_eq_none_iff (config : Config) (b : ComponentBinding) :
    b.artifact? config = none ↔ b.layout = none := by
  obtain ⟨hl, hf⟩ | ⟨layout, hl, hf⟩ := b.sourceFile_cases config
  · simp [artifact?, hf, hl, Except.toOption]
  · simp [artifact?, hf, hl, Except.toOption]

theorem named_of_sourceFile {b : ComponentBinding} {f : Code.SourceFile}
    (h : b.sourceFile config = .ok f) :
    f.package = b.package ∧ f.className = b.className config ∧
      f.superclass = some ⟨b.package, b.relativeName⟩ := by
  obtain ⟨-, hf⟩ | ⟨layout, -, hf⟩ := b.sourceFile_cases config
  · rw [hf] at h
    cases h
  · rw [hf, Except.ok.injEq] at h
    rw [← h]
    exact ⟨rfl, rfl, rfl⟩

theorem named_of_artifact? {b : ComponentBinding} {a : Artifact}
    (h : b.artifact? config = some a) : a.package = b.package ∧ a.className = b.className config := by
  obtain ⟨-, hf⟩ | ⟨layout, -, hf⟩ := b.sourceFile_cases config
  · simp [artifact?, hf, Except.toOption] at h
  · rw [artifact?, hf, Except.toOption, Option.map_some, Option.some.injEq] at h
    rw [← h]
    exact ⟨rfl, rfl⟩

theorem dot_notMem_className (hc : config.Legal) (b : ComponentBinding) :
    '.' ∉ (b.className config).toList := by
  rw [className, String.toList_append, List.mem_append, not_or]
  exact ⟨b.component.dot_notMem_simpleName, hc.dot_notMem_suffix⟩

/-- Two generated classes share a qualified name iff their components share the package and the
simple name, for the suffix is the same. -/
theorem qualifiedName_artifact?_eq_iff (hc : config.Legal) {b b' : ComponentBinding}
    {a a' : Artifact} (h : b.artifact? config = some a) (h' : b'.artifact? config = some a') :
    a.qualifiedName = a'.qualifiedName ↔
      b.package = b'.package ∧ b.simpleName = b'.simpleName := by
  obtain ⟨hp, hn⟩ := named_of_artifact? h
  obtain ⟨hp', hn'⟩ := named_of_artifact? h'
  rw [Artifact.qualifiedName_eq_iff (hn ▸ dot_notMem_className hc b)
    (hn' ▸ dot_notMem_className hc b'), hp, hp', hn, hn', className, className, String.append_left_inj]

end ComponentBinding

end ViewWiring
