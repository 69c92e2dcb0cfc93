import ViewWiring.Proofs.Artifact.Naming
import ViewWiring.Proofs.Manifest.Acceptance

namespace ViewWiring

open Code

namespace Component

variable {c : Component}

/-- How a manifest names a component: with a qualified name, in the unnamed package or in one that
the name begins with. -/
structure WellNamed (c : Component) : Prop where
  name : isQualifiedName c.name.text = true
  package : c.package = "" ∨ isQualifiedName c.package = true ∧ LiesIn c.name.text c.package

theorem relativeName_of_package_eq (h : c.package = "") : c.relativeName = c.name.text := by
  simp [relativeName, TypeName.relativeTo, h]

theorem relativeName_of_text_eq {rest : String} (hp : c.package ≠ "")
    (h : c.name.text = c.package ++ "." ++ rest) : c.relativeName = rest := by
  have htext : c.name.text.toList = (c.package.toList ++ ['.']) ++ rest.toList := by
    rw [h]
    simp
  rw [relativeName, TypeName.relativeTo, if_neg (by simpa using hp), if_pos]
  · rw [htext, List.drop_left' (by simp), String.ofList_toList]
  · rw [List.isPrefixOf_iff_prefix, htext]
    exact List.prefix_append _ _

/-- The package and the name relative to it make the name up again. -/
theorem WellNamed.qualified_eq (h : c.WellNamed) :
    (ClassRef.mk c.package c.relativeName).qualified = c.name.text := by
  by_cases hp : c.package = ""
  · rw [ClassRef.qualified_of_package_eq hp, relativeName_of_package_eq hp]
  · obtain ⟨-, rest, hrest⟩ := h.package.resolve_left hp
    rw [ClassRef.qualified_of_package_ne hp, relativeName_of_text_eq hp hrest, hrest]

end Component

/-- A name lies in the package that it says, unless that is the unnamed one. -/
theorem ComponentEntry.WellFormed.wellNamed {e : ComponentEntry} (h : e.WellFormed) :
    e.declared.WellNamed := by
  refine ⟨h.name, ?_⟩
  cases hp : e.package with
  | some package =>
    have hpackage : e.declared.package = package := by simp [declared, hp]
    rw [hpackage]
    exact h.package package hp
  | none =>
    have hpackage : e.declared.package = TypeName.package ⟨e.name⟩ := by simp [declared, hp]
    rw [hpackage]
    by_cases hd : '.' ∈ (TypeName.mk e.name).text.toList
    · have hq := ((TypeName.isQualifiedName_iff_of_dot_mem hd).mp h.name).1
      exact .inr ⟨hq, _, TypeName.text_eq_package_simpleName _ hd⟩
    · exact .inl (TypeName.package_of_dot_notMem hd)

namespace Manifest

variable {m : Manifest} {d : Declarations}

theorem wellNamed_of_mem (hm : m.declarations = .ok d) {c : Component} (hc : c ∈ d.components) :
    c.WellNamed := by
  obtain ⟨hwell, rfl⟩ := (declarations_reads m d).mp hm
  obtain ⟨e, he, rfl⟩ := List.mem_map.mp hc
  exact (hwell.components e he).wellNamed

/-- Whichever of its members take part, the class generated for a component with a layout stands in
the component's package, extends the class of exactly the component's name, and has another name
itself. -/
theorem generated_extends_component (hm : m.declarations = .ok d) {config : Config}
    (hc : config.check = .ok config) :
    ∀ c ∈ d.components, ∀ members layout, c.layout = some layout →
      ∃ f, (Validated.binding ⟨c, members⟩).sourceFile config = .ok f ∧
        f.package = c.package ∧
        f.superclass.map ClassRef.qualified = some c.name.text ∧
        (Artifact.ofSourceFile config f).qualifiedName ≠ c.name.text := by
  intro c hmem members layout hlayout
  have hlegal := ((config.check_eq_ok_iff config).mp hc).1
  let b := Validated.binding ⟨c, members⟩
  obtain ⟨f, hf⟩ : ∃ f, b.sourceFile config = .ok f := by
    obtain ⟨hnone, -⟩ | ⟨_, -, hf⟩ := b.sourceFile_cases config
    · change c.layout = none at hnone
      rw [hnone] at hlayout
      cases hlayout
    · exact ⟨_, hf⟩
  obtain ⟨hpackage, hclass, hsuper⟩ := ComponentBinding.named_of_sourceFile hf
  refine ⟨f, hf, hpackage, ?_, ?_⟩
  · rw [hsuper, Option.map_some]
    exact congrArg some (wellNamed_of_mem hm hmem).qualified_eq
  · intro hname
    have hdot : '.' ∉ f.className.toList :=
      hclass ▸ ComponentBinding.dot_notMem_className hlegal b
    -- the generated name ends in the simple name with the suffix, the component's without it
    have hlast : f.className = c.name.simpleName := by
      rw [← (ClassRef.mk f.package f.className).simpleName_qualify hdot]
      exact congrArg (fun text => (TypeName.mk text).simpleName) hname
    rw [hclass] at hlast
    exact hlegal.append_suffix_ne _ hlast

theorem generated_extends_nested :
    let activity := "android.app.Activity"
    let manifest : Manifest :=
      ⟨[⟨"a.Outer.Main", .«class», some "a", some activity, some 2, []⟩], []⟩
    let c : Component := ⟨⟨"a.Outer.Main"⟩, "a", .«class», some ⟨activity⟩, some 2, []⟩
    manifest.declarations = .ok ⟨[c], [], []⟩ ∧ Config.standard.check = .ok .standard ∧
      ∃ f, (Validated.binding ⟨c, []⟩).sourceFile .standard = .ok f ∧
        f.package = "a" ∧
        f.superclass.map ClassRef.qualified = some "a.Outer.Main" ∧
        (Artifact.ofSourceFile .standard f).qualifiedName ≠ "a.Outer.Main" := by
  intro activity manifest c
  have hm : manifest.declarations = .ok ⟨[c], [], []⟩ := by decide +kernel
  have hc : Config.standard.check = .ok .standard := by decide +kernel
  exact ⟨hm, hc, generated_extends_component hm hc c List.mem_cons_self [] 2 rfl⟩

end Manifest

end ViewWiring
