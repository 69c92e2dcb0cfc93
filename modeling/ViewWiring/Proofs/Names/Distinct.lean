import ViewWiring.Manifest
import ViewWiring.Proofs.Initializer.References
import ViewWiring.Proofs.Names.Claims
import Mathlib.Data.List.Basic

namespace ViewWiring

namespace Code

theorem ClassRef.topLevel_eq_of_name_eq {r r' : ClassRef} (h : r.name = r'.name) :
    r.topLevel = r'.topLevel := by
  rw [topLevel, topLevel, h]

namespace Names

/-- Of two classes the one holds its simple name, and the other one, which does not, has this very
text for its qualified name. -/
@[mk_iff]
structure Confuses (names : Names) (r r' : ClassRef) : Prop where
  held : names.resolves r = true
  packaged : r.package ≠ ""
  displaced : names.resolves r' = false
  spelled : r.name = r'.qualified

instance (names : Names) (r r' : ClassRef) : Decidable (names.Confuses r r') :=
  decidable_of_iff _ (confuses_iff names r r').symm

variable {names : Names} {r r' : ClassRef}

/-- Classes that hold their simple names are told apart by them. -/
theorem qualified_eq_of_resolves (h : names.resolves r = true) (h' : names.resolves r' = true)
    (hn : r.name = r'.name) : r.qualified = r'.qualified := by
  have hp : r.package = r'.package :=
    package_eq_of_resolves h h' (ClassRef.topLevel_eq_of_name_eq hn)
  rw [ClassRef.qualified, ClassRef.qualified, ClassRef.qualify, ClassRef.qualify, hp, hn]

theorem name_eq_of_confuses (h : names.Confuses r r') :
    r.qualified ≠ r'.qualified ∧ names.name r = names.name r' := by
  constructor
  · intro hq
    exact h.packaged (ClassRef.qualified_eq_name_iff.mp (hq.trans h.spelled.symm))
  · rw [name_of_resolves h.held, name_of_not_resolves h.displaced, h.spelled]

theorem confuses_of_name_eq (hq : r.qualified ≠ r'.qualified) (h : names.resolves r = true)
    (h' : names.resolves r' = false) (hn : names.name r = names.name r') : names.Confuses r r' := by
  rw [name_of_resolves h, name_of_not_resolves h'] at hn
  refine ⟨h, ?_, h', hn⟩
  intro hp
  exact hq ((ClassRef.qualified_of_package_eq hp).trans hn)

/-- Different classes are printed alike only if one of them is confused with the other. -/
theorem name_eq_name_iff :
    r.qualified ≠ r'.qualified ∧ names.name r = names.name r' ↔
      names.Confuses r r' ∨ names.Confuses r' r := by
  constructor
  · rintro ⟨hq, hn⟩
    cases h : names.resolves r with
    | true =>
      cases h' : names.resolves r' with
      | true =>
        rw [name_of_resolves h, name_of_resolves h'] at hn
        exact absurd (qualified_eq_of_resolves h h' hn) hq
      | false => exact .inl (confuses_of_name_eq hq h h' hn)
    | false =>
      cases h' : names.resolves r' with
      | true => exact .inr (confuses_of_name_eq hq.symm h' h hn.symm)
      | false =>
        rw [name_of_not_resolves h, name_of_not_resolves h'] at hn
        exact absurd hn hq
  · rintro (h | h)
    · exact name_eq_of_confuses h
    · exact ⟨(name_eq_of_confuses h).1.symm, (name_eq_of_confuses h).2.symm⟩

/-- There are two ways to be confused: to have no package, and so no name to fall back on, or to lie
in a package whose name reads as that of a class around the other one. -/
theorem Confuses.cases (h : names.Confuses r r') :
    (r'.package = "" ∧ r'.name = r.name) ∨
      (r'.package ≠ "" ∧ r.name = r'.package ++ "." ++ r'.name) := by
  by_cases hp : r'.package = ""
  · exact .inl ⟨hp, by rw [h.spelled, ClassRef.qualified_of_package_eq hp]⟩
  · exact .inr ⟨hp, by rw [h.spelled, ClassRef.qualified_of_package_ne hp]⟩

end Names

end Code

open Code

namespace ComponentBinding

variable {config : Config}

/-- A dot in the name of a class is that of the component, or of the interface of its listeners. -/
theorem nested_of_mem_refs {b : ComponentBinding} {f : SourceFile}
    (h : b.sourceFile config = .ok f) {r : ClassRef} (hr : r ∈ f.refs) (hd : '.' ∈ r.name.toList) :
    r = ⟨b.package, b.relativeName⟩ ∨ r = listenerRef config := by
  obtain hs | hl | ⟨type, rfl⟩ := mem_refs_of_sourceFile config h hr
  · exact .inl hs
  · exact .inr hl
  · exact absurd hd type.dot_notMem_simpleName

/-- Two different classes that a generated file mentions are printed alike iff one of them holds the
simple name which is all that the other can be called by. The other then either lies in the unnamed
package, or in one that is named as the class around the component, or around the interface of the
listeners. -/
theorem printed_alike_iff {b : ComponentBinding} {f : SourceFile} (h : b.sourceFile config = .ok f)
    {r r' : ClassRef} (hr : r ∈ f.refs) :
    let names := Names.ofFile f
    (r.qualified ≠ r'.qualified ∧ names.name r = names.name r' ↔
      names.Confuses r r' ∨ names.Confuses r' r) ∧
    (names.Confuses r r' →
      (r'.package = "" ∧ r'.name = r.name) ∨
      (r'.package ≠ "" ∧ r.name = r'.package ++ "." ++ r'.name ∧
        (r = ⟨b.package, b.relativeName⟩ ∨ r = listenerRef config))) := by
  intro names
  refine ⟨Names.name_eq_name_iff, ?_⟩
  intro hc
  obtain hunnamed | ⟨hp, hn⟩ := hc.cases
  · exact .inl hunnamed
  · have hd : '.' ∈ r.name.toList := by simp [hn]
    exact .inr ⟨hp, hn, nested_of_mem_refs h hr hd⟩

/-- Two buttons of two packages share their simple name, which goes to the first of them. -/
theorem buttons_printed_apart :
    let b : ComponentBinding := ⟨⟨"a.Main"⟩, "a", "Main", some 1,
      [⟨1, "first", ⟨"b.Button"⟩⟩, ⟨2, "second", ⟨"c.Button"⟩⟩], [], []⟩
    let r := ClassRef.ofType ⟨"b.Button"⟩
    let r' := ClassRef.ofType ⟨"c.Button"⟩
    let f : SourceFile :=
      ⟨"a", b.className .standard, [.«public»], some ⟨"a", "Main"⟩, [b.onCreate .standard 1]⟩
    b.sourceFile .standard = .ok f ∧ r ∈ f.refs ∧
      (Names.ofFile f).name r ≠ (Names.ofFile f).name r' := by
  intro b r r' f
  have hf : b.sourceFile .standard = .ok f := rfl
  have hr : r ∈ f.refs := by decide +kernel
  have hq : r.qualified ≠ r'.qualified := by decide +kernel
  have hapart : ¬((Names.ofFile f).Confuses r r' ∨ (Names.ofFile f).Confuses r' r) := by
    decide +kernel
  refine ⟨hf, hr, ?_⟩
  intro hn
  exact hapart ((printed_alike_iff hf hr).1.mp ⟨hq, hn⟩)

end ComponentBinding

/-- A class without a package has no other name to be told by than the one that the class of another
package holds. -/
theorem Source.unnamed_package_printed_alike :
    let entry (name type : String) (id : Int) : MemberEntry :=
      ⟨name, .field, some type, none, none, [], some id, false, none⟩
    let manifest : Manifest :=
      ⟨[⟨"Main", .«class», none, some "android.app.Activity", some 1,
          [entry "first" "android.widget.Button" 1, entry "second" "Button" 2]⟩],
        [⟨"Button", "android.view.View", []⟩]⟩
    let r := ClassRef.ofType ⟨"android.widget.Button"⟩
    let r' := ClassRef.ofType ⟨"Button"⟩
    ∃ d c v f, manifest.declarations = .ok d ∧ d.components = [c] ∧
      d.toSource.validate .standard c = ⟨some v, []⟩ ∧ v.binding.sourceFile .standard = .ok f ∧
      r ∈ f.refs ∧ r' ∈ f.refs ∧ r.qualified ≠ r'.qualified ∧
      (Names.ofFile f).name r = "Button" ∧ (Names.ofFile f).name r' = "Button" := by
  intro entry manifest r r'
  let field (name type : String) (id : Int) : Member :=
    ⟨name, .field (.declared ⟨type⟩), [], some (.view id)⟩
  let fields := [field "first" "android.widget.Button" 1, field "second" "Button" 2]
  let screen : Component :=
    ⟨⟨"Main"⟩, "", .«class», some ⟨"android.app.Activity"⟩, some 1, fields⟩
  refine ⟨(Declarations.ofComponents [screen]).withType ⟨"Button"⟩ ⟨"android.view.View"⟩,
    screen, ⟨screen, fields⟩, _, by decide +kernel, rfl, by decide +kernel, rfl, ?_⟩
  decide +kernel

end ViewWiring
