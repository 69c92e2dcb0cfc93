import ViewWiring.Batch
import ViewWiring.Manifest
import ViewWiring.Proofs.Names.Claims
import Mathlib.Data.List.Basic

namespace ViewWiring

namespace Code

/-- A name that some entry stands for stands for it if it does for no other. -/
theorem lookup_eq_some_of_mem {entries : List (String × String)} {key value : String}
    (hm : (key, value) ∈ entries) (hu : ∀ value', (key, value') ∈ entries → value' = value) :
    entries.lookup key = some value := by
  induction entries with
  | nil => simp at hm
  | cons entry entries ih =>
    obtain ⟨key', value'⟩ := entry
    rw [List.lookup_cons]
    split
    · rename_i he
      obtain rfl := beq_iff_eq.mp he
      rw [hu value' List.mem_cons_self]
    · rename_i he
      have hne : key ≠ key' := by simpa using he
      apply ih
      · simpa [hne] using hm
      · exact fun v hv => hu v (List.mem_cons_of_mem _ hv)

theorem lookup_eq_none_of_forall {entries : List (String × String)} {key : String}
    (h : ∀ value, (key, value) ∉ entries) : entries.lookup key = none := by
  rw [List.lookup_eq_none_iff]
  rintro ⟨key', value⟩ hm
  simp only [bne_iff_ne, ne_eq]
  rintro rfl
  exact h value hm

namespace SourceFile

variable (f : SourceFile)

/-- The classes of a package that a file mentions, each by its simple name. -/
def mentionedIn (package : String) : List (String × String) :=
  (f.refs.filter fun r => r.package == package).map fun r => (r.topLevel, r.qualifiedTopLevel)

/-- The classes that a file has named itself: its own and those that it imports. -/
def namedHere : List (String × String) :=
  (f.className, f.qualifiedName) ::
    (Names.ofFile f).imports.map fun i => ((TypeName.mk i).simpleName, i)

/-- The class that a simple name means in a file, as far as the classes are known that the file
mentions: its own or one that it imports, else one of its package, else one of `java.lang`. -/
def classNamed? (simpleName : String) : Option String :=
  (f.namedHere ++ f.mentionedIn f.package ++ f.mentionedIn "java.lang").lookup simpleName

/-- A class of `java.lang` whose simple name also is that of a class of the file's package, which
the file mentions as well. -/
def Shadows (r : ClassRef) : Prop :=
  r.package = "java.lang" ∧ f.package ≠ "java.lang" ∧
    ∃ r' ∈ f.refs, r'.package = f.package ∧ r'.topLevel = r.topLevel

instance (r : ClassRef) : Decidable (f.Shadows r) := by
  unfold Shadows
  infer_instance

variable {f}

theorem mem_mentionedIn {package simpleName qualified : String} :
    (simpleName, qualified) ∈ f.mentionedIn package ↔
      ∃ r ∈ f.refs, r.package = package ∧ r.topLevel = simpleName ∧
        r.qualifiedTopLevel = qualified := by
  simp [mentionedIn, and_assoc]

theorem lookup_mentionedIn {r : ClassRef} (hr : r ∈ f.refs) :
    (f.mentionedIn r.package).lookup r.topLevel = some r.qualifiedTopLevel := by
  apply lookup_eq_some_of_mem (mem_mentionedIn.mpr ⟨r, hr, rfl, rfl, rfl⟩)
  intro qualified hm
  obtain ⟨r', -, hp, ht, rfl⟩ := mem_mentionedIn.mp hm
  exact ClassRef.qualifiedTopLevel_eq_iff.mpr ⟨hp, ht⟩

/-- What the file has named itself goes by a simple name only if it is the class that holds it. -/
theorem eq_of_mem_namedHere {r : ClassRef} (h : (Names.ofFile f).resolves r = true)
    {qualified : String} (hm : (r.topLevel, qualified) ∈ f.namedHere) :
    qualified = r.qualifiedTopLevel := by
  have howner := Names.resolves_iff.mp h
  rcases List.mem_cons.mp hm with he | hm
  · obtain ⟨ht, rfl⟩ := Prod.mk.inj he
    rw [ht, owner?_className, Option.some.injEq] at howner
    exact howner
  · obtain ⟨i, hi, he⟩ := List.mem_map.mp hm
    obtain ⟨r', -, hres', -, rfl⟩ := mem_imports_iff.mp hi
    obtain ⟨ht, rfl⟩ := Prod.mk.inj he
    have ht' : r'.topLevel = r.topLevel := by
      rw [← ht]
      exact (r'.simpleName_qualify r'.dot_notMem_topLevel).symm
    rw [Names.resolves_iff, ht', howner, Option.some.injEq] at hres'
    exact hres'.symm

theorem lookup_namedHere {r : ClassRef} (h : (Names.ofFile f).resolves r = true) :
    f.namedHere.lookup r.topLevel =
      if (r.topLevel, r.qualifiedTopLevel) ∈ f.namedHere then some r.qualifiedTopLevel else none := by
  split
  · rename_i hm
    exact lookup_eq_some_of_mem hm fun _ hm' => eq_of_mem_namedHere h hm'
  · rename_i hn
    apply lookup_eq_none_of_forall
    intro qualified hm
    obtain rfl := eq_of_mem_namedHere h hm
    exact hn hm

theorem mem_namedHere {r : ClassRef} (hr : r ∈ f.refs) (h : (Names.ofFile f).resolves r = true)
    (hi : r.isImplicitIn f.package = false) :
    (r.topLevel, r.qualifiedTopLevel) ∈ f.namedHere := by
  apply List.mem_cons_of_mem
  refine List.mem_map.mpr ⟨r.qualifiedTopLevel, mem_imports_iff.mpr ⟨r, hr, h, hi, rfl⟩, ?_⟩
  rw [ClassRef.qualifiedTopLevel, r.simpleName_qualify r.dot_notMem_topLevel]

/-- Classes of `java.lang` are never imported, nor are they the file's own in another package. -/
theorem notMem_namedHere {r : ClassRef} (hl : r.package = "java.lang")
    (hf : f.package ≠ "java.lang") : (r.topLevel, r.qualifiedTopLevel) ∉ f.namedHere := by
  intro hm
  rcases List.mem_cons.mp hm with he | hm
  · obtain ⟨ht, hq⟩ := Prod.mk.inj he
    rw [SourceFile.qualifiedName, ← ht] at hq
    have hp := (ClassRef.qualify_eq_iff r.dot_notMem_topLevel r.dot_notMem_topLevel).mp hq
    exact hf (hp.1.symm.trans hl)
  · obtain ⟨i, hi, he⟩ := List.mem_map.mp hm
    obtain ⟨r', -, -, himplicit, rfl⟩ := mem_imports_iff.mp hi
    have hq := (Prod.mk.inj he).2
    have hl' : r'.package = "java.lang" := (ClassRef.qualifiedTopLevel_eq_iff.mp hq).1.trans hl
    simp [ClassRef.isImplicitIn, hl'] at himplicit

/-- The scopes of a file, nearest first, for a name that a class holds. -/
theorem classNamed?_eq {r : ClassRef} (h : (Names.ofFile f).resolves r = true) :
    f.classNamed? r.topLevel =
      if (r.topLevel, r.qualifiedTopLevel) ∈ f.namedHere then some r.qualifiedTopLevel
      else ((f.mentionedIn f.package).lookup r.topLevel).or
        ((f.mentionedIn "java.lang").lookup r.topLevel) := by
  rw [classNamed?, List.lookup_append, List.lookup_append, lookup_namedHere h]
  split <;> simp

theorem classNamed?_of_not_shadows {r : ClassRef} (hr : r ∈ f.refs) (hp : r.package ≠ "")
    (h : (Names.ofFile f).resolves r = true) (hn : ¬f.Shadows r) :
    f.classNamed? r.topLevel = some r.qualifiedTopLevel := by
  rw [classNamed?_eq h]
  by_cases hm : (r.topLevel, r.qualifiedTopLevel) ∈ f.namedHere
  · rw [if_pos hm]
  rw [if_neg hm]
  have himplicit : r.isImplicitIn f.package ≠ false := fun hi => hm (mem_namedHere hr h hi)
  by_cases hown : r.package = f.package
  · rw [← hown, lookup_mentionedIn hr, Option.some_or]
  · have hlang : r.package = "java.lang" := by
      simpa [ClassRef.isImplicitIn, hp, hown] using himplicit
    have hnone : (f.mentionedIn f.package).lookup r.topLevel = none := by
      apply lookup_eq_none_of_forall
      intro qualified hm'
      obtain ⟨r', hr', hp', ht', -⟩ := mem_mentionedIn.mp hm'
      exact hn ⟨hlang, fun he => hown (hlang.trans he.symm), r', hr', hp', ht'⟩
    rw [hnone, Option.none_or, ← hlang, lookup_mentionedIn hr]

/-- A shadowed class is passed over for its namesake. -/
theorem classNamed?_of_shadows {r : ClassRef} (h : (Names.ofFile f).resolves r = true)
    (hs : f.Shadows r) :
    f.classNamed? r.topLevel = some ((ClassRef.mk f.package r.topLevel).qualified) ∧
      (ClassRef.mk f.package r.topLevel).qualified ≠ r.qualifiedTopLevel := by
  obtain ⟨hlang, hf, r', hr', hp', ht'⟩ := hs
  have hq : r'.qualifiedTopLevel = (ClassRef.mk f.package r.topLevel).qualified := by
    rw [ClassRef.qualifiedTopLevel, ht', ClassRef.qualify, hp']
    rfl
  constructor
  · rw [classNamed?_eq h, if_neg (notMem_namedHere hlang hf), ← hp', ← ht', lookup_mentionedIn hr',
      Option.some_or, hq, hp', ht']
  · rw [← hq]
    intro he
    have hpackage := (ClassRef.qualifiedTopLevel_eq_iff.mp he).1
    exact hf (hp'.symm.trans (hpackage.trans hlang))

/-- In a file whose classes all lie in packages, the first part of a class name that is printed
without its package means that class there, unless it is one of `java.lang` of which the file's
package has a namesake that the file mentions too; then it means the namesake. -/
theorem classNamed?_of_name_eq (hp : ∀ r ∈ f.refs, r.package ≠ "") {r : ClassRef} (hr : r ∈ f.refs)
    (hbare : (Names.ofFile f).name r = r.name) :
    (¬f.Shadows r → f.classNamed? r.topLevel = some r.qualifiedTopLevel) ∧
      (f.Shadows r → f.classNamed? r.topLevel = some ((ClassRef.mk f.package r.topLevel).qualified) ∧
        (ClassRef.mk f.package r.topLevel).qualified ≠ r.qualifiedTopLevel) := by
  have hres : (Names.ofFile f).resolves r = true := (Names.name_eq_iff (hp r hr)).mp hbare
  exact ⟨classNamed?_of_not_shadows hr (hp r hr) hres, classNamed?_of_shadows hres⟩

/-- Of two classes of one simple name the first is imported, and the name means it. -/
theorem classNamed?_first_button :
    let button : ClassRef := ⟨"b", "Button"⟩
    let f : SourceFile := ⟨"a", "Main_", [], some ⟨"a", "Main"⟩,
      [⟨"run", [overrideRef], [], .void, [⟨button, "x"⟩, ⟨⟨"c", "Button"⟩, "y"⟩], []⟩]⟩
    (∀ r ∈ f.refs, r.package ≠ "") ∧ button ∈ f.refs ∧
      (Names.ofFile f).name button = button.name ∧
      f.classNamed? button.topLevel = some button.qualifiedTopLevel := by
  intro button f
  have hp : ∀ r ∈ f.refs, r.package ≠ "" := by decide +kernel
  have hr : button ∈ f.refs := by decide +kernel
  have hbare : (Names.ofFile f).name button = button.name := by decide +kernel
  exact ⟨hp, hr, hbare, (classNamed?_of_name_eq hp hr hbare).1 (by decide +kernel)⟩

end SourceFile

end Code

open Code

/-- A view of a class called `Override` in the package of its component turns the annotation of the
initializer into one of that class. -/
theorem Source.own_class_shadows_override :
    let entry : MemberEntry :=
      ⟨"badge", .field, some "a.Override", none, none, [], some 7, false, none⟩
    let manifest : Manifest :=
      ⟨[⟨"a.Main", .«class», none, some "android.app.Activity", some 1, [entry]⟩],
        [⟨"a.Override", "android.view.View", []⟩]⟩
    ∃ d c v f, manifest.declarations = .ok d ∧ d.components = [c] ∧
      d.toSource.validate .standard c = ⟨some v, []⟩ ∧ v.binding.sourceFile .standard = .ok f ∧
      (∀ r ∈ f.refs, r.package ≠ "") ∧ overrideRef ∈ f.refs ∧
      (Names.ofFile f).name overrideRef = overrideRef.name ∧
      overrideRef.qualifiedTopLevel = "java.lang.Override" ∧
      f.classNamed? overrideRef.topLevel = some "a.Override" := by
  intro entry manifest
  let field : Member := ⟨"badge", .field (.declared ⟨"a.Override"⟩), [], some (.view 7)⟩
  let screen : Component :=
    ⟨⟨"a.Main"⟩, "a", .«class», some ⟨"android.app.Activity"⟩, some 1, [field]⟩
  refine ⟨(Declarations.ofComponents [screen]).withType ⟨"a.Override"⟩ ⟨"android.view.View"⟩,
    screen, ⟨screen, [field]⟩, _, by decide +kernel, rfl, by decide +kernel, rfl, ?_⟩
  decide +kernel

end ViewWiring
