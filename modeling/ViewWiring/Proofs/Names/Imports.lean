import ViewWiring.Proofs.Names.Claims
import ViewWiring.Proofs.Printer.Pieces
import ViewWiring.Proofs.Text.ByteOrder

namespace ViewWiring.Code

namespace SourceFile

variable {f : SourceFile}

/-- The class that a simple name belongs to: the file's own if it bears the name, else the first one
that the file mentions. -/
def claimant? (f : SourceFile) (simpleName : String) : Option String :=
  if simpleName = f.className then some f.qualifiedName
  else (f.refs.find? fun r => r.topLevel == simpleName).map ClassRef.qualifiedTopLevel

theorem owner?_eq_claimant? (simpleName : String) :
    (Names.ofFile f).owner? simpleName = f.claimant? simpleName :=
  owner?_ofFile simpleName

/-- An import ends in the simple name that its class holds. -/
theorem owner?_of_mem_imports {i : String} (h : i ∈ (Names.ofFile f).imports) :
    (Names.ofFile f).owner? (TypeName.mk i).simpleName = some i := by
  obtain ⟨r, -, hres, -, rfl⟩ := mem_imports_iff.mp h
  rw [ClassRef.qualifiedTopLevel, r.simpleName_qualify r.dot_notMem_topLevel]
  exact Names.resolves_iff.mp hres

theorem package_of_mem_imports {i : String} (h : i ∈ (Names.ofFile f).imports) :
    (TypeName.mk i).package ∉ ["java.lang", f.package, ""] := by
  obtain ⟨r, -, -, himplicit, rfl⟩ := mem_imports_iff.mp h
  rw [ClassRef.qualifiedTopLevel, r.package_qualify r.dot_notMem_topLevel]
  intro hp
  simp only [List.mem_cons, List.not_mem_nil, or_false] at hp
  rcases hp with hp | hp | hp <;> simp [ClassRef.isImplicitIn, hp] at himplicit

theorem simpleName_ne_className {i : String} (h : i ∈ (Names.ofFile f).imports) :
    (TypeName.mk i).simpleName ≠ f.className := by
  intro hn
  have howner := owner?_of_mem_imports h
  rw [hn, owner?_className, Option.some.injEq] at howner
  have hd := (TypeName.mk i).dot_notMem_simpleName
  rw [hn] at hd
  have hp : (TypeName.mk i).package = f.package := by
    rw [← howner]
    exact (ClassRef.mk f.package f.className).package_qualify hd
  exact package_of_mem_imports h (by simp [hp])

/-- The block of imports: in order, no two for one simple name, and none that would hide the file's
own class or name one that is in sight without it. -/
structure ImportsInOrder (f : SourceFile) : Prop where
  increasing : (Names.ofFile f).imports.Pairwise fun i j =>
    i.toUTF8.data.toList < j.toUTF8.data.toList
  apart : (Names.ofFile f).imports.Pairwise fun i j =>
    (TypeName.mk i).simpleName ≠ (TypeName.mk j).simpleName
  sparesOwn : ∀ i ∈ (Names.ofFile f).imports, (TypeName.mk i).simpleName ≠ f.className
  needed : ∀ i ∈ (Names.ofFile f).imports,
    (TypeName.mk i).package ∉ ["java.lang", f.package, ""]

theorem importsInOrder (f : SourceFile) : f.ImportsInOrder where
  increasing := imports_increasing.imp toUTF8_lt
  apart := by
    refine List.Pairwise.imp_of_mem ?_ imports_increasing
    intro i j hi hj hlt hn
    have howner := owner?_of_mem_imports hi
    rw [hn, owner?_of_mem_imports hj, Option.some.injEq] at howner
    exact String.lt_irrefl i (howner ▸ hlt)
  sparesOwn _ := simpleName_ne_className
  needed _ := package_of_mem_imports

/-- How a file calls a class of a named package: by its name alone if the class holds its simple
name, which takes an import unless the class is in sight anyway, else with the package. -/
structure CallsRightly (f : SourceFile) (r : ClassRef) : Prop where
  bare_iff : (Names.ofFile f).name r = r.name ↔ f.claimant? r.topLevel = some r.qualifiedTopLevel
  bare_or_qualified :
    (Names.ofFile f).name r = r.name ∨ (Names.ofFile f).name r = r.package ++ "." ++ r.name
  imported_iff : (Names.ofFile f).name r = r.name →
    (r.qualifiedTopLevel ∈ (Names.ofFile f).imports ↔
      r.package ≠ "java.lang" ∧ r.package ≠ f.package)

theorem callsRightly {r : ClassRef} (hr : r ∈ f.refs) (hp : r.package ≠ "") : f.CallsRightly r where
  bare_iff := by
    rw [Names.name_eq_iff hp, Names.resolves_iff, owner?_eq_claimant?]
  bare_or_qualified := by
    cases h : (Names.ofFile f).resolves r with
    | true => exact .inl (Names.name_of_resolves h)
    | false =>
      rw [Names.name_of_not_resolves h, ClassRef.qualified_of_package_ne hp]
      exact .inr rfl
  imported_iff := by
    intro hbare
    have hres := (Names.name_eq_iff hp).mp hbare
    constructor
    · intro hi
      have hpackage := package_of_mem_imports hi
      rw [ClassRef.qualifiedTopLevel, r.package_qualify r.dot_notMem_topLevel] at hpackage
      simp only [List.mem_cons, not_or] at hpackage
      exact ⟨hpackage.1, hpackage.2.1⟩
    · rintro ⟨hlang, hown⟩
      exact mem_imports_iff.mpr ⟨r, hr, hres, by simp [ClassRef.isImplicitIn, hp, hlang, hown], rfl⟩

/-- A file is printed as its package, its imports in order, and code in which the classes that the
file mentions, and no others, stand as names; each class of a named package goes by its name alone
exactly if no other class has claimed that before, and is imported if it would not be in sight. -/
theorem print_imports (indent : String) (f : SourceFile) :
    f.print indent = f.packageLine ++ importBlock (Names.ofFile f).imports ++
        Piece.fillAll (Names.ofFile f) (f.pieces indent) ∧
      Piece.classes (f.pieces indent) = f.refs ∧ f.ImportsInOrder ∧
      ∀ r ∈ f.refs, r.package ≠ "" → f.CallsRightly r :=
  ⟨f.print_eq_fillAll indent, f.classes_pieces indent, f.importsInOrder,
    fun _ hr hp => callsRightly hr hp⟩

/-- Of two buttons the one that a listener mentions comes second and keeps its package. -/
theorem print_imports_second_button :
    let button : ClassRef := ⟨"b", "Button"⟩
    let other : ClassRef := ⟨"c", "Button"⟩
    let listener : Method := ⟨"onClick", [], [], .void, [⟨other, "y"⟩], []⟩
    let f : SourceFile := ⟨"a", "Main_", [], some ⟨"a", "Main"⟩,
      [⟨"run", [], [], .void, [⟨button, "x"⟩], [[.expr (.new ⟨"c", "View.Listener"⟩ [listener])]]⟩]⟩
    other ∈ f.refs ∧ other.package ≠ "" ∧ (Names.ofFile f).name other = "c.Button" ∧
      (Names.ofFile f).imports = ["b.Button", "c.View"] := by
  intro button other listener f
  have hr : other ∈ f.refs := by decide +kernel
  have hp : other.package ≠ "" := by decide
  have hcalls := (print_imports "\t" f).2.2.2 other hr hp
  have hclaimed : f.claimant? other.topLevel = some "b.Button" := by decide +kernel
  have hbare : (Names.ofFile f).name other ≠ other.name := by
    intro h
    have howner := hcalls.bare_iff.mp h
    rw [hclaimed] at howner
    exact absurd howner (by decide +kernel)
  exact ⟨hr, hp, hcalls.bare_or_qualified.resolve_left hbare, by decide +kernel⟩

end SourceFile

end ViewWiring.Code
