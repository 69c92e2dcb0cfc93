import ViewWiring.Code.Names
import ViewWiring.Proofs.Names.Qualified

namespace ViewWiring.Code

theorem mem_insertSorted {text t : String} {ts : List String} :
    t ∈ insertSorted text ts ↔ t = text ∨ t ∈ ts := by
  induction ts with
  | nil => simp [insertSorted]
  | cons u us ih =>
    rw [insertSorted]
    split
    · rw [List.mem_cons]
    · split
      · rename_i he
        simp [he]
      · rw [List.mem_cons, ih, List.mem_cons]
        exact or_left_comm

/-- Adding a text keeps the list in strictly increasing order. -/
theorem insertSorted_increasing {text : String} {ts : List String} (h : ts.Pairwise (· < ·)) :
    (insertSorted text ts).Pairwise (· < ·) := by
  induction ts with
  | nil => exact List.pairwise_singleton _ _
  | cons t ts ih =>
    obtain ⟨hfirst, hrest⟩ := List.pairwise_cons.mp h
    rw [insertSorted]
    split
    · rename_i hlt
      refine List.pairwise_cons.mpr ⟨?_, h⟩
      intro u hu
      rcases List.mem_cons.mp hu with rfl | hu
      · exact hlt
      · exact String.lt_trans hlt (hfirst u hu)
    · split
      · exact h
      · rename_i hlt hne
        refine List.pairwise_cons.mpr ⟨?_, ih hrest⟩
        intro u hu
        rcases mem_insertSorted.mp hu with rfl | hu
        · exact Std.lt_of_le_of_ne (String.not_lt.mp hlt) (Ne.symm hne)
        · exact hfirst u hu

namespace Names

variable {names : Names} {r r' : ClassRef}

theorem resolves_iff :
    names.resolves r = true ↔ names.owner? r.topLevel = some r.qualifiedTopLevel := by
  rw [resolves, beq_iff_eq]

/-- A simple name belongs to one class, so two that hold the same name are in one package. -/
theorem package_eq_of_resolves (h : names.resolves r = true) (h' : names.resolves r' = true)
    (ht : r.topLevel = r'.topLevel) : r.package = r'.package := by
  rw [resolves_iff] at h h'
  rw [ht, h', Option.some.injEq] at h
  exact (ClassRef.qualifiedTopLevel_eq_iff.mp h.symm).1

theorem name_of_resolves (h : names.resolves r = true) : names.name r = r.name := by
  rw [name, if_pos h]

theorem name_of_not_resolves (h : names.resolves r = false) : names.name r = r.qualified := by
  rw [name, h, if_neg Bool.false_ne_true]

/-- A class of a named package is printed without it only if it holds its simple name. -/
theorem name_eq_iff (hp : r.package ≠ "") : names.name r = r.name ↔ names.resolves r = true := by
  cases h : names.resolves r with
  | true => simp [name_of_resolves h]
  | false => simp [name_of_not_resolves h, ClassRef.qualified_eq_name_iff, hp]

/-- However a class is called, it is called by a qualified name if its own is one. -/
theorem isQualifiedName_name (h : isQualifiedName r.qualified = true) :
    isQualifiedName (names.name r) = true := by
  cases hresolves : names.resolves r with
  | true =>
    rw [name_of_resolves hresolves]
    exact ClassRef.isQualifiedName_name h
  | false => rwa [name_of_not_resolves hresolves]

section Claims

variable {package : String} (simpleName : String)

/-- The first claim of a name holds. -/
theorem owner?_claim (names : Names) (claimed qualifiedName : String) :
    (names.claim claimed qualifiedName).2.owner? simpleName =
      (names.owner? simpleName).or
        (if claimed == simpleName then some qualifiedName else none) := by
  unfold claim
  cases ho : names.owner? claimed with
  | some owner =>
    by_cases hs : claimed = simpleName
    · simp [← hs, ho]
    · simp [hs]
  | none =>
    change List.lookup simpleName ((claimed, qualifiedName) :: names.claims) = _
    rw [List.lookup_cons]
    by_cases hs : claimed = simpleName
    · simp [← hs, ho]
    · rw [beq_false_of_ne hs, beq_false_of_ne (Ne.symm hs), if_neg Bool.false_ne_true, Option.or_none]
      rfl

theorem claim_eq_true_iff (names : Names) (claimed qualifiedName : String) :
    (names.claim claimed qualifiedName).1 = true ↔
      (names.claim claimed qualifiedName).2.owner? claimed = some qualifiedName := by
  rw [owner?_claim, claim]
  cases names.owner? claimed <;> simp

theorem owner?_mention (names : Names) (r : ClassRef) :
    (mention package names r).owner? simpleName =
      (names.owner? simpleName).or
        (if r.topLevel == simpleName then some r.qualifiedTopLevel else none) := by
  rw [← owner?_claim, mention]
  dsimp only
  split_ifs <;> rfl

/-- After all are mentioned, a name belongs to who held it before, or else to the first that has
it. -/
theorem owner?_foldl_mention (refs : List ClassRef) (names : Names) :
    (refs.foldl (mention package) names).owner? simpleName =
      (names.owner? simpleName).or
        ((refs.find? fun r => r.topLevel == simpleName).map ClassRef.qualifiedTopLevel) := by
  induction refs generalizing names with
  | nil => simp
  | cons r rs ih =>
    rw [List.foldl_cons, ih, owner?_mention, Option.or_assoc, List.find?_cons]
    cases r.topLevel == simpleName <;> rfl

end Claims

section Imports

variable {package : String} (names : Names)

theorem imports_claim (claimed qualifiedName : String) :
    (names.claim claimed qualifiedName).2.imports = names.imports := by
  unfold claim
  split <;> rfl

theorem imports_mention (r : ClassRef) :
    (mention package names r).imports =
      if (mention package names r).resolves r && !r.isImplicitIn package then
        insertSorted r.qualifiedTopLevel names.imports
      else names.imports := by
  have hheld : (mention package names r).resolves r =
      (names.claim r.topLevel r.qualifiedTopLevel).1 := by
    rw [Bool.eq_iff_iff, resolves_iff, claim_eq_true_iff, owner?_mention, owner?_claim]
  have himports := names.imports_claim r.topLevel r.qualifiedTopLevel
  rw [hheld, mention, ← himports]
  dsimp only
  split_ifs <;> rfl

/-- Who gets its name keeps it, and who does not never will. -/
theorem resolves_foldl_mention (r : ClassRef) (rs : List ClassRef) :
    (rs.foldl (mention package) (mention package names r)).resolves r =
      (mention package names r).resolves r := by
  rw [Bool.eq_iff_iff, resolves_iff, resolves_iff, owner?_foldl_mention, owner?_mention]
  cases names.owner? r.topLevel <;> simp

theorem mem_imports_foldl_mention {i : String} (refs : List ClassRef) :
    i ∈ (refs.foldl (mention package) names).imports ↔
      i ∈ names.imports ∨
        ∃ r ∈ refs, (refs.foldl (mention package) names).resolves r = true ∧
          r.isImplicitIn package = false ∧ r.qualifiedTopLevel = i := by
  induction refs generalizing names with
  | nil => simp
  | cons r rs ih =>
    rw [List.foldl_cons, ih, imports_mention, ← resolves_foldl_mention names r rs]
    cases hr : (rs.foldl (mention package) (mention package names r)).resolves r &&
        !r.isImplicitIn package with
    | true =>
      rw [Bool.and_eq_true, Bool.not_eq_true'] at hr
      simp only [if_true, mem_insertSorted, List.exists_mem_cons_iff, hr, true_and, eq_comm (a := i)]
      tauto
    | false =>
      rw [Bool.and_eq_false_iff, Bool.not_eq_false'] at hr
      simp only [Bool.false_eq_true, if_false, List.exists_mem_cons_iff]
      rcases hr with hr | hr <;> simp [hr]

theorem imports_foldl_mention_increasing {names : Names} (h : names.imports.Pairwise (· < ·))
    (refs : List ClassRef) :
    (refs.foldl (mention package) names).imports.Pairwise (· < ·) := by
  induction refs generalizing names with
  | nil => exact h
  | cons r rs ih =>
    have hstep : (mention package names r).imports.Pairwise (· < ·) := by
      rw [imports_mention]
      split_ifs
      · exact insertSorted_increasing h
      · exact h
    exact ih hstep

end Imports

end Names

variable {f : SourceFile}

/-- A simple name belongs to the file's own class if it bears the name, else to the first class with
that name that the file mentions. -/
theorem owner?_ofFile (simpleName : String) :
    (Names.ofFile f).owner? simpleName =
      if simpleName = f.className then some f.qualifiedName
      else (f.refs.find? fun r => r.topLevel == simpleName).map ClassRef.qualifiedTopLevel := by
  rw [Names.ofFile, Names.owner?_foldl_mention, Names.owner?_claim]
  by_cases h : simpleName = f.className
  · simp [h, Names.owner?]
  · simp [h, Names.owner?, Ne.symm h]

/-- Imported is what holds its simple name and would not be in sight otherwise. -/
theorem mem_imports_iff {i : String} :
    i ∈ (Names.ofFile f).imports ↔
      ∃ r ∈ f.refs, (Names.ofFile f).resolves r = true ∧ r.isImplicitIn f.package = false ∧
        r.qualifiedTopLevel = i := by
  rw [Names.ofFile, Names.mem_imports_foldl_mention, Names.imports_claim]
  simp

theorem imports_increasing : (Names.ofFile f).imports.Pairwise (· < ·) := by
  apply Names.imports_foldl_mention_increasing
  rw [Names.imports_claim]
  exact List.Pairwise.nil

/-- The name of the file's own class belongs to that class. -/
theorem owner?_className : (Names.ofFile f).owner? f.className = some f.qualifiedName := by
  rw [owner?_ofFile, if_pos rfl]

end ViewWiring.Code
