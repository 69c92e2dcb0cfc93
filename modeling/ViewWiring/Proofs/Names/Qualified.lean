import ViewWiring.Code.ClassRef
import ViewWiring.Proofs.Names.Identifiers

namespace ViewWiring.Code.ClassRef

theorem dot_notMem_topLevel (r : ClassRef) : '.' ∉ r.topLevel.toList := by
  intro h
  rw [topLevel, String.toList_ofList] at h
  have hd := List.all_eq_true.mp List.all_takeWhile '.' h
  simp at hd

/-- A name in a package is taken apart at its last dot as it was put together. -/
theorem splitAtLastDot_qualify (r : ClassRef) {name : String} (h : '.' ∉ name.toList) :
    splitAtLastDot (r.qualify name).toList =
      if r.package = "" then none else some (r.package.toList, name.toList) := by
  unfold qualify
  by_cases hp : r.package = ""
  · simpa [hp] using splitAtLastDot_eq_none_iff.mpr h
  · have happ : (r.package ++ "." ++ name).toList = r.package.toList ++ '.' :: name.toList := by
      simp
    have he : r.package.isEmpty = false := by simpa [String.isEmpty_iff] using hp
    rw [he, if_neg hp, if_neg Bool.false_ne_true, happ, splitAtLastDot_append h]

theorem package_qualify (r : ClassRef) {name : String} (h : '.' ∉ name.toList) :
    (TypeName.mk (r.qualify name)).package = r.package := by
  rw [TypeName.package, r.splitAtLastDot_qualify h]
  by_cases hp : r.package = "" <;> simp [hp]

theorem simpleName_qualify (r : ClassRef) {name : String} (h : '.' ∉ name.toList) :
    (TypeName.mk (r.qualify name)).simpleName = name := by
  rw [TypeName.simpleName, r.splitAtLastDot_qualify h]
  by_cases hp : r.package = ""
  · simp [hp, qualify]
  · simp [hp]

/-- Names that have no dot are told apart by the packages that they are put in. -/
theorem qualify_eq_iff {r r' : ClassRef} {name name' : String} (h : '.' ∉ name.toList)
    (h' : '.' ∉ name'.toList) :
    r.qualify name = r'.qualify name' ↔ r.package = r'.package ∧ name = name' := by
  constructor
  · intro he
    constructor
    · rw [← r.package_qualify h, he, r'.package_qualify h']
    · rw [← r.simpleName_qualify h, he, r'.simpleName_qualify h']
  · rintro ⟨hp, rfl⟩
    rw [qualify, qualify, hp]

/-- A qualified name is the one of its last part in its package. -/
theorem qualify_ofType {name : TypeName} (h : isQualifiedName name.text = true) :
    (ofType name).qualify name.simpleName = name.text := by
  change (if name.package.isEmpty then _ else _) = _
  by_cases hd : '.' ∈ name.text.toList
  · have hp : name.package ≠ "" := fun he => (TypeName.package_eq_empty_iff h).mp he hd
    have he : name.package.isEmpty = false := by simpa [String.isEmpty_iff] using hp
    rw [he, if_neg Bool.false_ne_true]
    exact (name.text_eq_package_simpleName hd).symm
  · rw [TypeName.package_of_dot_notMem hd, TypeName.simpleName_of_dot_notMem hd]
    rfl

theorem qualifiedTopLevel_eq_iff {r r' : ClassRef} :
    r.qualifiedTopLevel = r'.qualifiedTopLevel ↔
      r.package = r'.package ∧ r.topLevel = r'.topLevel :=
  qualify_eq_iff r.dot_notMem_topLevel r'.dot_notMem_topLevel

theorem qualified_of_package_ne {r : ClassRef} (h : r.package ≠ "") :
    r.qualified = r.package ++ "." ++ r.name := by
  have he : r.package.isEmpty = false := by simpa [String.isEmpty_iff] using h
  rw [qualified, qualify, he, if_neg Bool.false_ne_true]

theorem qualified_of_package_eq {r : ClassRef} (h : r.package = "") : r.qualified = r.name := by
  simp [qualified, qualify, h]

/-- The package of a qualified name can be left out. -/
theorem isQualifiedName_name {r : ClassRef} (h : isQualifiedName r.qualified = true) :
    isQualifiedName r.name = true := by
  by_cases hp : r.package = ""
  · rwa [qualified_of_package_eq hp] at h
  · have htext : r.qualified = String.ofList (r.package.toList ++ '.' :: r.name.toList) := by
      rw [qualified_of_package_ne hp, ← String.toList_inj, String.toList_ofList]
      simp
    rw [htext, isQualifiedName_append_dot, String.ofList_toList, String.ofList_toList,
      Bool.and_eq_true] at h
    exact h.2

theorem qualified_eq_name_iff {r : ClassRef} : r.qualified = r.name ↔ r.package = "" := by
  by_cases hp : r.package = ""
  · simp [hp, qualified_of_package_eq]
  · simp only [hp, iff_false]
    intro h
    have hl := congrArg String.length h
    rw [qualified_of_package_ne hp, String.length_append, String.length_append] at hl
    have hdot : ".".length = 1 := rfl
    omega

end ViewWiring.Code.ClassRef
