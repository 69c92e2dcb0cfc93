import ViewWiring.Identifier
import ViewWiring.TypeName
import ViewWiring.Proofs.Text.PrefixCodes
import Mathlib.Data.List.Basic

namespace ViewWiring

/-- The spelling of an identifier, which the reserved words have as well. -/
def IsWord (name : String) : Prop :=
  ∃ c cs, name.toList = c :: cs ∧ isIdentifierStart c = true ∧ ∀ d ∈ cs, isIdentifierPart d = true

namespace IsWord

variable {name : String}

theorem isIdentifierPart_of_mem (h : IsWord name) {c : Char} (hc : c ∈ name.toList) :
    isIdentifierPart c = true := by
  obtain ⟨first, rest, hname, hfirst, hrest⟩ := h
  rw [hname] at hc
  rcases List.mem_cons.mp hc with rfl | hc
  · rw [isIdentifierPart, hfirst, Bool.true_or]
  · exact hrest c hc

theorem notMem (h : IsWord name) {c : Char} (hc : isIdentifierPart c = false) :
    c ∉ name.toList := by
  intro hm
  have hp := h.isIdentifierPart_of_mem hm
  rw [hc] at hp
  cases hp

/-- A word stays one with more letters, digits, underscores and dollar signs behind it. -/
theorem append (h : IsWord name) {more : String}
    (hmore : ∀ c ∈ more.toList, isIdentifierPart c = true) : IsWord (name ++ more) := by
  obtain ⟨first, rest, hname, hfirst, hrest⟩ := h
  refine ⟨first, rest ++ more.toList, ?_, hfirst, ?_⟩
  · rw [String.toList_append, hname, List.cons_append]
  · intro c hc
    rcases List.mem_append.mp hc with hc | hc
    · exact hrest c hc
    · exact hmore c hc

theorem ne_empty (h : IsWord name) : name ≠ "" := by
  obtain ⟨first, rest, hname, -, -⟩ := h
  intro he
  rw [he] at hname
  cases hname

end IsWord

theorem isIdentifier_iff {name : String} :
    isIdentifier name = true ↔ IsWord name ∧ name ∉ reservedWords := by
  cases hname : name.toList with
  | nil => simp [isIdentifier, IsWord, hname]
  | cons c cs => simp [isIdentifier, IsWord, hname, and_assoc]

theorem isQualifiedName_empty : isQualifiedName "" = false := by decide +kernel

theorem isQualifiedName_of_dot_notMem {name : String} (h : '.' ∉ name.toList) :
    isQualifiedName name = isIdentifier name := by
  simp [isQualifiedName, List.splitOn_eq_singleton h]

theorem isQualifiedName_append_dot (before after : List Char) :
    isQualifiedName (String.ofList (before ++ '.' :: after)) =
      (isQualifiedName (String.ofList before) && isQualifiedName (String.ofList after)) := by
  simp [isQualifiedName, List.splitOn_append_cons_self]

theorem ne_reserved_of_isIdentifier {name word : String} (h : isIdentifier name = true)
    (hword : word ∈ reservedWords) : name ≠ word :=
  fun he => (isIdentifier_iff.mp h).2 (he ▸ hword)

theorem ne_reserved_of_isQualifiedName {name word : String} (h : isQualifiedName name = true)
    (hword : word ∈ reservedWords) : name ≠ word := by
  have hreserved : ∀ w ∈ reservedWords, isQualifiedName w = false := by decide +kernel
  rintro rfl
  rw [hreserved name hword] at h
  cases h

/-- A qualified name begins like an identifier and goes on with what identifiers and dots hold. -/
theorem exists_of_isQualifiedName {name : String} (h : isQualifiedName name = true) :
    ∃ c cs, name.toList = c :: cs ∧ isIdentifierStart c = true ∧
      ∀ d ∈ cs, isIdentifierPart d = true ∨ d = '.' := by
  have hparts : ∀ part ∈ name.toList.splitOn '.', IsWord (String.ofList part) := fun part hpart =>
    (isIdentifier_iff.mp (List.all_eq_true.mp h part hpart)).1
  have hjoin : ['.'].intercalate (name.toList.splitOn '.') = name.toList :=
    List.intercalate_splitOn _
  cases hsplit : name.toList.splitOn '.' with
  | nil => exact absurd hsplit (List.splitOn_ne_nil _ _)
  | cons first rest =>
    rw [hsplit] at hparts hjoin
    obtain ⟨⟨c, cs, hfirst, hc, hcs⟩, hrest⟩ := List.forall_mem_cons.mp hparts
    rw [String.toList_ofList] at hfirst
    rw [intercalate_singleton_cons, hfirst, List.cons_append] at hjoin
    refine ⟨c, _, hjoin.symm, hc, ?_⟩
    rw [List.forall_mem_append]
    refine ⟨fun d hd => .inl (hcs d hd), ?_⟩
    intro d hd
    obtain ⟨part, hpart, hdpart⟩ := List.mem_flatMap.mp hd
    rcases List.mem_cons.mp hdpart with rfl | hdpart
    · exact .inr rfl
    · exact .inl ((hrest part hpart).isIdentifierPart_of_mem (by simpa using hdpart))

namespace TypeName

variable {name : TypeName}

/-- Both parts of a qualified name with a dot are names again: its package and its last part. -/
theorem isQualifiedName_iff_of_dot_mem (hd : '.' ∈ name.text.toList) :
    isQualifiedName name.text = true ↔
      isQualifiedName name.package = true ∧ isIdentifier name.simpleName = true := by
  have ht : name.text = String.ofList (name.package.toList ++ '.' :: name.simpleName.toList) := by
    rw [← String.toList_inj, String.toList_ofList, name.text_eq_package_simpleName hd]
    simp
  rw [ht, isQualifiedName_append_dot, String.ofList_toList, String.ofList_toList, Bool.and_eq_true,
    isQualifiedName_of_dot_notMem name.dot_notMem_simpleName]

theorem simpleName_of_dot_notMem (hd : '.' ∉ name.text.toList) : name.simpleName = name.text := by
  simp [simpleName, splitAtLastDot_eq_none_iff.mpr hd]

theorem package_of_dot_notMem (hd : '.' ∉ name.text.toList) : name.package = "" := by
  simp [package, splitAtLastDot_eq_none_iff.mpr hd]

theorem isIdentifier_simpleName (h : isQualifiedName name.text = true) :
    isIdentifier name.simpleName = true := by
  by_cases hd : '.' ∈ name.text.toList
  · exact ((isQualifiedName_iff_of_dot_mem hd).mp h).2
  · rw [simpleName_of_dot_notMem hd, ← isQualifiedName_of_dot_notMem hd]
    exact h

/-- Only a name without a dot lies in the unnamed package. -/
theorem package_eq_empty_iff (h : isQualifiedName name.text = true) :
    name.package = "" ↔ '.' ∉ name.text.toList := by
  constructor
  · intro hp hd
    have hq := ((isQualifiedName_iff_of_dot_mem hd).mp h).1
    rw [hp, isQualifiedName_empty] at hq
    cases hq
  · exact package_of_dot_notMem

end TypeName

end ViewWiring
