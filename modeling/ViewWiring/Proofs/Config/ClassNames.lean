import ViewWiring.Artifact.Store
import ViewWiring.Batch
import ViewWiring.Manifest
import ViewWiring.Proofs.Config.Legal
import Mathlib.Data.List.Basic

namespace ViewWiring

/-- The identifiers that a suffix turns into reserved words. -/
def reservedStems (suffix : String) : List String :=
  (reservedWords.filterMap fun word =>
    (word.toList.dropSuffix? suffix.toList).map String.ofList).filter isIdentifier

theorem mem_reservedStems {stem suffix : String} :
    stem ∈ reservedStems suffix ↔
      isIdentifier stem = true ∧ stem ++ suffix ∈ reservedWords := by
  have hdrop : ∀ word : String, (word.toList.dropSuffix? suffix.toList).map String.ofList =
      some stem ↔ word = stem ++ suffix := by
    intro word
    rw [Option.map_eq_some_iff, ← String.toList_inj, String.toList_append]
    constructor
    · rintro ⟨front, hfront, rfl⟩
      obtain ⟨back, hword, hback⟩ := List.dropSuffix?_eq_some_iff.mp hfront
      rw [hword, eq_of_beq hback, String.toList_ofList]
    · intro hword
      refine ⟨stem.toList, ?_, String.ofList_toList⟩
      exact List.dropSuffix?_eq_some_iff.mpr ⟨suffix.toList, hword, beq_self_eq_true _⟩
  rw [reservedStems, List.mem_filter, List.mem_filterMap, and_comm]
  simp only [hdrop, exists_eq_right]

example : reservedStems "_" = [] := by decide +kernel

namespace Config

variable {config : Config}

theorem Legal.isWord_className (h : config.Legal) {b : ComponentBinding}
    (hb : isQualifiedName b.component.text = true) : IsWord (b.className config) := by
  have hsimple := isIdentifier_iff.mp (TypeName.isIdentifier_simpleName hb)
  exact hsimple.1.append (isLegalSuffix_parts h.suffix).2

/-- Under an accepted suffix a class name is always spelt like an identifier, so it is one unless it
is reserved; and all class names are identifiers iff the suffix ends no reserved word that begins
with an identifier. -/
theorem className_isIdentifier_iff (hc : config.check = .ok config) :
    (∀ b : ComponentBinding, isQualifiedName b.component.text = true →
      (isIdentifier (b.className config) = true ↔ b.className config ∉ reservedWords)) ∧
    ((∀ b : ComponentBinding, isQualifiedName b.component.text = true →
        isIdentifier (b.className config) = true) ↔
      reservedStems config.suffix = []) := by
  have hlegal := ((config.check_eq_ok_iff config).mp hc).1
  have hone : ∀ b : ComponentBinding, isQualifiedName b.component.text = true →
      (isIdentifier (b.className config) = true ↔ b.className config ∉ reservedWords) := by
    intro b hb
    simp [isIdentifier_iff, hlegal.isWord_className hb]
  refine ⟨hone, ?_⟩
  rw [List.eq_nil_iff_forall_not_mem]
  constructor
  · intro hall stem hstem
    obtain ⟨hid, hreserved⟩ := mem_reservedStems.mp hstem
    -- a component in the unnamed package may be called like any identifier
    let b : ComponentBinding := ⟨⟨stem⟩, "", stem, none, [], [], []⟩
    have hdot : '.' ∉ b.component.text.toList := (isIdentifier_iff.mp hid).1.notMem (by decide)
    have hname : b.className config = stem ++ config.suffix := by
      rw [ComponentBinding.className, ComponentBinding.simpleName,
        TypeName.simpleName_of_dot_notMem hdot]
    have hb : isQualifiedName b.component.text = true := by
      rw [isQualifiedName_of_dot_notMem hdot]
      exact hid
    rw [← hname] at hreserved
    exact (hone b hb).mp (hall b hb) hreserved
  · intro hnone b hb
    rw [hone b hb]
    intro hreserved
    exact hnone b.simpleName
      (mem_reservedStems.mpr ⟨TypeName.isIdentifier_simpleName hb, hreserved⟩)

theorem className_isIdentifier_main :
    let b : ComponentBinding := ⟨⟨"com.example.Main"⟩, "com.example", "Main", none, [], [], []⟩
    Config.standard.check = .ok .standard ∧ isQualifiedName b.component.text = true ∧
      isIdentifier (b.className .standard) = true := by
  intro b
  have hc : Config.standard.check = .ok .standard := by decide +kernel
  have hb : isQualifiedName b.component.text = true := by decide +kernel
  refine ⟨hc, hb, (className_isIdentifier_iff hc).2.mpr ?_ b hb⟩
  decide +kernel

/-- The suffix `t` is accepted and makes the class for `a.in` one called `int`, with a clean
report. -/
theorem suffix_makes_int :
    let config := { standard with suffix := "t" }
    let manifest : Manifest :=
      ⟨[⟨"a.in", .«class», none, some "android.app.Activity", some 1, []⟩], []⟩
    config.check = .ok config ∧
    (∃ d, manifest.declarations = .ok d ∧
      let run := (d.toSource.process config Store.writer).run .empty
      run.1.isClean = true ∧ run.2.artifacts.map Artifact.className = ["int"]) ∧
    isIdentifier "int" = false ∧
    ¬∀ b : ComponentBinding, isQualifiedName b.component.text = true →
      isIdentifier (b.className config) = true := by
  intro config manifest
  refine ⟨by decide +kernel, ?_, by decide +kernel, ?_⟩
  · exact ⟨⟨[⟨⟨"a.in"⟩, "a", .«class», some ⟨"android.app.Activity"⟩, some 1, []⟩], [], []⟩,
      by decide +kernel, by decide +kernel, by decide +kernel⟩
  · intro hall
    let b : ComponentBinding := ⟨⟨"a.in"⟩, "a", "in", some 1, [], [], []⟩
    have hname : isIdentifier (b.className config) = false := by decide +kernel
    rw [hall b (by decide +kernel)] at hname
    cases hname

end Config

end ViewWiring
