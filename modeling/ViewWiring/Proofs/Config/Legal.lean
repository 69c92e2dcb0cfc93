import ViewWiring.Config
import ViewWiring.Proofs.Names.Identifiers

namespace ViewWiring

namespace Config

/-- What a configuration that is let through promises. -/
structure Legal (config : Config) : Prop where
  suffix : isLegalSuffix config.suffix = true
  indent : isLegalIndent config.indent = true
  activity : isQualifiedName config.platform.activity.text = true
  view : isQualifiedName config.platform.view.text = true
  bundle : isQualifiedName config.platform.bundle.text = true

theorem firstError_eq_none_iff (config : Config) : config.firstError = none ↔ config.Legal := by
  unfold firstError
  constructor
  · intro h
    split at h
    · simp at h
    · rename_i hs
      split at h
      · simp at h
      · rename_i hi
        simp only [List.findSome?_eq_none_iff, List.mem_cons, List.not_mem_nil, or_false,
          forall_eq_or_imp, forall_eq, ite_eq_left_iff, reduceCtorEq, imp_false,
          Bool.not_eq_true, Bool.not_eq_false] at h
        exact ⟨by simpa using hs, by simpa using hi, h.1, h.2.1, h.2.2⟩
  · intro h
    simp [h.suffix, h.indent, h.activity, h.view, h.bundle]

theorem check_eq_ok_iff (config checked : Config) :
    config.check = .ok checked ↔ config.Legal ∧ checked = config := by
  rw [← firstError_eq_none_iff, check]
  cases config.firstError with
  | none => simp [eq_comm]
  | some e => simp

/-- A suffix is not empty and spelt like the rest of an identifier. -/
theorem isLegalSuffix_parts {suffix : String} (h : isLegalSuffix suffix = true) :
    suffix ≠ "" ∧ ∀ c ∈ suffix.toList, isIdentifierPart c = true := by
  rw [isLegalSuffix, Bool.and_eq_true, Bool.not_eq_true', isIdentifier_iff] at h
  refine ⟨?_, ?_⟩
  · intro he
    have hempty := h.1
    rw [he] at hempty
    cases hempty
  · intro c hc
    apply h.2.1.isIdentifierPart_of_mem
    rw [String.toList_append]
    exact List.mem_append_right _ hc

theorem Legal.append_suffix_ne {config : Config} (h : config.Legal) (name : String) :
    name ++ config.suffix ≠ name :=
  fun he => (isLegalSuffix_parts h.suffix).1 (String.append_eq_left_iff.mp he)

theorem Legal.dot_notMem_suffix {config : Config} (h : config.Legal) :
    '.' ∉ config.suffix.toList := by
  intro hm
  have hp := (isLegalSuffix_parts h.suffix).2 '.' hm
  revert hp
  decide

end Config

end ViewWiring
