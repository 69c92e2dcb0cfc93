import ViewWiring.Proofs.Validation.Faults

namespace ViewWiring

/-- The component that a diagnostic is about as a whole, and not one of its members. -/
def Diagnostic.wholeComponent? (d : Diagnostic) : Option TypeName :=
  match d.anchor with
  | some ⟨component, none⟩ => some component
  | _ => none

namespace Source

variable (source : Source) (config : Config) (c : Component)

/-- All that validation can do: reject a component for one fault, or pass it on with the members
it keeps, whatever it has to say of the others. -/
theorem validate_cases :
    (∃ fault, source.componentFault config c = some fault ∧
      source.validate config c = ⟨none, [fault.diagnostic c]⟩) ∨
    (source.componentFault config c = none ∧
      source.validate config c =
        ⟨some ⟨c, (source.members config c).filter (source.keepsMember config)⟩,
          (source.members config c).flatMap (source.memberDiagnostics config c)⟩) := by
  rw [validate_eq]
  cases h : source.componentFault config c with
  | some fault => exact .inl ⟨fault, rfl, rfl⟩
  | none => exact .inr ⟨rfl, rfl⟩

theorem component_of_validate {v : Validated} (h : (source.validate config c).value = some v) :
    v.component = c := by
  obtain ⟨fault, -, hv⟩ | ⟨-, hv⟩ := source.validate_cases config c
  · simp [hv] at h
  · rw [hv, Option.some.injEq] at h
    rw [← h]

theorem members_of_validate {v : Validated} (h : (source.validate config c).value = some v) :
    v.members = (source.members config c).filter (source.keepsMember config) := by
  obtain ⟨fault, -, hv⟩ | ⟨-, hv⟩ := source.validate_cases config c
  · simp [hv] at h
  · rw [hv, Option.some.injEq] at h
    rw [← h]

/-- A rejected component has its one diagnostic at itself; those of an accepted one are all at its
members. -/
theorem wholeComponent_validate :
    (source.validate config c).diagnostics.filterMap Diagnostic.wholeComponent? =
      if (source.validate config c).value.isSome then [] else [c.name] := by
  obtain ⟨fault, -, hv⟩ | ⟨-, hv⟩ := source.validate_cases config c
  · rw [hv]
    cases fault <;> rfl
  · rw [hv]
    simp only [Option.isSome_some, if_true, List.filterMap_eq_nil_iff, List.mem_flatMap,
      memberDiagnostics, List.mem_map]
    rintro d ⟨m, -, fault, -, rfl⟩
    rw [Diagnostic.wholeComponent?, Member.Fault.anchor_diagnostic]
    rfl

end Source

end ViewWiring
