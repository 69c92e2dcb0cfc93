import ViewWiring.Proofs.Validation.Outcome
import ViewWiring.Proofs.Validation.Rules

namespace ViewWiring

/-- The configuration with one or the other signature policy. -/
def Config.under (config : Config) (policy : SignaturePolicy) : Config :=
  { config with signatures := policy }

namespace Source

variable (source : Source) (config : Config) (c : Component)

/-- What is validated and what is reported of it is the same under both policies; only the members
that are kept may differ. -/
theorem validate_under_cases (policy policy' : SignaturePolicy) :
    (∃ ds, source.validate (config.under policy) c = ⟨none, ds⟩ ∧
      source.validate (config.under policy') c = ⟨none, ds⟩) ∨
    ∃ members members' ds, source.validate (config.under policy) c = ⟨some ⟨c, members⟩, ds⟩ ∧
      source.validate (config.under policy') c = ⟨some ⟨c, members'⟩, ds⟩ := by
  have hfault : source.componentFault (config.under policy') c =
      source.componentFault (config.under policy) c := rfl
  obtain ⟨fault, hf, hv⟩ | ⟨hf, hv⟩ := source.validate_cases (config.under policy) c
  · obtain ⟨fault', hf', hv'⟩ | ⟨hf', -⟩ := source.validate_cases (config.under policy') c
    · obtain rfl : fault = fault' := by simpa [hfault, hf] using hf'
      exact .inl ⟨_, hv, hv'⟩
    · simp [hfault, hf] at hf'
  · obtain ⟨fault', hf', -⟩ | ⟨-, hv'⟩ := source.validate_cases (config.under policy') c
    · simp [hfault, hf] at hf'
    · exact .inr ⟨_, _, _, hv, hv'⟩

/-- A method that is called although something was reported of it, if it is called at all. -/
def isFaultyCall (m : Member) : Bool :=
  m.isCalled && !(source.memberDiagnostics config c m).isEmpty

theorem keepsMember_strict (m : Member) :
    source.keepsMember (config.under .strict) m =
      (!source.isFaultyCall config c m && source.keepsMember (config.under .permissive) m) := by
  have hfaults : ∀ policy, source.memberFaults (config.under policy) m =
      source.memberFaults config m := fun _ => rfl
  have hreported : (source.memberDiagnostics config c m).isEmpty = true ↔
      source.memberFaults config m = [] := by
    rw [List.isEmpty_iff, memberDiagnostics, List.map_eq_nil_iff]
  rw [Bool.eq_iff_iff, Bool.and_eq_true, keepsMember_iff, keepsMember_iff, hfaults, hfaults,
    isFaultyCall, ← hreported]
  cases (source.memberDiagnostics config c m).isEmpty <;> cases m.isCalled <;> simp [Config.under]

theorem keepsMember_of_isFaultyCall {m : Member} (h : source.isFaultyCall config c m = true) :
    source.keepsMember (config.under .permissive) m = true := by
  rw [isFaultyCall, Bool.and_eq_true] at h
  exact keepsMember_iff.mpr (.inr ⟨rfl, h.1⟩)

/-- Of any members, the strict policy keeps those that the permissive one keeps, but for the faulty
calls, and the permissive one keeps all of these. -/
theorem filter_keepsMember_under (members : List Member) :
    let strict := members.filter (source.keepsMember (config.under .strict))
    let permissive := members.filter (source.keepsMember (config.under .permissive))
    strict = permissive.filter (fun m => !source.isFaultyCall config c m) ∧
      permissive.filter (source.isFaultyCall config c) =
        members.filter (source.isFaultyCall config c) := by
  intro strict permissive
  constructor
  · rw [List.filter_filter]
    apply List.filter_congr
    intro m _
    exact source.keepsMember_strict config c m
  · rw [List.filter_filter]
    apply List.filter_congr
    intro m _
    cases hm : source.isFaultyCall config c m with
    | false => rfl
    | true => rw [Bool.true_and, source.keepsMember_of_isFaultyCall config c hm]

end Source

end ViewWiring
