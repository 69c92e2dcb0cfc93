import ViewWiring.Proofs.Batch.Reporting
import ViewWiring.Proofs.Validation.Outcome
import Mathlib.Data.List.Nodup

namespace ViewWiring.Source

/-- The components whose names are met for the first time, given the names met so far. -/
def firstMet : List TypeName → List Component → List Component
  | _, [] => []
  | seen, c :: cs => if c.name ∈ seen then firstMet seen cs else c :: firstMet (c.name :: seen) cs

theorem firstMet_names (seen : List TypeName) (cs : List Component) :
    (firstMet seen cs).map Component.name =
      ((cs.map Component.name).filter fun n => decide (n ∉ seen)).eraseDups := by
  induction cs generalizing seen with
  | nil => rfl
  | cons c cs ih =>
    rw [firstMet]
    split
    · rename_i h
      rw [ih seen, List.map_cons, List.filter_cons_of_neg (by simpa using h)]
    · rename_i h
      rw [List.map_cons, ih (c.name :: seen), List.map_cons,
        List.filter_cons_of_pos (by simpa using h), List.eraseDups_cons, List.filter_filter]
      have hp : ∀ n, decide (n ∉ c.name :: seen) = (!n == c.name && decide (n ∉ seen)) := by
        intro n
        by_cases hn : n = c.name <;> simp [hn]
      simp only [hp]

/-- No name is met first twice, nor after it was seen. -/
theorem firstMet_nodup (seen : List TypeName) (cs : List Component) :
    ((firstMet seen cs).map Component.name).Nodup ∧
      ∀ c ∈ firstMet seen cs, c.name ∉ seen := by
  induction cs generalizing seen with
  | nil => simp [firstMet]
  | cons c cs ih =>
    rw [firstMet]
    split
    · exact ih seen
    · rename_i h
      obtain ⟨hn, hs⟩ := ih (c.name :: seen)
      constructor
      · rw [List.map_cons, List.nodup_cons]
        refine ⟨?_, hn⟩
        intro hm
        obtain ⟨c', hc', he⟩ := List.mem_map.mp hm
        exact hs c' hc' (by simp [he])
      · intro c' hc'
        rcases List.mem_cons.mp hc' with rfl | hc'
        · exact h
        · exact fun hm => hs c' hc' (List.mem_cons_of_mem _ hm)

theorem firstMet_sublist (seen : List TypeName) (cs : List Component) :
    (firstMet seen cs).Sublist cs := by
  induction cs generalizing seen with
  | nil => exact .slnil
  | cons c cs ih =>
    rw [firstMet]
    split
    · exact (ih seen).cons c
    · exact (ih (c.name :: seen)).cons_cons c

variable (source : Source) (config : Config)

/-- Each component that passes is the first of its name and passes for what it is itself. -/
theorem intakeOf_validated (seen : List TypeName) (cs : List Component) :
    (source.intakeOf config seen cs).validated =
      (firstMet seen cs).filterMap fun c => (source.validate config c).value := by
  induction cs generalizing seen with
  | nil => rfl
  | cons c cs ih =>
    rw [intakeOf, firstMet]
    split
    · exact ih seen
    · rw [List.filterMap_cons]
      split
      all_goals
        rename_i hv
        simp [hv, ih]

theorem validated_intake :
    (source.intake config).validated =
      (firstMet [] source.components).filterMap fun c => (source.validate config c).value := by
  rw [intake_eq, intakeOf_validated]

theorem filterMap_validate_names (cs : List Component) :
    ((cs.filterMap fun c => (source.validate config c).value).map fun v => v.component.name).Sublist
      (cs.map Component.name) := by
  induction cs with
  | nil => exact .slnil
  | cons c cs ih =>
    rw [List.filterMap_cons]
    cases hv : (source.validate config c).value with
    | none => exact ih.cons c.name
    | some v =>
      rw [List.map_cons, List.map_cons, source.component_of_validate config c hv]
      exact ih.cons_cons c.name

/-- Components pass in the order in which their names are first met. -/
theorem intake_names_sublist :
    ((source.intake config).validated.map fun v => v.component.name).Sublist
      ((firstMet [] source.components).map Component.name) := by
  rw [validated_intake]
  exact source.filterMap_validate_names config _

theorem intake_names_nodup :
    ((source.intake config).validated.map fun v => v.component.name).Nodup :=
  (source.intake_names_sublist config).nodup (firstMet_nodup [] source.components).1

end ViewWiring.Source
