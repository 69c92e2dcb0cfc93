import ViewWiring.Proofs.Inheritance.Ascent

namespace ViewWiring

variable {parent : TypeName → Option TypeName}

theorem baseAt_add (m n : Nat) (type : TypeName) :
    baseAt parent (m + n) type = (baseAt parent m type).bind (baseAt parent n) := by
  induction m generalizing type with
  | zero => rw [Nat.zero_add, baseAt, Option.bind_some]
  | succ m ih =>
    have hs : m + 1 + n = m + n + 1 := by omega
    cases hp : parent type with
    | none => simp [hs, baseAt, hp]
    | some next => rw [hs, baseAt_succ hp, baseAt_succ hp, ih]

theorem baseAt_eq_none_of_le {type : TypeName} {m n : Nat} (h : baseAt parent m type = none)
    (hle : m ≤ n) : baseAt parent n type = none := by
  obtain ⟨k, rfl⟩ := Nat.exists_eq_add_of_le hle
  rw [baseAt_add, h, Option.bind_none]

/-- A chain that ends never comes back to the type it starts from. -/
theorem baseAt_ne_self {type : TypeName} {n : Nat} (hend : baseAt parent n type = none) (k : Nat) :
    baseAt parent (k + 1) type ≠ some type := by
  intro hloop
  -- each turn of the loop would end the chain that much earlier
  induction n using Nat.strongRecOn with
  | ind n ih =>
    by_cases hle : n ≤ k + 1
    · rw [baseAt_eq_none_of_le hend hle] at hloop
      cases hloop
    · obtain ⟨n', rfl⟩ : ∃ n', n = (k + 1) + n' := ⟨n - (k + 1), by omega⟩
      have hshort : baseAt parent n' type = none := by
        rw [baseAt_add, hloop, Option.bind_some] at hend
        exact hend
      exact ih n' (by omega) hshort

theorem ancestorsFrom_of_new {seen : List TypeName} {current next : TypeName}
    (hp : parent current = some next) (hnew : next ∉ seen) (steps : Nat) :
    ancestorsFrom parent (steps + 1) seen current =
      next :: ancestorsFrom parent steps (next :: seen) next := by
  rw [ancestorsFrom, hp]
  exact if_neg hnew

theorem ancestorsFrom_of_known {seen : List TypeName} {current : TypeName}
    (h : ∀ next, parent current = some next → next ∈ seen) (steps : Nat) :
    ancestorsFrom parent steps seen current = [] := by
  cases steps with
  | zero => rfl
  | succ steps =>
    cases hp : parent current with
    | none => simp [ancestorsFrom, hp]
    | some next => simp [ancestorsFrom, hp, h next hp]

theorem known_or_new (parent : TypeName → Option TypeName) (seen : List TypeName)
    (current : TypeName) :
    (∀ next, parent current = some next → next ∈ seen) ∨
      ∃ next, parent current = some next ∧ next ∉ seen := by
  by_cases h : ∃ next, parent current = some next ∧ next ∉ seen
  · exact .inr h
  · refine .inl ?_
    intro next hp
    exact Decidable.byContradiction fun hnew => h ⟨next, hp, hnew⟩

theorem notMem_seen_of_mem_ancestorsFrom {steps : Nat} {seen : List TypeName}
    {current type : TypeName} (h : type ∈ ancestorsFrom parent steps seen current) :
    type ∉ seen := by
  induction steps generalizing seen current with
  | zero => simp [ancestorsFrom] at h
  | succ steps ih =>
    obtain hknown | ⟨next, hp, hnew⟩ := known_or_new parent seen current
    · simp [ancestorsFrom_of_known hknown] at h
    · rw [ancestorsFrom_of_new hp hnew] at h
      obtain rfl | h := List.mem_cons.mp h
      · exact hnew
      · exact fun hm => ih h (List.mem_cons_of_mem next hm)

/-- No type is above itself, even if its chain comes back to it. -/
theorem notMem_ancestors (start : TypeName) (maxDepth : Nat) :
    start ∉ ancestors parent start maxDepth :=
  fun h => notMem_seen_of_mem_ancestorsFrom h (List.mem_singleton_self start)

/-- The types above the end of a chain are all of them, whatever was seen below it and however many
more steps are allowed. -/
theorem ancestorsFrom_congr {n steps steps' : Nat} {seen seen' : List TypeName} {current : TypeName}
    (hend : baseAt parent (n + 1) current = none) (hn : n ≤ steps) (hn' : n ≤ steps')
    (hseen : ∀ k type, baseAt parent (k + 1) current = some type → type ∉ seen ∧ type ∉ seen') :
    ancestorsFrom parent steps seen current = ancestorsFrom parent steps' seen' current := by
  induction n generalizing steps steps' seen seen' current with
  | zero =>
    have hp : parent current = none := by simpa [baseAt] using hend
    cases steps <;> cases steps' <;> simp [ancestorsFrom, hp]
  | succ n ih =>
    obtain ⟨steps, rfl⟩ : ∃ s, steps = s + 1 := ⟨steps - 1, by omega⟩
    obtain ⟨steps', rfl⟩ : ∃ s, steps' = s + 1 := ⟨steps' - 1, by omega⟩
    cases hp : parent current with
    | none => simp [ancestorsFrom, hp]
    | some next =>
      rw [baseAt_succ hp] at hend
      obtain ⟨hnew, hnew'⟩ := hseen 0 next (by simp [baseAt, hp])
      have hrest : ∀ k type, baseAt parent (k + 1) next = some type →
          type ∉ next :: seen ∧ type ∉ next :: seen' := by
        intro k type hk
        have hne : type ≠ next := by
          rintro rfl
          exact baseAt_ne_self hend k hk
        have habove := hseen (k + 1) type (by rw [baseAt_succ hp, hk])
        simpa [hne] using habove
      rw [ancestorsFrom_of_new hp hnew, ancestorsFrom_of_new hp hnew',
        ih hend (Nat.le_of_succ_le_succ hn) (Nat.le_of_succ_le_succ hn') hrest]

/-- Above a type whose chain ends within the limit lie its parent and all that lie above that. -/
theorem ancestors_eq_cons {start base : TypeName} {maxDepth n : Nat}
    (hp : parent start = some base) (hend : baseAt parent (n + 1) start = none)
    (hn : n ≤ maxDepth) : ancestors parent start maxDepth = base :: ancestors parent base maxDepth := by
  have hbase : baseAt parent n base = none := by rwa [baseAt_succ hp] at hend
  obtain ⟨n, rfl⟩ : ∃ m, n = m + 1 := by
    cases n with
    | zero => simp [baseAt] at hbase
    | succ m => exact ⟨m, rfl⟩
  obtain ⟨depth, rfl⟩ : ∃ d, maxDepth = d + 1 := ⟨maxDepth - 1, by omega⟩
  have hne : base ≠ start := by
    rintro rfl
    exact baseAt_ne_self hend 0 (by simp [baseAt, hp])
  have hseen : ∀ k type, baseAt parent (k + 1) base = some type →
      type ∉ [base, start] ∧ type ∉ [base] := by
    intro k type hk
    have hbase' : type ≠ base := by
      rintro rfl
      exact baseAt_ne_self hbase k hk
    have hstart : type ≠ start := by
      rintro rfl
      exact baseAt_ne_self hend (k + 1) (by rw [baseAt_succ hp, hk])
    simp [hbase', hstart]
  have hrest := ancestorsFrom_congr hbase (by omega : n ≤ depth) (by omega : n ≤ depth + 1) hseen
  have hnew : base ∉ [start] := by simpa using hne
  rw [ancestors, ancestorsFrom_of_new hp hnew, hrest, ancestors]

end ViewWiring
