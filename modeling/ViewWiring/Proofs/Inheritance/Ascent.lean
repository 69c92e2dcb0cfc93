import ViewWiring.Hierarchy

namespace ViewWiring

variable (parent : TypeName → Option TypeName)

/-- The type so many steps above another, if the chain goes that far. -/
def baseAt : Nat → TypeName → Option TypeName
  | 0, type => some type
  | n + 1, type => (parent type).bind (baseAt n)

variable {parent}

theorem baseAt_succ {type next : TypeName} (h : parent type = some next) (n : Nat) :
    baseAt parent (n + 1) type = baseAt parent n next := by
  rw [baseAt, h, Option.bind_some]

variable {target : TypeName}

/-- The target lies so many steps above a type and no fewer. -/
def IsDepth (parent : TypeName → Option TypeName) (target type : TypeName) (n : Nat) : Prop :=
  baseAt parent n type = some target ∧ ∀ k < n, baseAt parent k type ≠ some target

theorem isDepth_zero_iff {type : TypeName} : IsDepth parent target type 0 ↔ type = target := by
  simp [IsDepth, baseAt]

theorem isDepth_succ_iff {type next : TypeName} (h : parent type = some next) {n : Nat} :
    IsDepth parent target type (n + 1) ↔ type ≠ target ∧ IsDepth parent target next n := by
  unfold IsDepth
  rw [baseAt_succ h]
  constructor
  · rintro ⟨hn, hmin⟩
    refine ⟨?_, hn, ?_⟩
    · intro he
      exact hmin 0 n.succ_pos (congrArg some he)
    · intro k hk
      rw [← baseAt_succ h]
      exact hmin (k + 1) (Nat.succ_lt_succ hk)
  · rintro ⟨hne, hn, hmin⟩
    refine ⟨hn, ?_⟩
    intro k hk
    cases k with
    | zero => exact fun he => hne (Option.some.inj he)
    | succ k =>
      rw [baseAt_succ h]
      exact hmin k (Nat.lt_of_succ_lt_succ hk)

theorem isDepth_of_ascendFrom {steps : Nat} {below : List TypeName} {current : TypeName} {depth : Nat}
    (h : ascendFrom parent target steps below current = .reached depth) :
    ∃ n ≤ steps, depth = below.length + n ∧ IsDepth parent target current n := by
  induction steps generalizing below current with
  | zero =>
    unfold ascendFrom at h
    split at h
    · rename_i he
      exact ⟨0, Nat.le_refl 0, (Ascent.reached.inj h).symm, isDepth_zero_iff.mpr he⟩
    · cases h
  | succ steps ih =>
    unfold ascendFrom at h
    split at h
    · rename_i he
      exact ⟨0, Nat.zero_le _, (Ascent.reached.inj h).symm, isDepth_zero_iff.mpr he⟩
    · rename_i hne
      simp only at h
      split at h
      · cases h
      · cases hp : parent current with
        | none => simp [hp] at h
        | some next =>
          rw [hp] at h
          obtain ⟨n, hn, hd, hdepth⟩ := ih h
          rw [List.length_append, List.length_singleton] at hd
          refine ⟨n + 1, Nat.succ_le_succ hn, by omega, ?_⟩
          exact (isDepth_succ_iff hp).mpr ⟨hne, hdepth⟩

/-- A type met before cannot be the one to go on from: the target would lie nearer above it than it
does. -/
theorem ascendFrom_of_isDepth {steps n : Nat} {below : List TypeName} {current : TypeName}
    (h : IsDepth parent target current n) (hn : n ≤ steps)
    (hbelow : ∀ type ∈ below, ∀ k ≤ n, baseAt parent k type ≠ some target) :
    ascendFrom parent target steps below current = .reached (below.length + n) := by
  induction n generalizing steps below current with
  | zero =>
    unfold ascendFrom
    rw [if_pos (isDepth_zero_iff.mp h), Nat.add_zero]
  | succ n ih =>
    obtain ⟨steps, rfl⟩ : ∃ s, steps = s + 1 := ⟨steps - 1, by omega⟩
    have hnew : current ∉ below := fun hm => hbelow current hm (n + 1) (Nat.le_refl _) h.1
    cases hp : parent current with
    | none => simp [IsDepth, baseAt, hp] at h
    | some next =>
      obtain ⟨hne, hnext⟩ := (isDepth_succ_iff hp).mp h
      have hbelow' : ∀ type ∈ below ++ [current], ∀ k ≤ n, baseAt parent k type ≠ some target := by
        intro type hm k hk
        rcases List.mem_append.mp hm with hm | hm
        · exact hbelow type hm k (Nat.le_succ_of_le hk)
        · obtain rfl := List.mem_singleton.mp hm
          exact h.2 k (Nat.lt_succ_of_le hk)
      unfold ascendFrom
      simp only [if_neg hne, if_neg hnew, hp]
      rw [ih hnext (Nat.le_of_succ_le_succ hn) hbelow', List.length_append, List.length_singleton]
      congr 1
      omega

/-- The walk meets the target where it first lies, if that is within the limit, loops or not. -/
theorem ascend_eq_reached_iff {start : TypeName} {maxDepth n : Nat} :
    ascend parent start target maxDepth = .reached n ↔
      n ≤ maxDepth ∧ IsDepth parent target start n := by
  constructor
  · intro h
    obtain ⟨k, hk, hn, hdepth⟩ := isDepth_of_ascendFrom h
    obtain rfl : n = k := by simpa using hn
    exact ⟨hk, hdepth⟩
  · rintro ⟨hn, hdepth⟩
    have hbelow : ∀ type ∈ ([] : List TypeName), ∀ k ≤ n, baseAt parent k type ≠ some target := by
      simp
    rw [ascend, ascendFrom_of_isDepth hdepth hn hbelow, List.length_nil, Nat.zero_add]

theorem Ascent.isReached_iff_exists (a : Ascent) : a.isReached = true ↔ ∃ n, a = reached n := by
  cases a <;> simp [isReached]

theorem ascend_isReached_iff {start : TypeName} {maxDepth : Nat} :
    (ascend parent start target maxDepth).isReached = true ↔
      ∃ n ≤ maxDepth, baseAt parent n start = some target := by
  constructor
  · intro h
    obtain ⟨n, ha⟩ := (Ascent.isReached_iff_exists _).mp h
    obtain ⟨hn, hdepth⟩ := ascend_eq_reached_iff.mp ha
    exact ⟨n, hn, hdepth.1⟩
  · rintro ⟨n, hn, h⟩
    -- the target may lie on the chain more than once; the walk stops at the first of these places
    induction n using Nat.strongRecOn with
    | ind n ih =>
      by_cases hmin : ∃ k < n, baseAt parent k start = some target
      · obtain ⟨k, hk, hk'⟩ := hmin
        exact ih k hk (Nat.le_of_lt (Nat.lt_of_lt_of_le hk hn)) hk'
      · have hdepth : IsDepth parent target start n :=
          ⟨h, fun k hk hk' => hmin ⟨k, hk, hk'⟩⟩
        rw [ascend_eq_reached_iff.mpr ⟨hn, hdepth⟩, Ascent.isReached]

end ViewWiring
