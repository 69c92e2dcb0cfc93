import ViewWiring.Proofs.Inheritance.Ancestors
import Mathlib.Data.List.Nodup
import Mathlib.Data.Option.Basic

namespace ViewWiring

variable {parent : TypeName → Option TypeName} {start target : TypeName}

/-- The chain above `start` goes `n` steps up and no further. -/
def EndsAt (parent : TypeName → Option TypeName) (start : TypeName) (n : Nat) : Prop :=
  baseAt parent n start ≠ none ∧ baseAt parent (n + 1) start = none

/-- The type `n` steps above `start` is one that was met before. -/
def Revisits (parent : TypeName → Option TypeName) (start : TypeName) (n : Nat) : Prop :=
  ∃ i < n, baseAt parent i start = baseAt parent n start ∧ baseAt parent n start ≠ none

/-- What each outcome of a walk of at most `maxDepth` steps says of the chain above `start`. -/
def Ascent.Describes (parent : TypeName → Option TypeName) (start target : TypeName)
    (maxDepth : Nat) : Ascent → Prop
  | reached n => n ≤ maxDepth ∧ IsDepth parent target start n
  | exhausted chain => ∃ n < maxDepth, EndsAt parent start n ∧
      (∀ k, baseAt parent k start ≠ some target) ∧
      chain.map some = (List.range (n + 1)).map fun k => baseAt parent k start
  | cycle name => ∃ n < maxDepth, Revisits parent start n ∧ (∀ k < n, ¬Revisits parent start k) ∧
      (∀ k ≤ n, baseAt parent k start ≠ some target) ∧ baseAt parent n start = some name
  | tooDeep limit => limit = maxDepth ∧
      (∀ k ≤ maxDepth, baseAt parent k start ≠ none ∧ baseAt parent k start ≠ some target) ∧
      ∀ j < maxDepth, ∀ i < j, baseAt parent i start ≠ baseAt parent j start

theorem baseAt_succ' (n : Nat) :
    baseAt parent (n + 1) start = (baseAt parent n start).bind parent := by
  have hone : baseAt parent 1 = parent := by
    funext type
    cases h : parent type <;> simp [baseAt, h]
  rw [baseAt_add, hone]

theorem baseAt_ne_none_of_le {m n : Nat} (h : baseAt parent n start ≠ none) (hle : m ≤ n) :
    baseAt parent m start ≠ none :=
  fun hm => h (baseAt_eq_none_of_le hm hle)

/-- Where the chain ends, it never came back to a type. -/
theorem not_revisits_of_endsAt {n : Nat} (hend : EndsAt parent start n) (k : Nat) :
    ¬Revisits parent start k := by
  rintro ⟨i, hi, he, hk⟩
  cases hb : baseAt parent i start with
  | none => exact hk (he ▸ hb)
  | some type =>
    have hstop : baseAt parent (n + 1) type = none := by
      have hlate := baseAt_eq_none_of_le hend.2 (show n + 1 ≤ i + (n + 1) by omega)
      rwa [baseAt_add, hb, Option.bind_some] at hlate
    obtain ⟨m, rfl⟩ : ∃ m, k = i + (m + 1) := ⟨k - i - 1, by omega⟩
    have hloop : baseAt parent (m + 1) type = some type := by
      rw [baseAt_add, hb, Option.bind_some] at he
      exact he.symm
    exact baseAt_ne_self hstop m hloop

/-- A walk at `current`, above the types in `below`: these are the types from `start` on, none of
them met twice and none the target. -/
structure Climbs (parent : TypeName → Option TypeName) (start target : TypeName)
    (below : List TypeName) (current : TypeName) : Prop where
  below_eq : ∀ k < below.length, baseAt parent k start = below[k]?
  current_eq : baseAt parent below.length start = some current
  nodup : below.Nodup
  misses : target ∉ below

namespace Climbs

variable {below : List TypeName} {current : TypeName}

theorem initial : Climbs parent start target [] start where
  below_eq := by simp
  current_eq := rfl
  nodup := List.nodup_nil
  misses := by simp

/-- One step further up. -/
theorem step (h : Climbs parent start target below current) (hmiss : current ≠ target)
    (hnew : current ∉ below) {next : TypeName} (hp : parent current = some next) :
    Climbs parent start target (below ++ [current]) next where
  below_eq := by
    intro k hk
    rw [List.length_append, List.length_singleton] at hk
    by_cases hlt : k < below.length
    · rw [h.below_eq k hlt, List.getElem?_append_left hlt]
    · obtain rfl : k = below.length := by omega
      rw [h.current_eq, List.getElem?_concat_length]
  current_eq := by
    rw [List.length_append, List.length_singleton, baseAt_succ', h.current_eq, Option.bind_some, hp]
  nodup := by
    have hd : ∀ type ∈ below, type ≠ current := fun type hm he => hnew (he ▸ hm)
    simpa [List.nodup_append] using ⟨h.nodup, hd⟩
  misses := by
    simpa [not_or] using ⟨h.misses, hmiss.symm⟩

theorem misses_of_lt (h : Climbs parent start target below current) {k : Nat}
    (hk : k < below.length) : baseAt parent k start ≠ some target := by
  intro he
  rw [h.below_eq k hk] at he
  exact h.misses (List.mem_of_getElem? he)

theorem misses_of_le (h : Climbs parent start target below current) (hmiss : current ≠ target)
    {k : Nat} (hk : k ≤ below.length) : baseAt parent k start ≠ some target := by
  obtain hlt | rfl := Nat.lt_or_eq_of_le hk
  · exact h.misses_of_lt hlt
  · rw [h.current_eq]
    exact fun he => hmiss (Option.some.inj he)

theorem ne_of_lt (h : Climbs parent start target below current) {i j : Nat} (hij : i < j)
    (hj : j < below.length) : baseAt parent i start ≠ baseAt parent j start := by
  have hi : i < below.length := by omega
  rw [h.below_eq i hi, h.below_eq j hj, List.getElem?_eq_getElem hi, List.getElem?_eq_getElem hj]
  intro he
  have hsame : i = j := (List.Nodup.getElem_inj_iff h.nodup).mp (Option.some.inj he)
  omega

theorem not_revisits (h : Climbs parent start target below current) {k : Nat}
    (hk : k < below.length) : ¬Revisits parent start k := by
  rintro ⟨i, hi, he, -⟩
  exact h.ne_of_lt hi hk he

theorem revisits (h : Climbs parent start target below current) (hold : current ∈ below) :
    Revisits parent start below.length := by
  obtain ⟨i, hi, he⟩ := List.mem_iff_getElem?.mp hold |>.imp fun i hi =>
    And.intro (List.getElem?_eq_some_iff.mp hi).1 hi
  refine ⟨i, hi, ?_, ?_⟩
  · rw [h.below_eq i hi, he, h.current_eq]
  · simp [h.current_eq]

/-- All types met so far, written down. -/
theorem map_some_eq (h : Climbs parent start target below current) :
    (below ++ [current]).map some =
      (List.range (below.length + 1)).map fun k => baseAt parent k start := by
  have hbelow : below.map some =
      (List.range below.length).map fun k => baseAt parent k start := by
    apply List.ext_getElem
    · simp
    · intro k hk _
      have hlt : k < below.length := by simpa using hk
      simp [h.below_eq k hlt, hlt]
  rw [List.range_succ, List.map_append, List.map_append, hbelow]
  simp [h.current_eq]

theorem reached (h : Climbs parent start target below current) (hcur : current = target)
    (steps : Nat) : (Ascent.reached below.length).Describes parent start target
      (below.length + steps) :=
  ⟨Nat.le_add_right _ _, hcur ▸ h.current_eq, fun _ hk => h.misses_of_lt hk⟩

/-- Wherever a walk is, its outcome describes the whole chain, with the steps taken and those still
allowed as the limit. -/
theorem describes (h : Climbs parent start target below current) (steps : Nat) :
    (ascendFrom parent target steps below current).Describes parent start target
      (below.length + steps) := by
  induction steps generalizing below current with
  | zero =>
    unfold ascendFrom
    by_cases hcur : current = target
    · rw [if_pos hcur]
      exact h.reached hcur 0
    · rw [if_neg hcur]
      have hall : ∀ k ≤ below.length, baseAt parent k start ≠ none := fun k hk =>
        baseAt_ne_none_of_le (by simp [h.current_eq]) hk
      exact ⟨rfl, fun k hk => ⟨hall k hk, h.misses_of_le hcur hk⟩, fun j hj i hi => h.ne_of_lt hi hj⟩
  | succ steps ih =>
    unfold ascendFrom
    by_cases hcur : current = target
    · rw [if_pos hcur]
      exact h.reached hcur (steps + 1)
    · simp only [if_neg hcur]
      have hlt : below.length < below.length + (steps + 1) := by omega
      by_cases hold : current ∈ below
      · rw [if_pos hold]
        exact ⟨below.length, hlt, h.revisits hold, fun k hk => h.not_revisits hk,
          fun k hk => h.misses_of_le hcur hk, h.current_eq⟩
      · rw [if_neg hold]
        cases hp : parent current with
        | none =>
          have hend : EndsAt parent start below.length := by
            refine ⟨by simp [h.current_eq], ?_⟩
            rw [baseAt_succ', h.current_eq, Option.bind_some, hp]
          refine ⟨below.length, hlt, hend, ?_, h.map_some_eq⟩
          intro k
          by_cases hk : k ≤ below.length
          · exact h.misses_of_le hcur hk
          · rw [baseAt_eq_none_of_le hend.2 (by omega)]
            simp
        | some next =>
          have hrest := ih (h.step hcur hold hp)
          have hsum : (below ++ [current]).length + steps = below.length + (steps + 1) := by
            rw [List.length_append, List.length_singleton]
            omega
          rwa [hsum] at hrest

end Climbs

theorem ascend_describes (parent : TypeName → Option TypeName) (start target : TypeName)
    (maxDepth : Nat) :
    (ascend parent start target maxDepth).Describes parent start target maxDepth := by
  have hstart : Climbs parent start target [] start := Climbs.initial
  have hwalk := hstart.describes maxDepth
  rwa [List.length_nil, Nat.zero_add] at hwalk

theorem endsAt_unique {m n : Nat} (hm : EndsAt parent start m) (hn : EndsAt parent start n) :
    m = n := by
  have hmn : ¬m < n := fun hlt => hn.1 (baseAt_eq_none_of_le hm.2 hlt)
  have hnm : ¬n < m := fun hlt => hm.1 (baseAt_eq_none_of_le hn.2 hlt)
  omega

/-- Behind a type met before there is nothing new. -/
theorem exists_lt_of_revisits {m n : Nat} (h : Revisits parent start n) (hle : n ≤ m) :
    ∃ k < m, baseAt parent k start = baseAt parent m start := by
  obtain ⟨i, hi, he, -⟩ := h
  obtain ⟨d, rfl⟩ := Nat.exists_eq_add_of_le hle
  refine ⟨i + d, by omega, ?_⟩
  rw [baseAt_add, baseAt_add, he]

/-- The target is met for the first time before the chain comes back to any type. -/
theorem lt_of_isDepth_of_revisits {m n : Nat} (hm : IsDepth parent target start m)
    (hn : Revisits parent start n) : m < n := by
  by_contra hle
  obtain ⟨k, hk, he⟩ := exists_lt_of_revisits hn (Nat.le_of_not_lt hle)
  exact hm.2 k hk (he.trans hm.1)

namespace Ascent.Describes

variable {maxDepth : Nat}

theorem eq_of_exhausted {chain : List TypeName} {b : Ascent}
    (ha : (exhausted chain).Describes parent start target maxDepth)
    (hb : b.Describes parent start target maxDepth) : b = exhausted chain := by
  obtain ⟨n, hn, hend, hmiss, hchain⟩ := ha
  cases b with
  | reached m => exact absurd hb.2.1 (hmiss m)
  | exhausted chain' =>
    obtain ⟨n', -, hend', -, hchain'⟩ := hb
    obtain rfl := endsAt_unique hend hend'
    have hsame : chain'.map some = chain.map some := hchain'.trans hchain.symm
    rw [List.map_injective_iff.mpr (Option.some_injective TypeName) hsame]
  | cycle =>
    obtain ⟨k, -, hrev, -⟩ := hb
    exact absurd hrev (not_revisits_of_endsAt hend k)
  | tooDeep => exact absurd hend.2 (hb.2.1 (n + 1) hn).1

theorem eq_of_cycle {name : TypeName} {b : Ascent}
    (ha : (cycle name).Describes parent start target maxDepth)
    (hb : b.Describes parent start target maxDepth) : b = cycle name := by
  have hall := ha
  obtain ⟨n, hn, hrev, hfirst, hmiss, hat⟩ := ha
  cases b with
  | reached m =>
    have hlt := lt_of_isDepth_of_revisits hb.2 hrev
    exact absurd hb.2.1 (hmiss m (by omega))
  | exhausted chain => cases eq_of_exhausted hb hall
  | cycle name' =>
    obtain ⟨n', -, hrev', hfirst', -, hat'⟩ := hb
    have hle : ¬n < n' := fun hlt => hfirst' n hlt hrev
    have hge : ¬n' < n := fun hlt => hfirst n' hlt hrev'
    obtain rfl : n = n' := by omega
    rw [Option.some.inj (hat'.symm.trans hat)]
  | tooDeep =>
    obtain ⟨i, hi, he, -⟩ := hrev
    exact absurd he (hb.2.2 n hn i hi)

theorem eq_of_tooDeep {limit : Nat} {b : Ascent}
    (ha : (tooDeep limit).Describes parent start target maxDepth)
    (hb : b.Describes parent start target maxDepth) : b = tooDeep limit := by
  cases b with
  | reached m => exact absurd hb.2.1 (ha.2.1 m hb.1).2
  | exhausted chain => cases eq_of_exhausted hb ha
  | cycle name => cases eq_of_cycle hb ha
  | tooDeep limit' => rw [hb.1, ha.1]

end Ascent.Describes

/-- A walk ends in an outcome iff that outcome describes the chain: each of them says when it is the
one, whatever the parents are, and so exactly one of them is. -/
theorem ascend_eq_iff (parent : TypeName → Option TypeName) (start target : TypeName)
    (maxDepth : Nat) (outcome : Ascent) :
    ascend parent start target maxDepth = outcome ↔
      outcome.Describes parent start target maxDepth := by
  have hwalk := ascend_describes parent start target maxDepth
  constructor
  · rintro rfl
    exact hwalk
  · intro h
    cases outcome with
    | reached n => exact ascend_eq_reached_iff.mpr h
    | exhausted chain => exact h.eq_of_exhausted hwalk
    | cycle name => exact h.eq_of_cycle hwalk
    | tooDeep limit => exact h.eq_of_tooDeep hwalk

-- a type that is met again at the limit itself is not looked at any more
example : ascend (fun _ => some ⟨"a.Loop"⟩) ⟨"a.Main"⟩ ⟨"a.Top"⟩ 2 = .tooDeep 2 ∧
    ascend (fun _ => some ⟨"a.Loop"⟩) ⟨"a.Main"⟩ ⟨"a.Top"⟩ 3 = .cycle ⟨"a.Loop"⟩ := by
  decide

end ViewWiring
