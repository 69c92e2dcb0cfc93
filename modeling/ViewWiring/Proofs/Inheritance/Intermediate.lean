import ViewWiring.Proofs.Inheritance.Agreement

namespace ViewWiring

/-- The chain ends, or comes back to one of its types, in fewer than `limit` steps. -/
def ClosesWithin (parent : TypeName → Option TypeName) (start : TypeName) (limit : Nat) : Prop :=
  ∃ n < limit, baseAt parent (n + 1) start = none ∨ Revisits parent start n

section Closed

variable {parent : TypeName → Option TypeName} {start : TypeName} {limit : Nat}

theorem length_ancestors_lt (h : ClosesWithin parent start limit) :
    (ancestors parent start limit).length < limit := by
  obtain ⟨n, hn, hend⟩ := h
  by_contra hlong
  obtain hnone | ⟨i, hi, he, -⟩ := hend
  · have hin : (start :: ancestors parent start limit)[n + 1]? = baseAt parent (n + 1) start :=
      getElem?_cons_ancestors (by omega)
    rw [hnone, List.getElem?_eq_none_iff, List.length_cons] at hin
    omega
  · have hi' : i ≤ (ancestors parent start limit).length := by omega
    have hn' : n ≤ (ancestors parent start limit).length := by omega
    have hlen : i < (start :: ancestors parent start limit).length := Nat.lt_succ_of_le hi'
    rw [← getElem?_cons_ancestors hi', ← getElem?_cons_ancestors hn'] at he
    have hsame := (List.getElem?_inj hlen (nodup_cons_ancestors parent start limit)).mp he
    omega

/-- Whatever lies above the start of such a chain is met within the limit. -/
theorem exists_lt_of_closesWithin (h : ClosesWithin parent start limit) {k : Nat} {type : TypeName}
    (hk : baseAt parent k start = some type) : ∃ j < limit, baseAt parent j start = some type := by
  obtain ⟨n, hn, hend⟩ := h
  induction k using Nat.strongRecOn with
  | ind k ih =>
    by_cases hlt : k < limit
    · exact ⟨k, hlt, hk⟩
    · obtain hnone | hrev := hend
      · rw [baseAt_eq_none_of_le hnone (by omega)] at hk
        cases hk
      · obtain ⟨j, hj, he⟩ := exists_lt_of_revisits hrev (show n ≤ k by omega)
        exact ih j hj (he.trans hk)

end Closed

/-- The parents in `parent'` are those in `parent` with `mid`, which no type had to do with, put
between `lower` and its parent `upper`. -/
structure Puts (parent parent' : TypeName → Option TypeName) (lower mid upper : TypeName) :
    Prop where
  lower_eq : parent lower = some upper
  mid_eq : parent mid = none
  ne_mid : ∀ type, parent type ≠ some mid
  lower_eq' : parent' lower = some mid
  mid_eq' : parent' mid = some upper
  eq_of_ne : ∀ type, type ≠ lower → type ≠ mid → parent' type = parent type

namespace Puts

variable {parent parent' : TypeName → Option TypeName} {lower mid upper : TypeName}

theorem upper_ne_mid (h : Puts parent parent' lower mid upper) : upper ≠ mid := by
  rintro rfl
  exact h.ne_mid lower h.lower_eq

/-- Two walks stand at the same type and know the same types but for `mid`, which the second one has
met only if it came past `lower`. -/
structure InStep (lower mid : TypeName) (seen seen' : List TypeName) (current : TypeName) :
    Prop where
  current_ne : current ≠ mid
  current_mem : current ∈ seen'
  mem_iff : ∀ type, type ≠ mid → (type ∈ seen' ↔ type ∈ seen)
  past : mid ∈ seen' → current ≠ lower ∧ lower ∈ seen'

namespace InStep

variable {seen seen' : List TypeName} {current next : TypeName}

theorem initial {start : TypeName} (h : start ≠ mid) : InStep lower mid [start] [start] start where
  current_ne := h
  current_mem := List.mem_singleton_self start
  mem_iff := fun _ _ => Iff.rfl
  past := fun hm => absurd (List.mem_singleton.mp hm).symm h

theorem step (h : InStep lower mid seen seen' current) (hne : next ≠ mid) (hnew : next ∉ seen') :
    InStep lower mid (next :: seen) (next :: seen') next where
  current_ne := hne
  current_mem := List.mem_cons_self
  mem_iff := fun type htype => by simp [h.mem_iff type htype]
  past := by
    intro hm
    have hm' : mid ∈ seen' := by simpa [hne.symm] using hm
    obtain ⟨-, hlow⟩ := h.past hm'
    exact ⟨fun he => hnew (he ▸ hlow), List.mem_cons_of_mem next hlow⟩

/-- The first walk goes one step while the second goes two. -/
theorem step_past (h : InStep lower mid seen seen' lower) (hne : next ≠ mid)
    (hnew : next ∉ seen') : InStep lower mid (next :: seen) (next :: mid :: seen') next where
  current_ne := hne
  current_mem := List.mem_cons_self
  mem_iff := fun type htype => by simp [htype, h.mem_iff type htype]
  past := fun _ => ⟨fun he => hnew (he ▸ h.current_mem),
    List.mem_cons_of_mem next (List.mem_cons_of_mem mid h.current_mem)⟩

end InStep

/-- All types are listed as before and `mid` behind `lower`, unless the limit cuts the list off. -/
theorem filter_ancestorsFrom (h : Puts parent parent' lower mid upper) {steps steps' : Nat}
    {seen seen' : List TypeName} {current : TypeName} (hs : InStep lower mid seen seen' current)
    (hle : steps' ≤ steps) (hstop : (ancestorsFrom parent' steps' seen' current).length < steps') :
    (ancestorsFrom parent' steps' seen' current).filter (fun type => decide (type ≠ mid)) =
      ancestorsFrom parent steps seen current := by
  -- two steps at once are needed where the walk passes the new type
  induction steps' using Nat.strongRecOn generalizing steps seen seen' current with
  | ind steps' ih =>
    obtain ⟨rest', rfl⟩ : ∃ s, steps' = s + 1 := ⟨steps' - 1, by omega⟩
    obtain ⟨rest, rfl⟩ : ∃ s, steps = s + 1 := ⟨steps - 1, by omega⟩
    by_cases hlow : current = lower
    · subst hlow
      have hup : upper ≠ mid := h.upper_ne_mid
      have hnew : mid ∉ seen' := fun hm => (hs.past hm).1 rfl
      rw [ancestorsFrom_of_new h.lower_eq' hnew, List.length_cons] at hstop
      rw [ancestorsFrom_of_new h.lower_eq' hnew, List.filter_cons_of_neg (by simp)]
      obtain ⟨rest', rfl⟩ : ∃ s, rest' = s + 1 := ⟨rest' - 1, by omega⟩
      by_cases hold : upper ∈ seen'
      · have hknown : ∀ next, parent current = some next → next ∈ seen := by
          simpa [h.lower_eq] using (hs.mem_iff upper hup).mp hold
        have hknown' : ∀ next, parent' mid = some next → next ∈ mid :: seen' := by
          simp [h.mid_eq', hold]
        rw [ancestorsFrom_of_known hknown, ancestorsFrom_of_known hknown', List.filter_nil]
      · have hout : upper ∉ seen := fun hm => hold ((hs.mem_iff upper hup).mpr hm)
        have hout' : upper ∉ mid :: seen' := by simp [hup, hold]
        rw [ancestorsFrom_of_new h.mid_eq' hout', List.length_cons] at hstop
        have hrest : rest' ≤ rest := by omega
        rw [ancestorsFrom_of_new h.mid_eq' hout', ancestorsFrom_of_new h.lower_eq hout,
          List.filter_cons_of_pos (by simp [hup]),
          ih rest' (by omega) (hs.step_past hup hold) hrest (by omega)]
    · have hsame := h.eq_of_ne current hlow hs.current_ne
      have hne : ∀ next, parent current = some next → next ≠ mid := by
        rintro next hp rfl
        exact h.ne_mid current hp
      obtain hknown | ⟨next, hp, hout⟩ := known_or_new parent seen current
      · have hknown' : ∀ next, parent' current = some next → next ∈ seen' := by
          intro next hp
          rw [hsame] at hp
          exact (hs.mem_iff next (hne next hp)).mpr (hknown next hp)
        rw [ancestorsFrom_of_known hknown, ancestorsFrom_of_known hknown', List.filter_nil]
      · have hmid := hne next hp
        have hout' : next ∉ seen' := fun hm => hout ((hs.mem_iff next hmid).mp hm)
        have hp' : parent' current = some next := hsame.trans hp
        rw [ancestorsFrom_of_new hp' hout', List.length_cons] at hstop
        have hrest : rest' ≤ rest := by omega
        rw [ancestorsFrom_of_new hp' hout', ancestorsFrom_of_new hp hout,
          List.filter_cons_of_pos (by simp [hmid]),
          ih rest' (by omega) (hs.step hmid hout') hrest (by omega)]

theorem filter_ancestors (h : Puts parent parent' lower mid upper) {start : TypeName} {limit : Nat}
    (hstart : start ≠ mid) (hclosed : ClosesWithin parent' start limit) :
    (ancestors parent' start limit).filter (fun type => decide (type ≠ mid)) =
      ancestors parent start limit :=
  h.filter_ancestorsFrom (InStep.initial hstart) (Nat.le_refl limit) (length_ancestors_lt hclosed)

/-- A target other than the new type is met as before. -/
theorem isReached_iff (h : Puts parent parent' lower mid upper) {start target : TypeName}
    {limit : Nat} (hstart : start ≠ mid) (htarget : target ≠ mid)
    (hclosed : ClosesWithin parent' start limit) :
    (ascend parent' start target limit).isReached = true ↔
      (ascend parent start target limit).isReached = true := by
  rw [ascend_isReached_iff_mem, ascend_isReached_iff_mem, ← h.filter_ancestors hstart hclosed,
    List.mem_filter]
  simp [htarget]

theorem exists_baseAt_of_baseAt' (h : Puts parent parent' lower mid upper) {target type : TypeName}
    {n : Nat} (htype : type ≠ mid) (htarget : target ≠ mid)
    (hn : baseAt parent' n type = some target) : ∃ m ≤ n, baseAt parent m type = some target := by
  induction n using Nat.strongRecOn generalizing type with
  | ind n ih =>
    cases n with
    | zero => exact ⟨0, Nat.le_refl 0, hn⟩
    | succ n =>
      by_cases hlow : type = lower
      · subst hlow
        rw [baseAt_succ h.lower_eq'] at hn
        cases n with
        | zero => exact absurd (Option.some.inj hn).symm htarget
        | succ n =>
          rw [baseAt_succ h.mid_eq'] at hn
          obtain ⟨m, hm, he⟩ := ih n (by omega) h.upper_ne_mid hn
          exact ⟨m + 1, by omega, by rw [baseAt_succ h.lower_eq, he]⟩
      · have hsame := h.eq_of_ne type hlow htype
        cases hp : parent type with
        | none => simp [baseAt, hsame, hp] at hn
        | some next =>
          have hnext : next ≠ mid := by
            rintro rfl
            exact h.ne_mid type hp
          rw [baseAt_succ (hsame.trans hp)] at hn
          obtain ⟨m, hm, he⟩ := ih n (by omega) hnext hn
          exact ⟨m + 1, by omega, by rw [baseAt_succ hp, he]⟩

theorem exists_baseAt'_of_baseAt (h : Puts parent parent' lower mid upper) {target type : TypeName}
    {n : Nat} (htype : type ≠ mid) (hn : baseAt parent n type = some target) :
    ∃ m, baseAt parent' m type = some target := by
  induction n generalizing type with
  | zero => exact ⟨0, hn⟩
  | succ n ih =>
    cases hp : parent type with
    | none => simp [baseAt, hp] at hn
    | some next =>
      have hnext : next ≠ mid := by
        rintro rfl
        exact h.ne_mid type hp
      rw [baseAt_succ hp] at hn
      obtain ⟨m, he⟩ := ih hnext hn
      by_cases hlow : type = lower
      · subst hlow
        obtain rfl : upper = next := Option.some.inj (h.lower_eq.symm.trans hp)
        exact ⟨m + 2, by rw [baseAt_succ h.lower_eq', baseAt_succ h.mid_eq', he]⟩
      · have hp' : parent' type = some next := (h.eq_of_ne type hlow htype).trans hp
        exact ⟨m + 1, by rw [baseAt_succ hp', he]⟩

/-- From the new type a target is met where its parent meets it. -/
theorem isReached_mid_iff (h : Puts parent parent' lower mid upper) {target : TypeName}
    {limit : Nat} (htarget : target ≠ mid) (hclosed : ClosesWithin parent' mid limit) :
    (ascend parent' mid target limit).isReached = true ↔
      (ascend parent upper target limit).isReached = true := by
  rw [ascend_isReached_iff, ascend_isReached_iff]
  constructor
  · rintro ⟨n, hn, he⟩
    cases n with
    | zero => exact absurd (Option.some.inj he).symm htarget
    | succ n =>
      rw [baseAt_succ h.mid_eq'] at he
      obtain ⟨m, hm, he'⟩ := h.exists_baseAt_of_baseAt' h.upper_ne_mid htarget he
      exact ⟨m, by omega, he'⟩
  · rintro ⟨n, -, he⟩
    obtain ⟨m, he'⟩ := h.exists_baseAt'_of_baseAt h.upper_ne_mid he
    rw [← baseAt_succ h.mid_eq'] at he'
    obtain ⟨j, hj, hj'⟩ := exists_lt_of_closesWithin hclosed he'
    exact ⟨j, Nat.le_of_lt hj, hj'⟩

/-- Before, nothing was met from it. -/
theorem not_isReached_mid (h : Puts parent parent' lower mid upper) {target : TypeName}
    {limit : Nat} (htarget : target ≠ mid) : (ascend parent mid target limit).isReached = false := by
  rw [Bool.eq_false_iff, ne_eq, ascend_isReached_iff]
  rintro ⟨n, -, he⟩
  cases n with
  | zero => exact htarget (Option.some.inj he).symm
  | succ n => simp [baseAt, h.mid_eq] at he

end Puts

end ViewWiring
