import ViewWiring.Binding.Register
import Mathlib.Data.List.Nodup

namespace ViewWiring.Register

/-- The names that bindings are registered under, in order of registration. -/
def names (r : Register) : List TypeName := r.bindings.map ComponentBinding.component

/-- The index of a register is exact: a name has a place iff the binding there is its own, and
no name is registered twice. -/
structure Consistent (r : Register) : Prop where
  nodup : r.names.Nodup
  lookup_iff : ∀ c i, r.places.lookup c = some i ↔ r.names[i]? = some c

theorem consistent_empty : empty.Consistent :=
  ⟨by simp [names, empty], by simp [names, empty]⟩

theorem Consistent.contains_iff {r : Register} (h : r.Consistent) (c : TypeName) :
    r.contains c = true ↔ c ∈ r.names := by
  rw [contains, Option.isSome_iff_exists, List.mem_iff_getElem?]
  exact exists_congr fun i => h.lookup_iff c i

theorem Consistent.insert_of_notMem {r : Register} (h : r.Consistent) {b : ComponentBinding}
    (hb : b.component ∉ r.names) :
    r.insert b =
      (.ok (), ⟨r.bindings ++ [b], (b.component, r.bindings.length) :: r.places⟩) := by
  have hc : r.contains b.component = false := by
    rw [Bool.eq_false_iff, ne_eq, h.contains_iff]
    exact hb
  simp [insert, hc]

theorem Consistent.insert_of_mem {r : Register} (h : r.Consistent) {b : ComponentBinding}
    (hb : b.component ∈ r.names) : r.insert b = (.error b, r) := by
  rw [Register.insert, if_pos ((h.contains_iff b.component).mpr hb)]

/-- A new name comes to stand at the end of the list, which is where its entry points. -/
theorem Consistent.lookup_insert {r : Register} (h : r.Consistent) {name : TypeName}
    (hn : name ∉ r.names) (c : TypeName) (i : Nat) :
    ((name, r.names.length) :: r.places).lookup c = some i ↔
      (r.names ++ [name])[i]? = some c := by
  rw [List.lookup_cons, List.getElem?_append]
  by_cases hc : c = name
  · subst hc
    rw [beq_self_eq_true]
    by_cases hi : i < r.names.length
    · rw [if_pos hi]
      constructor
      · intro he
        have : r.names.length = i := by simpa using he
        omega
      · intro he
        exact absurd (List.mem_of_getElem? he) hn
    · rw [if_neg hi, List.getElem?_singleton]
      have hs : i - r.names.length = 0 ↔ r.names.length = i := by omega
      simp [hs]
  · rw [beq_false_of_ne hc, h.lookup_iff]
    by_cases hi : i < r.names.length
    · rw [if_pos hi]
    · have hnone : r.names[i]? = none := List.getElem?_eq_none (by omega)
      rw [if_neg hi, hnone, List.getElem?_singleton]
      split
      · simp [Ne.symm hc]
      · simp

theorem Consistent.insert {r : Register} (h : r.Consistent) (b : ComponentBinding) :
    (r.insert b).2.Consistent := by
  by_cases hb : b.component ∈ r.names
  · rw [h.insert_of_mem hb]
    exact h
  rw [h.insert_of_notMem hb]
  have hn : (⟨r.bindings ++ [b], (b.component, r.bindings.length) :: r.places⟩ : Register).names =
      r.names ++ [b.component] := by
    simp [names]
  have hl : r.bindings.length = r.names.length := by simp [names]
  constructor
  · rw [hn, List.nodup_append]
    refine ⟨h.nodup, List.nodup_singleton _, ?_⟩
    intro c hc d hd he
    rw [List.mem_singleton] at hd
    exact hb (hd ▸ he ▸ hc)
  · intro c i
    rw [hn, hl]
    exact h.lookup_insert hb c i

/-- A binding of a name that is registered is handed back; any other is put at the end. -/
theorem Consistent.insert_cases {r : Register} (h : r.Consistent) (b : ComponentBinding) :
    (b.component ∈ r.names ∧ r.insert b = (.error b, r)) ∨
    (b.component ∉ r.names ∧
      ∃ r', r.insert b = (.ok (), r') ∧ r'.Consistent ∧ r'.bindings = r.bindings ++ [b]) := by
  by_cases hb : b.component ∈ r.names
  · exact .inl ⟨hb, h.insert_of_mem hb⟩
  · have hi := h.insert_of_notMem hb
    have hinsert := h.insert b
    rw [hi] at hinsert
    exact .inr ⟨hb, _, hi, hinsert, rfl⟩

/-- What the index finds for a name is the binding of that name. -/
theorem Consistent.get?_eq_find? {r : Register} (h : r.Consistent) (c : TypeName) :
    r.get? c = r.bindings.find? (·.component == c) := by
  rw [get?]
  cases hl : r.places.lookup c with
  | none =>
    have hc : c ∉ r.names := by
      rw [← h.contains_iff, contains, hl]
      exact Bool.false_ne_true
    have hnone : ∀ b ∈ r.bindings, ¬(b.component == c) = true := by
      intro b hb he
      exact hc (eq_of_beq he ▸ List.mem_map_of_mem hb)
    rw [List.find?_eq_none.mpr hnone, Option.bind_none]
  | some i =>
    have hi := (h.lookup_iff c i).mp hl
    rw [names, List.getElem?_map, Option.map_eq_some_iff] at hi
    obtain ⟨b, hb, rfl⟩ := hi
    rw [Option.bind_some, hb, eq_comm, List.find?_eq_some_iff_getElem]
    obtain ⟨hlt, hget⟩ := List.getElem?_eq_some_iff.mp hb
    refine ⟨beq_self_eq_true _, i, hlt, hget, ?_⟩
    -- an earlier binding of the name would be a second one
    intro j hj
    have hne := List.pairwise_iff_getElem.mp h.nodup j i (by simp [names]; omega)
      (by simpa [names] using hlt) hj
    simpa [names, hget] using hne

/-- Of the bindings of each component the first, in the order of the list. -/
def firsts (bs : List ComponentBinding) : List ComponentBinding :=
  bs.eraseDupsBy fun b b' => b.component == b'.component

theorem firsts_cons (b : ComponentBinding) (bs : List ComponentBinding) :
    firsts (b :: bs) = b :: firsts (bs.filter fun b' => decide (b'.component ≠ b.component)) := by
  rw [firsts, List.eraseDupsBy_cons, firsts]
  simp

theorem firsts_of_nodup {bs : List ComponentBinding}
    (h : (bs.map ComponentBinding.component).Nodup) : firsts bs = bs := by
  induction bs with
  | nil => rfl
  | cons b bs ih =>
    obtain ⟨hb, hbs⟩ := List.nodup_cons.mp h
    have hothers : (bs.filter fun b' => decide (b'.component ≠ b.component)) = bs := by
      apply List.filter_eq_self.mpr
      intro b' hb'
      exact decide_eq_true fun he => hb (he ▸ List.mem_map_of_mem hb')
    rw [firsts_cons, hothers, ih hbs]

theorem insertAll_cons (r : Register) (b : ComponentBinding) (bs : List ComponentBinding) :
    r.insertAll (b :: bs) = (r.insert b).2.insertAll bs :=
  rfl

/-- A run registers the first binding of each name that is new, in their order. -/
theorem Consistent.insertAll {r : Register} (h : r.Consistent) (bs : List ComponentBinding) :
    (r.insertAll bs).Consistent ∧
      (r.insertAll bs).bindings =
        r.bindings ++ firsts (bs.filter fun b => decide (b.component ∉ r.names)) := by
  induction bs generalizing r with
  | nil => exact ⟨h, (List.append_nil _).symm⟩
  | cons b bs ih =>
    rw [insertAll_cons]
    obtain ⟨hb, hi⟩ | ⟨hb, r', hi, h', hbindings⟩ := h.insert_cases b
    · rw [hi, List.filter_cons_of_neg (by simpa using hb)]
      exact ih h
    · obtain ⟨hconsistent, hall⟩ := ih h'
      have hnew : ∀ c, decide (c ∉ r'.names) =
          (decide (c ≠ b.component) && decide (c ∉ r.names)) := by
        intro c
        by_cases hc : c = b.component <;> simp [names, hbindings, hc]
      rw [hi, List.filter_cons_of_pos (by simpa using hb), firsts_cons, List.filter_filter]
      refine ⟨hconsistent, ?_⟩
      change (r'.insertAll bs).bindings = _
      simp only [hall, hbindings, hnew, List.append_assoc, List.singleton_append]

/-- A name that is registered before a run keeps its binding; any other gets its first of the run. -/
theorem Consistent.find?_insertAll {r : Register} (h : r.Consistent) (bs : List ComponentBinding)
    (c : TypeName) :
    (r.insertAll bs).bindings.find? (·.component == c) =
      (r.bindings.find? (·.component == c)).or (bs.find? (·.component == c)) := by
  induction bs generalizing r with
  | nil => exact Option.or_none.symm
  | cons b bs ih =>
    rw [insertAll_cons]
    obtain ⟨hb, hi⟩ | ⟨-, r', hi, h', hbindings⟩ := h.insert_cases b
    · rw [hi]
      refine (ih h).trans ?_
      -- a binding that is refused stands behind the one that has its name
      by_cases hc : b.component = c
      · obtain ⟨b', hb', hname⟩ := List.mem_map.mp hb
        have hsome : (r.bindings.find? (·.component == c)).isSome = true :=
          List.find?_isSome.mpr ⟨b', hb', by simp [hname, hc]⟩
        rw [Option.or_of_isSome hsome, Option.or_of_isSome hsome]
      · rw [List.find?_cons_of_neg (by simpa using hc)]
    · rw [hi]
      refine (ih h').trans ?_
      rw [hbindings, List.find?_append, Option.or_assoc, ← List.find?_append, List.singleton_append]

theorem bindings_insertAll_empty (bs : List ComponentBinding) :
    (empty.insertAll bs).bindings = firsts bs :=
  (consistent_empty.insertAll bs).2.trans (by simp [empty, names])

/-- Bindings of distinct components are all registered, each at its turn, and in their order. -/
theorem insertAll_empty {bs : List ComponentBinding}
    (hn : (bs.map ComponentBinding.component).Nodup) :
    (empty.insertAll bs).Consistent ∧ (empty.insertAll bs).bindings = bs := by
  rw [bindings_insertAll_empty, firsts_of_nodup hn]
  exact ⟨(consistent_empty.insertAll bs).1, rfl⟩

theorem insertAll_concat (r : Register) (bs : List ComponentBinding) (b : ComponentBinding) :
    r.insertAll (bs ++ [b]) = ((r.insertAll bs).insert b).2 := by
  rw [insertAll, List.foldl_append]
  rfl

/-- Whatever is offered to a new register, its list holds the first binding of each name in the
order of the offers, and its index leads from a name to the place of its binding in the list, never
past the end. A binding of a name that was offered before is handed back and leaves the register as
it is. -/
theorem insertAll_indexes_firsts (bs : List ComponentBinding) :
    let r := empty.insertAll bs
    r.names.Nodup ∧
    (∀ c i, r.places.lookup c = some i ↔ ∃ b, r.bindings[i]? = some b ∧ b.component = c) ∧
    (∀ c i, r.places.lookup c = some i → i < r.size) ∧
    (∀ c, r.get? c = bs.find? (·.component == c)) ∧
    (∀ c, r.contains c = true ↔ ∃ b ∈ bs, b.component = c) ∧
    r.bindings = firsts bs ∧
    (∀ b, r.contains b.component = true →
      r.insert b = (.error b, r) ∧ empty.insertAll (bs ++ [b]) = r) ∧
    ∀ b, r.contains b.component = false →
      r.insert b = (.ok (), empty.insertAll (bs ++ [b])) := by
  intro r
  have hr : r.Consistent := (consistent_empty.insertAll bs).1
  have hfind : ∀ c, r.bindings.find? (·.component == c) = bs.find? (·.component == c) :=
    consistent_empty.find?_insertAll bs
  have hlookup : ∀ c i,
      r.places.lookup c = some i ↔ ∃ b, r.bindings[i]? = some b ∧ b.component = c := by
    intro c i
    rw [hr.lookup_iff, names, List.getElem?_map, Option.map_eq_some_iff]
  refine ⟨hr.nodup, hlookup, ?_, ?_, ?_, bindings_insertAll_empty bs, ?_, ?_⟩
  · intro c i hi
    obtain ⟨b, hb, -⟩ := (hlookup c i).mp hi
    exact (List.getElem?_eq_some_iff.mp hb).1
  · exact fun c => (hr.get?_eq_find? c).trans (hfind c)
  · intro c
    have hname : c ∈ r.names ↔ (r.bindings.find? (·.component == c)).isSome = true := by
      simp [names]
    rw [hr.contains_iff, hname, hfind, List.find?_isSome]
    simp only [beq_iff_eq]
  · intro b hb
    have hi : r.insert b = (.error b, r) := if_pos hb
    rw [insertAll_concat]
    exact ⟨hi, congrArg Prod.snd hi⟩
  · intro b hb
    rw [insertAll_concat, Register.insert, hb, if_neg Bool.false_ne_true]

end ViewWiring.Register
