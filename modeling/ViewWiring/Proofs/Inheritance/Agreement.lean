import ViewWiring.Proofs.Inheritance.Hiding
import ViewWiring.Proofs.Inheritance.Outcome

namespace ViewWiring

variable {parent : TypeName → Option TypeName} {start target : TypeName} {maxDepth : Nat}

/-- The types in `above` are those above `current` in order, none of them twice and none in `seen`,
up to the last of `steps` steps, the end of the chain or a type that is known already. -/
structure ListsAbove (parent : TypeName → Option TypeName) (steps : Nat) (seen : List TypeName)
    (current : TypeName) (above : List TypeName) : Prop where
  getElem?_eq : ∀ k < above.length, above[k]? = baseAt parent (k + 1) current
  nodup : above.Nodup
  fresh : ∀ type ∈ above, type ∉ seen
  length_le : above.length ≤ steps
  maximal : above.length < steps → ∀ type, baseAt parent (above.length + 1) current = some type →
    type ∈ seen ∨ type ∈ above

theorem listsAbove_nil {steps : Nat} {seen : List TypeName} {current : TypeName}
    (h : 0 < steps → ∀ type, parent current = some type → type ∈ seen) :
    ListsAbove parent steps seen current [] where
  getElem?_eq := by simp
  nodup := List.nodup_nil
  fresh := by simp
  length_le := Nat.zero_le _
  maximal := by
    intro hlt type htype
    have hp : parent current = some type := by
      simpa [baseAt_succ', baseAt] using htype
    exact .inl (h hlt type hp)

theorem ListsAbove.cons {steps : Nat} {seen above : List TypeName} {current next : TypeName}
    (hp : parent current = some next) (hnew : next ∉ seen)
    (h : ListsAbove parent steps (next :: seen) next above) :
    ListsAbove parent (steps + 1) seen current (next :: above) where
  getElem?_eq := by
    intro k hk
    rw [baseAt_succ hp]
    cases k with
    | zero => rfl
    | succ k => exact h.getElem?_eq k (Nat.lt_of_succ_lt_succ hk)
  nodup := by
    have hout : next ∉ above := fun hm => h.fresh next hm List.mem_cons_self
    exact List.nodup_cons.mpr ⟨hout, h.nodup⟩
  fresh := by
    intro type hm
    obtain rfl | hm := List.mem_cons.mp hm
    · exact hnew
    · exact fun hs => h.fresh type hm (List.mem_cons_of_mem next hs)
  length_le := Nat.succ_le_succ h.length_le
  maximal := by
    intro hlt type htype
    rw [baseAt_succ hp] at htype
    obtain hs | ha := h.maximal (Nat.lt_of_succ_lt_succ hlt) type htype
    · obtain rfl | hs := List.mem_cons.mp hs
      · exact .inr List.mem_cons_self
      · exact .inl hs
    · exact .inr (List.mem_cons_of_mem next ha)

theorem listsAbove_ancestorsFrom (steps : Nat) (seen : List TypeName) (current : TypeName) :
    ListsAbove parent steps seen current (ancestorsFrom parent steps seen current) := by
  induction steps generalizing seen current with
  | zero => exact listsAbove_nil fun hlt => absurd hlt (Nat.lt_irrefl 0)
  | succ steps ih =>
    obtain hknown | ⟨next, hp, hnew⟩ := known_or_new parent seen current
    · rw [ancestorsFrom_of_known hknown]
      exact listsAbove_nil fun _ => hknown
    · rw [ancestorsFrom_of_new hp hnew]
      exact (ih (next :: seen) next).cons hp hnew

section Ancestors

variable (parent start maxDepth)

theorem nodup_cons_ancestors : (start :: ancestors parent start maxDepth).Nodup :=
  List.nodup_cons.mpr
    ⟨notMem_ancestors start maxDepth, (listsAbove_ancestorsFrom maxDepth [start] start).nodup⟩

theorem length_ancestors_le : (ancestors parent start maxDepth).length ≤ maxDepth :=
  (listsAbove_ancestorsFrom maxDepth [start] start).length_le

variable {parent start maxDepth}

theorem getElem?_cons_ancestors {n : Nat} (hn : n ≤ (ancestors parent start maxDepth).length) :
    (start :: ancestors parent start maxDepth)[n]? = baseAt parent n start := by
  cases n with
  | zero => rfl
  | succ n => exact (listsAbove_ancestorsFrom maxDepth [start] start).getElem?_eq n hn

/-- Before the limit, the list breaks off only where the chain does or comes back to a type. -/
theorem revisits_of_length_ancestors_lt (hlt : (ancestors parent start maxDepth).length < maxDepth)
    (hmore : baseAt parent ((ancestors parent start maxDepth).length + 1) start ≠ none) :
    Revisits parent start ((ancestors parent start maxDepth).length + 1) := by
  obtain ⟨type, htype⟩ := Option.ne_none_iff_exists'.mp hmore
  have hmet : type ∈ start :: ancestors parent start maxDepth := by
    have hold := (listsAbove_ancestorsFrom maxDepth [start] start).maximal hlt type htype
    rwa [List.mem_singleton, ← List.mem_cons] at hold
  obtain ⟨i, hi⟩ := List.mem_iff_getElem?.mp hmet
  have hlen : i < (ancestors parent start maxDepth).length + 1 :=
    (List.getElem?_eq_some_iff.mp hi).1
  refine ⟨i, hlen, ?_, hmore⟩
  rw [← getElem?_cons_ancestors (Nat.le_of_lt_succ hlen), hi, htype]

theorem le_length_ancestors_of_isDepth {n : Nat} (h : IsDepth parent target start n)
    (hn : n ≤ maxDepth) : n ≤ (ancestors parent start maxDepth).length := by
  by_contra hlong
  have hmore : baseAt parent ((ancestors parent start maxDepth).length + 1) start ≠ none :=
    baseAt_ne_none_of_le (by simp [h.1]) (show _ ≤ n by omega)
  have hrev := revisits_of_length_ancestors_lt (by omega) hmore
  have hlt := lt_of_isDepth_of_revisits h hrev
  omega

theorem length_ancestors_of_endsAt {n : Nat} (h : EndsAt parent start n) (hn : n < maxDepth) :
    (ancestors parent start maxDepth).length = n := by
  have hle : (ancestors parent start maxDepth).length ≤ n := by
    by_contra hlong
    have hin : (start :: ancestors parent start maxDepth)[n + 1]? = baseAt parent (n + 1) start :=
      getElem?_cons_ancestors (by omega)
    rw [h.2, List.getElem?_eq_none_iff, List.length_cons] at hin
    omega
  by_contra hne
  have hmore : baseAt parent ((ancestors parent start maxDepth).length + 1) start ≠ none :=
    baseAt_ne_none_of_le h.1 (by omega)
  exact not_revisits_of_endsAt h _ (revisits_of_length_ancestors_lt (by omega) hmore)

end Ancestors

/-- The walk to a target and the list of the types above agree. -/
structure WalksAgree (parent : TypeName → Option TypeName) (start target : TypeName)
    (maxDepth : Nat) : Prop where
  isReached_iff : (ascend parent start target maxDepth).isReached = true ↔
    target = start ∨ target ∈ ancestors parent start maxDepth
  depth_iff : ∀ n, ascend parent start target maxDepth = .reached n ↔
    (start :: ancestors parent start maxDepth)[n]? = some target
  nodup : (start :: ancestors parent start maxDepth).Nodup
  length_le : (ancestors parent start maxDepth).length ≤ maxDepth
  exhausted_eq : ∀ chain, ascend parent start target maxDepth = .exhausted chain →
    chain = start :: ancestors parent start maxDepth

theorem ascend_eq_reached_iff_getElem? {n : Nat} :
    ascend parent start target maxDepth = .reached n ↔
      (start :: ancestors parent start maxDepth)[n]? = some target := by
  rw [ascend_eq_reached_iff]
  constructor
  · rintro ⟨hn, hdepth⟩
    rw [getElem?_cons_ancestors (le_length_ancestors_of_isDepth hdepth hn)]
    exact hdepth.1
  · intro h
    have hlen : n < (ancestors parent start maxDepth).length + 1 :=
      (List.getElem?_eq_some_iff.mp h).1
    have hle := length_ancestors_le parent start maxDepth
    refine ⟨by omega, ?_, ?_⟩
    · rw [← getElem?_cons_ancestors (Nat.le_of_lt_succ hlen), h]
    · intro k hk he
      have hk' : k ≤ (ancestors parent start maxDepth).length := by omega
      rw [← getElem?_cons_ancestors hk', ← h] at he
      have hin : k < (start :: ancestors parent start maxDepth).length := Nat.lt_succ_of_le hk'
      have hsame := (List.getElem?_inj hin (nodup_cons_ancestors parent start maxDepth)).mp he
      omega

theorem ascend_isReached_iff_mem :
    (ascend parent start target maxDepth).isReached = true ↔
      target = start ∨ target ∈ ancestors parent start maxDepth := by
  rw [← List.mem_cons, List.mem_iff_getElem?, Ascent.isReached_iff_exists]
  exact exists_congr fun n => ascend_eq_reached_iff_getElem?

theorem eq_cons_ancestors_of_exhausted {chain : List TypeName}
    (h : ascend parent start target maxDepth = .exhausted chain) :
    chain = start :: ancestors parent start maxDepth := by
  have hd := ascend_describes parent start target maxDepth
  rw [h] at hd
  obtain ⟨n, hn, hend, -, hchain⟩ := hd
  have hlen := length_ancestors_of_endsAt hend hn
  apply List.map_injective_iff.mpr (Option.some_injective TypeName)
  rw [hchain]
  apply List.ext_getElem
  · simp [hlen]
  · intro k hk hk'
    have hle : k ≤ (ancestors parent start maxDepth).length := by simpa [hlen, Nat.lt_succ_iff] using hk
    rw [List.getElem_map, List.getElem_map, List.getElem_range, ← getElem?_cons_ancestors hle,
      List.getElem?_eq_getElem]

theorem walksAgree (parent : TypeName → Option TypeName) (start target : TypeName)
    (maxDepth : Nat) : WalksAgree parent start target maxDepth where
  isReached_iff := ascend_isReached_iff_mem
  depth_iff _ := ascend_eq_reached_iff_getElem?
  nodup := nodup_cons_ancestors parent start maxDepth
  length_le := length_ancestors_le parent start maxDepth
  exhausted_eq _ := eq_cons_ancestors_of_exhausted

namespace Source

theorem mem_inheritedPast {hides declared : TypeName → List Member} {own : List Member}
    {types : List TypeName} {m : Member} :
    m ∈ inheritedPast hides declared own types ↔ ∃ i type, types[i]? = some type ∧
      m ∈ Member.handedDown (own ++ (types.take i).flatMap hides) (declared type) := by
  simp only [inheritedPast, List.mem_flatten, List.mem_reverse, List.mem_mapIdx]
  constructor
  · rintro ⟨block, ⟨i, hi, rfl⟩, hm⟩
    exact ⟨i, types[i], List.getElem?_eq_getElem hi, hm⟩
  · rintro ⟨i, type, htype, hm⟩
    obtain ⟨hi, rfl⟩ := List.getElem?_eq_some_iff.mp htype
    exact ⟨_, ⟨i, hi, rfl⟩, hm⟩

variable (source : Source) (config : Config)

/-- The type is the one at place `i` above a component, and hands down to it each of its members
with a directive that is not hidden by the component or by a type between them. -/
structure TakesPart (c : Component) (i : Nat) (type : TypeName) : Prop where
  getElem?_eq : (ancestors source.superType c.name config.maxDepth)[i]? = some type
  mem_members : ∀ m ∈ source.declaredMembers type, m.directive.isSome = true →
    m.isHiddenBy (c.members ++ ((ancestors source.superType c.name config.maxDepth).take i).flatMap
      (directed source.declaredMembers)) = false → m ∈ source.members config c

theorem takesPart_of_getElem? {c : Component} {i : Nat} {type : TypeName}
    (h : (ancestors source.superType c.name config.maxDepth)[i]? = some type) :
    source.TakesPart config c i type where
  getElem?_eq := h
  mem_members := by
    intro m hm hd hn
    have hdown : m ∈ Member.handedDown
        (c.members ++ ((ancestors source.superType c.name config.maxDepth).take i).flatMap
          (directed source.declaredMembers)) (source.declaredMembers type) := by
      rw [Member.mem_handedDown, ← Member.isHiddenBy_iff]
      exact ⟨hm, hd, by simp [hn]⟩
    rw [members, inheritedAlong_eq]
    exact List.mem_append_left _ (mem_inheritedPast.mpr ⟨i, type, h, hdown⟩)

end Source

/-- The target is met iff it is the start or is listed above it, at the depth of its place. So
every type from the parent of an accepted component up to the platform's activity hands its members
down. -/
theorem hierarchy_walks_agree :
    (∀ (parent : TypeName → Option TypeName) (start target : TypeName) (maxDepth : Nat),
      WalksAgree parent start target maxDepth) ∧
    ∀ (source : Source) (config : Config) (c : Component),
      (source.ascend config c.name config.platform.activity).isReached = true →
      ∃ n, source.ascend config c.name config.platform.activity = .reached n ∧
        ∀ i < n, ∃ type, baseAt source.superType (i + 1) c.name = some type ∧
          source.TakesPart config c i type := by
  refine ⟨walksAgree, ?_⟩
  intro source config c h
  obtain ⟨n, hn⟩ := (Ascent.isReached_iff_exists _).mp h
  refine ⟨n, hn, ?_⟩
  intro i hi
  have hplace := ascend_eq_reached_iff_getElem?.mp hn
  have hlen : n < (ancestors source.superType c.name config.maxDepth).length + 1 :=
    (List.getElem?_eq_some_iff.mp hplace).1
  have hin : i < (ancestors source.superType c.name config.maxDepth).length := by omega
  have htype := List.getElem?_eq_getElem hin
  refine ⟨_, ?_, source.takesPart_of_getElem? config htype⟩
  rw [← getElem?_cons_ancestors hin, List.getElem?_cons_succ, htype]

/-- A type between a screen and the platform's activity, two steps below it, hands down its title. -/
theorem hierarchy_walks_agree_mid :
    let title : Member := ⟨"title", .field (.declared ⟨"android.view.View"⟩), [], some (.view 2)⟩
    let screen : Component := ⟨⟨"a.Main"⟩, "a", .«class», some ⟨"a.Mid"⟩, some 1, []⟩
    let source := ((Declarations.ofComponents [screen]).withType ⟨"a.Mid"⟩ ⟨"android.app.Activity"⟩
      |>.withTypeMembers ⟨"a.Mid"⟩ [title]).toSource
    source.ascend .standard screen.name ⟨"android.app.Activity"⟩ = .reached 2 ∧
      source.TakesPart .standard screen 0 ⟨"a.Mid"⟩ ∧ title ∈ source.members .standard screen := by
  intro title screen source
  have hreached : source.ascend .standard screen.name ⟨"android.app.Activity"⟩ = .reached 2 := by
    decide +kernel
  obtain ⟨n, hn, hup⟩ := hierarchy_walks_agree.2 source .standard screen (by decide +kernel)
  obtain rfl : 2 = n := Ascent.reached.inj (hreached.symm.trans hn)
  obtain ⟨type, htype, hpart⟩ := hup 0 (by omega)
  obtain rfl : ⟨"a.Mid"⟩ = type := by
    have hmid : baseAt source.superType 1 screen.name = some ⟨"a.Mid"⟩ := by decide +kernel
    exact Option.some.inj (hmid.symm.trans htype)
  refine ⟨hreached, hpart, ?_⟩
  exact hpart.mem_members title (by decide +kernel) rfl (by decide +kernel)

end ViewWiring
