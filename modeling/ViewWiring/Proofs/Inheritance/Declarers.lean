import ViewWiring.Proofs.Inheritance.Hiding

namespace ViewWiring.Source

section Past

variable {declared : TypeName → List Member}

/-- What each of `types`, nearest first, hands down to a component that declares `own`, the last
type's first. -/
def blocksPast (declared : TypeName → List Member) (own : List Member) (types : List TypeName) :
    List (List Member) :=
  (types.mapIdx fun i type =>
    Member.handedDown (own ++ (types.take i).flatMap (directed declared)) (declared type)).reverse

theorem blocksPast_cons (own : List Member) (type : TypeName) (types : List TypeName) :
    blocksPast declared own (type :: types) =
      blocksPast declared (own ++ directed declared type) types ++
        [Member.handedDown own (declared type)] := by
  simp [blocksPast, List.mapIdx_cons]

theorem overrideKey_notMem_of_mem_blocksPast {own : List Member} {types : List TypeName}
    {block : List Member} (hb : block ∈ blocksPast declared own types) {m : Member}
    (hm : m ∈ block) : m.overrideKey ∉ own.map Member.overrideKey := by
  rw [blocksPast, List.mem_reverse, List.mem_mapIdx] at hb
  obtain ⟨i, hi, rfl⟩ := hb
  have hn := (Member.mem_handedDown.mp hm).2.2
  rw [List.map_append, List.mem_append, not_or] at hn
  exact hn.1

/-- No two types hand down members of one key, since the nearer one hides that of the other, nor
does any of them hand down one of a key that `last` has, if all its keys are known below. -/
theorem blocksPast_apart {own last : List Member} (types : List TypeName)
    (h : last.map Member.overrideKey ⊆ own.map Member.overrideKey) :
    (blocksPast declared own types ++ [last]).Pairwise fun block block' =>
      ∀ m ∈ block, ∀ m' ∈ block', m.overrideKey ≠ m'.overrideKey := by
  induction types generalizing own last with
  | nil => exact List.pairwise_singleton _ _
  | cons type types ih =>
    have hkeys : (Member.handedDown own (declared type)).map Member.overrideKey ⊆
        (own ++ directed declared type).map Member.overrideKey := by
      apply List.map_subset
      intro m hm
      obtain ⟨hd, hs, -⟩ := Member.mem_handedDown.mp hm
      exact List.mem_append_right own (List.mem_filter.mpr ⟨hd, hs⟩)
    rw [List.pairwise_append]
    refine ⟨?_, List.pairwise_singleton _ _, ?_⟩
    · rw [blocksPast_cons]
      exact ih hkeys
    · intro block hb block' hb' m hm m' hm' he
      obtain rfl := List.mem_singleton.mp hb'
      apply overrideKey_notMem_of_mem_blocksPast hb hm
      rw [he]
      exact h (List.mem_map.mpr ⟨m', hm', rfl⟩)

end Past

variable (source : Source) (config : Config) (c : Component)

/-- The members of a component, kept apart by the type that declares them: what each type above
hands down, root-most first, and at last what the component declares itself. -/
def memberBlocks : List (List Member) :=
  blocksPast source.declaredMembers c.members
    (ancestors source.superType c.name config.maxDepth) ++ [c.members]

theorem flatten_memberBlocks : (source.memberBlocks config c).flatten = source.members config c := by
  rw [members, inheritedAlong_eq, memberBlocks, List.flatten_append]
  simp [blocksPast, inheritedPast]

theorem memberBlocks_apart :
    (source.memberBlocks config c).Pairwise fun block block' =>
      ∀ m ∈ block, ∀ m' ∈ block', m.overrideKey ≠ m'.overrideKey :=
  blocksPast_apart _ (List.Subset.refl _)

theorem mem_memberBlocks {block : List Member} (h : block ∈ source.memberBlocks config c) :
    block = c.members ∨ ∃ type, block.Sublist (source.declaredMembers type) := by
  rw [memberBlocks, List.mem_append, List.mem_singleton] at h
  obtain h | rfl := h
  · rw [blocksPast, List.mem_reverse, List.mem_mapIdx] at h
    obtain ⟨i, hi, rfl⟩ := h
    exact .inr ⟨_, List.filter_sublist⟩
  · exact .inl rfl

/-- What is taken from the members of each type, and says of which key it comes, is nowhere taken
twice from different types. -/
theorem memberBlocks_disjoint {α : Type} {take : List Member → List α}
    {key : α → String × Option (List TypeRef)}
    (h : ∀ block, ∀ a ∈ take block, ∃ m ∈ block, m.overrideKey = key a) :
    ((source.memberBlocks config c).map take).Pairwise List.Disjoint := by
  rw [List.pairwise_map]
  apply (source.memberBlocks_apart config c).imp
  intro block block' hkeys a ha ha'
  obtain ⟨m, hm, hk⟩ := h block a ha
  obtain ⟨m', hm', hk'⟩ := h block' a ha'
  exact hkeys m hm m' hm' (hk.trans hk'.symm)

end ViewWiring.Source
