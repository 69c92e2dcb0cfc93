import ViewWiring.Source.Declarations
import ViewWiring.Validation
import Mathlib.Data.List.Basic

namespace ViewWiring

namespace Member

/-- Some of the members declared nearer hides or overrides `m`. -/
def isHiddenBy (m : Member) (nearer : List Member) : Bool := nearer.any fun v => v.overrides m

theorem overrideKey_of_field {m : Member} {type : TypeRef} (h : m.shape = .field type) :
    m.overrideKey = (m.name, none) := by
  rw [overrideKey, h]

theorem overrideKey_of_method {m : Member} {params : List TypeRef} {returns : TypeRef}
    (h : m.shape = .method params returns) : m.overrideKey = (m.name, some params) := by
  rw [overrideKey, h]

theorem overrides_iff {m other : Member} :
    m.overrides other = true ↔ m.overrideKey = other.overrideKey := by
  simp [overrides]

theorem isHiddenBy_iff {m : Member} {nearer : List Member} :
    m.isHiddenBy nearer = true ↔ m.overrideKey ∈ nearer.map overrideKey := by
  simp [isHiddenBy, overrides_iff]

theorem keys_append_subset {own own' added added' : List Member}
    (ho : own.map overrideKey ⊆ own'.map overrideKey) (ha : added ⊆ added') :
    (own ++ added).map overrideKey ⊆ (own' ++ added').map overrideKey := by
  rw [List.map_append, List.map_append]
  exact List.append_subset.mpr ⟨List.subset_append_of_subset_left _ ho,
    List.subset_append_of_subset_right _ (List.map_subset _ ha)⟩

/-- The members with a directive that get past all those declared nearer. -/
def handedDown (nearer declared : List Member) : List Member :=
  declared.filter fun m => m.directive.isSome && !m.isHiddenBy nearer

theorem mem_handedDown {nearer declared : List Member} {m : Member} :
    m ∈ handedDown nearer declared ↔
      m ∈ declared ∧ m.directive.isSome = true ∧ m.overrideKey ∉ nearer.map overrideKey := by
  rw [handedDown, List.mem_filter, Bool.and_eq_true, Bool.not_eq_true', ← isHiddenBy_iff,
    Bool.not_eq_true]

theorem handedDown_congr {nearer nearer' : List Member} (declared : List Member)
    (h : ∀ key, key ∈ nearer.map overrideKey ↔ key ∈ nearer'.map overrideKey) :
    handedDown nearer declared = handedDown nearer' declared := by
  have hb : ∀ m : Member, m.isHiddenBy nearer = m.isHiddenBy nearer' := by
    intro m
    rw [Bool.eq_iff_iff, isHiddenBy_iff, isHiddenBy_iff]
    exact h m.overrideKey
  simp only [handedDown, hb]

theorem handedDown_sublist {nearer nearer' : List Member} (declared : List Member)
    (h : nearer.map overrideKey ⊆ nearer'.map overrideKey) :
    (handedDown nearer' declared).Sublist (handedDown nearer declared) := by
  apply List.monotone_filter_right
  intro m hm
  rw [Bool.and_eq_true, Bool.not_eq_true', Bool.eq_false_iff, ne_eq, isHiddenBy_iff] at hm ⊢
  exact ⟨hm.1, fun hk => hm.2 (h hk)⟩

theorem handedDown_eq_iff {nearer nearer' : List Member} (declared : List Member)
    (h : nearer.map overrideKey ⊆ nearer'.map overrideKey) :
    handedDown nearer declared = handedDown nearer' declared ↔
      ∀ m ∈ declared, m.directive.isSome = true → m.isHiddenBy nearer' = true →
        m.isHiddenBy nearer = true := by
  constructor
  · intro he m hm hd hh
    by_contra hn
    have hmem : m ∈ handedDown nearer declared :=
      mem_handedDown.mpr ⟨hm, hd, fun hk => hn (isHiddenBy_iff.mpr hk)⟩
    rw [he] at hmem
    exact (mem_handedDown.mp hmem).2.2 (isHiddenBy_iff.mp hh)
  · intro hall
    have hsub := handedDown_sublist declared h
    apply List.filter_congr
    intro m hm
    cases hd : m.directive.isSome with
    | false => rfl
    | true =>
      have hiff : m.isHiddenBy nearer = m.isHiddenBy nearer' := by
        rw [Bool.eq_iff_iff]
        exact ⟨fun hh => isHiddenBy_iff.mpr (h (isHiddenBy_iff.mp hh)), hall m hm hd⟩
      rw [hiff]

end Member

namespace Source

/-- The members that are handed down along `types`, nearest first, to a component that declares
`own`: the last type's come first, and `hides` gives the members of a type on the way that hide
others further up. -/
def inheritedPast (hides declared : TypeName → List Member) (own : List Member)
    (types : List TypeName) : List Member :=
  (types.mapIdx fun i type =>
    Member.handedDown (own ++ (types.take i).flatMap hides) (declared type)).reverse.flatten

theorem append_eq_append_iff_of_sublist {α : Type} {as as' bs bs' : List α}
    (ha : as'.Sublist as) (hb : bs'.Sublist bs) :
    as ++ bs = as' ++ bs' ↔ as = as' ∧ bs = bs' := by
  constructor
  · intro h
    have hl := congrArg List.length h
    rw [List.length_append, List.length_append] at hl
    have hla := ha.length_le
    have hlb := hb.length_le
    exact ⟨(ha.eq_of_length (by omega)).symm, (hb.eq_of_length (by omega)).symm⟩
  · rintro ⟨rfl, rfl⟩
    rfl

section Along

variable {hides hides' : TypeName → List Member} (declared : TypeName → List Member)

theorem inheritedPast_cons (own : List Member) (type : TypeName) (types : List TypeName) :
    inheritedPast hides declared own (type :: types) =
      inheritedPast hides declared (own ++ hides type) types ++
        Member.handedDown own (declared type) := by
  simp [inheritedPast, List.mapIdx_cons]

theorem inheritedPast_congr {own own' : List Member} (types : List TypeName)
    (h : ∀ key, key ∈ own.map Member.overrideKey ↔ key ∈ own'.map Member.overrideKey) :
    inheritedPast hides declared own types = inheritedPast hides declared own' types := by
  have he : ∀ i type, Member.handedDown (own ++ (types.take i).flatMap hides) (declared type) =
      Member.handedDown (own' ++ (types.take i).flatMap hides) (declared type) := by
    intro i type
    apply Member.handedDown_congr
    intro key
    rw [List.map_append, List.map_append, List.mem_append, List.mem_append, h key]
  simp only [inheritedPast, he]

theorem inheritedPast_sublist {own own' : List Member} (types : List TypeName)
    (ho : own.map Member.overrideKey ⊆ own'.map Member.overrideKey)
    (hh : ∀ type, hides type ⊆ hides' type) :
    (inheritedPast hides' declared own' types).Sublist
      (inheritedPast hides declared own types) := by
  induction types generalizing own own' with
  | nil => simp [inheritedPast]
  | cons type types ih =>
    rw [inheritedPast_cons, inheritedPast_cons]
    apply List.Sublist.append
    · exact ih (Member.keys_append_subset ho (hh type))
    · exact Member.handedDown_sublist (declared type) ho

/-- Two readings of who hides agree along a chain iff they agree at each type on it. -/
theorem inheritedPast_eq_iff {own own' : List Member} (types : List TypeName)
    (ho : own.map Member.overrideKey ⊆ own'.map Member.overrideKey)
    (hh : ∀ type, hides type ⊆ hides' type) :
    inheritedPast hides declared own types = inheritedPast hides' declared own' types ↔
      ∀ i type, types[i]? = some type → ∀ m ∈ declared type, m.directive.isSome = true →
        m.isHiddenBy (own' ++ (types.take i).flatMap hides') = true →
          m.isHiddenBy (own ++ (types.take i).flatMap hides) = true := by
  induction types generalizing own own' with
  | nil => simp [inheritedPast]
  | cons type types ih =>
    have ho' := Member.keys_append_subset ho (hh type)
    -- the reading that hides more is a sublist at every type, so no type makes up for another
    have htail := inheritedPast_sublist declared types ho' hh
    have hhead := Member.handedDown_sublist (declared type) ho
    rw [inheritedPast_cons, inheritedPast_cons, append_eq_append_iff_of_sublist htail hhead,
      ih ho', Member.handedDown_eq_iff (declared type) ho]
    constructor
    · rintro ⟨hup, hhere⟩ i t hi m hm hd hm'
      cases i with
      | zero =>
        obtain rfl : type = t := by simpa using hi
        simpa using hhere m hm hd (by simpa using hm')
      | succ i =>
        have := hup i t (by simpa using hi) m hm hd
        simpa [List.append_assoc] using this (by simpa [List.append_assoc] using hm')
    · intro hall
      constructor
      · intro i t hi m hm hd hm'
        have := hall (i + 1) t (by simpa using hi) m hm hd
        simpa [List.append_assoc] using this (by simpa [List.append_assoc] using hm')
      · intro m hm hd hm'
        simpa using hall 0 type rfl m hm hd (by simpa using hm')

end Along

def directed (declared : TypeName → List Member) (type : TypeName) : List Member :=
  (declared type).filter fun m => m.directive.isSome

theorem inheritedAlong_eq (declared : TypeName → List Member) (own : List Member)
    (types : List TypeName) :
    inheritedAlong declared own types = inheritedPast (directed declared) declared own types := by
  induction types generalizing own with
  | nil => simp [inheritedAlong, inheritedPast]
  | cons type types ih =>
    -- a member with a directive that is not kept is hidden by one of its own key
    have hkeys : ∀ key, key ∈ (own ++ Member.handedDown own (declared type)).map Member.overrideKey ↔
        key ∈ (own ++ directed declared type).map Member.overrideKey := by
      intro key
      simp only [List.map_append, List.mem_append, List.mem_map, Member.mem_handedDown, directed,
        List.mem_filter]
      constructor
      · rintro (h | ⟨m, ⟨hm, hd, -⟩, rfl⟩)
        · exact .inl h
        · exact .inr ⟨m, ⟨hm, hd⟩, rfl⟩
      · rintro (h | ⟨m, ⟨hm, hd⟩, rfl⟩)
        · exact .inl h
        · by_cases hk : m.overrideKey ∈ own.map Member.overrideKey
          · exact .inl (List.mem_map.mp hk)
          · exact .inr ⟨m, ⟨hm, hd, by simpa using hk⟩, rfl⟩
    rw [inheritedPast_cons, ← inheritedPast_congr declared types hkeys, ← ih]
    rfl

variable (source : Source) (config : Config)

/-- The member list as the hiding rule has it: a member with a directive is inherited from a type
unless the component or a type nearer to it declares a member of the same key, whether that one
carries a directive or not. -/
def membersByRule (c : Component) : List Member :=
  inheritedPast source.declaredMembers source.declaredMembers c.members
    (ancestors source.superType c.name config.maxDepth) ++ c.members

/-- Among the types above `c`, members without a directive hide nothing that is not hidden
anyway. -/
def PlainMembersHideNothing (c : Component) : Prop :=
  let types := ancestors source.superType c.name config.maxDepth
  ∀ i type, types[i]? = some type →
    ∀ m ∈ source.declaredMembers type, m.directive.isSome = true →
      m.isHiddenBy (c.members ++ (types.take i).flatMap source.declaredMembers) = true →
        m.isHiddenBy (c.members ++ (types.take i).flatMap (directed source.declaredMembers)) = true

/-- What is inherited is decided by own members and by members with a directive alone, so the
hiding rule holds exactly where plain members of types in between hide nothing more. -/
theorem members_eq_membersByRule_iff (c : Component) :
    source.members config c =
        inheritedPast (directed source.declaredMembers) source.declaredMembers c.members
          (ancestors source.superType c.name config.maxDepth) ++ c.members ∧
      (source.members config c = source.membersByRule config c ↔
        source.PlainMembersHideNothing config c) := by
  have hm : source.members config c =
      inheritedPast (directed source.declaredMembers) source.declaredMembers c.members
        (ancestors source.superType c.name config.maxDepth) ++ c.members := by
    rw [members, inheritedAlong_eq]
  refine ⟨hm, ?_⟩
  rw [hm, membersByRule, List.append_left_inj]
  exact inheritedPast_eq_iff source.declaredMembers _ (List.Subset.refl _)
    fun type => List.filter_subset_self _

/-- A field declared over again without a directive in between is looked up for the type further
up all the same. -/
theorem plain_field_hides_nothing :
    let plain : Member := ⟨"title", .field (.declared ⟨"android.view.View"⟩), [], none⟩
    let bound : Member := { plain with directive := some (.view 5) }
    let screen : Component :=
      { Component.ofName ⟨"a.Main"⟩ with base := some ⟨"a.Mid"⟩, layout := some 1 }
    let source := ((Declarations.ofComponents [screen]).withType ⟨"a.Mid"⟩ ⟨"a.Root"⟩
      |>.withType ⟨"a.Root"⟩ ⟨"android.app.Activity"⟩ |>.withTypeMembers ⟨"a.Mid"⟩ [plain]
      |>.withTypeMembers ⟨"a.Root"⟩ [bound]).toSource
    source.members .standard screen = [bound] ∧ source.membersByRule .standard screen = [] := by
  decide

end Source

end ViewWiring
