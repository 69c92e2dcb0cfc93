import ViewWiring.Proofs.Inheritance.Declarers
import ViewWiring.Proofs.Initializer.Statements
import ViewWiring.Proofs.Validation.Outcome
import ViewWiring.Proofs.Validation.Rules
import Mathlib.Data.List.Nodup

namespace ViewWiring

namespace Member

/-- No member of the list hides or overrides another one of it. -/
def NoneOverridden (members : List Member) : Prop :=
  members.Pairwise fun m m' => m.overrides m' = false

instance (members : List Member) : Decidable (NoneOverridden members) :=
  inferInstanceAs (Decidable (members.Pairwise _))

theorem noneOverridden_iff {members : List Member} :
    NoneOverridden members ↔ (members.map overrideKey).Nodup := by
  rw [NoneOverridden, List.Nodup, List.pairwise_map]
  apply iff_of_eq
  congr 1
  funext m m'
  rw [ne_eq, ← overrides_iff, Bool.not_eq_true]

/-- What is bound for members of different keys differs in `name` if members of one key are all that
it confuses. -/
theorem nodup_filterMap_of_keys {β γ : Type} {members : List Member} {bind : Member → Option β}
    {name : β → γ} (hkeys : (members.map overrideKey).Nodup)
    (h : ∀ m ∈ members, ∀ m' ∈ members, ∀ b, bind m = some b → ∀ b', bind m' = some b' →
      name b = name b' → m.overrideKey = m'.overrideKey) :
    ((members.filterMap bind).map name).Nodup := by
  rw [List.Nodup, List.pairwise_map] at hkeys
  rw [List.Nodup, List.pairwise_map, List.pairwise_filterMap]
  apply hkeys.imp_of_mem
  intro m m' hm hm' hne b hb b' hb' hname
  exact hne (h m hm m' hm' b hb b' hb' hname)

end Member

namespace Source

variable (source : Source) (config : Config) (c : Component)

/-- Members of one key are only met where one type declares both. -/
theorem members_keys_nodup (hown : Member.NoneOverridden c.members)
    (hdeclared : ∀ type, Member.NoneOverridden (source.declaredMembers type)) :
    ((source.members config c).map Member.overrideKey).Nodup := by
  have hblocks : ∀ block ∈ source.memberBlocks config c, (block.map Member.overrideKey).Nodup := by
    intro block hb
    obtain rfl | ⟨type, hsub⟩ := source.mem_memberBlocks config c hb
    · exact Member.noneOverridden_iff.mp hown
    · exact (Member.noneOverridden_iff.mp (hdeclared type)).sublist (hsub.map _)
  have happart : ((source.memberBlocks config c).map (List.map Member.overrideKey)).Pairwise
      List.Disjoint :=
    source.memberBlocks_disjoint config c fun _ _ hk => List.mem_map.mp hk
  rw [← flatten_memberBlocks, List.map_flatten, List.nodup_flatten]
  refine ⟨?_, happart⟩
  intro keys hk
  obtain ⟨block, hb, rfl⟩ := List.mem_map.mp hk
  exact hblocks block hb

variable {source config c}

/-- What the strict policy keeps is told apart by what is bound of it: fields and hooks by their
names, handlers by their names and parameters. -/
theorem binding_distinct (hstrict : config.signatures = .strict)
    (hown : Member.NoneOverridden c.members)
    (hdeclared : ∀ type, Member.NoneOverridden (source.declaredMembers type)) {v : Validated}
    (hv : (source.validate config c).value = some v) :
    (v.binding.views.map ViewBinding.member).Nodup ∧
    v.binding.hooks.Nodup ∧
    (v.binding.clicks.map fun click => (click.handler, click.param)).Nodup := by
  have hmembers := source.members_of_validate config c hv
  have hkeys : (v.members.map Member.overrideKey).Nodup := by
    rw [hmembers]
    exact (source.members_keys_nodup config c hown hdeclared).sublist (List.filter_sublist.map _)
  have hfits : ∀ m ∈ v.members, ∀ d, m.directive = some d → source.Fits config m d := by
    intro m hm
    rw [hmembers, List.mem_filter, source.keepsMember_iff_of_strict config hstrict] at hm
    exact hm.2
  refine ⟨?_, ?_, ?_⟩
  · apply Member.nodup_filterMap_of_keys hkeys
    intro m hm m' hm' view hview view' hview' hname
    obtain ⟨id, type, -, hs, rfl⟩ := Member.viewBinding?_eq_some_iff.mp hview
    obtain ⟨id', type', -, hs', rfl⟩ := Member.viewBinding?_eq_some_iff.mp hview'
    have hname : m.name = m'.name := hname
    rw [Member.overrideKey_of_field hs, Member.overrideKey_of_field hs', hname]
  · have hnames : (v.binding.hooks.map id).Nodup := by
      apply Member.nodup_filterMap_of_keys hkeys
      intro m hm m' hm' hook hhook hook' hhook' hname
      obtain ⟨hd, rfl⟩ := Member.hook?_eq_some_iff.mp hhook
      obtain ⟨hd', rfl⟩ := Member.hook?_eq_some_iff.mp hhook'
      obtain ⟨-, hs⟩ := hfits m hm _ hd
      obtain ⟨-, hs'⟩ := hfits m' hm' _ hd'
      have hname : m.name = m'.name := hname
      rw [Member.overrideKey_of_method hs, Member.overrideKey_of_method hs', hname]
    rwa [List.map_id] at hnames
  · apply Member.nodup_filterMap_of_keys hkeys
    intro m hm m' hm' click hclick click' hclick' hname
    obtain ⟨ids, hd, rfl⟩ := Member.clickBinding?_eq_some_iff.mp hclick
    obtain ⟨ids', hd', rfl⟩ := Member.clickBinding?_eq_some_iff.mp hclick'
    obtain ⟨-, type, hs, -⟩ := hfits m hm _ hd
    obtain ⟨-, type', hs', -⟩ := hfits m' hm' _ hd'
    have hparam : m.onlyParam? = some type := Member.onlyParam?_eq_some_iff.mpr ⟨_, hs⟩
    have hparam' : m'.onlyParam? = some type' := Member.onlyParam?_eq_some_iff.mpr ⟨_, hs'⟩
    simp only [hparam, hparam', Prod.mk.injEq, Option.some.injEq] at hname
    rw [Member.overrideKey_of_method hs, Member.overrideKey_of_method hs', hname.1, hname.2]

/-- A chain that loops back to the component, an overloaded handler, and a field declared over again:
every name is bound once. -/
theorem binding_distinct_loop :
    let view : TypeRef := .declared ⟨"android.view.View"⟩
    let button : TypeRef := .declared ⟨"android.widget.Button"⟩
    let field (name : String) (id : Int) : Member := ⟨name, .field view, [], some (.view id)⟩
    let onTap (param : TypeRef) : Member := ⟨"onTap", .method [param] .void, [], some (.click [1])⟩
    let ready : Member := ⟨"ready", .method [] .void, [], some .afterViews⟩
    let screen : Component :=
      ⟨⟨"a.Main"⟩, "a", .«class», some ⟨"a.Base"⟩, some 1, [field "title" 1, onTap view, ready]⟩
    let d := (Declarations.ofComponents [screen]).withType ⟨"a.Base"⟩ ⟨"android.app.Activity"⟩
      |>.withType ⟨"android.app.Activity"⟩ ⟨"a.Main"⟩
      |>.withTypeMembers ⟨"a.Base"⟩ [ready, field "title" 2, field "back" 3, onTap button]
    let v : Validated :=
      ⟨screen, [field "back" 3, onTap button, field "title" 1, onTap view, ready]⟩
    Config.standard.signatures = .strict ∧ Member.NoneOverridden screen.members ∧
      (∀ type, Member.NoneOverridden (d.toSource.declaredMembers type)) ∧
      (d.toSource.validate .standard screen).value = some v ∧
      (v.binding.views.map ViewBinding.member).Nodup ∧ v.binding.hooks.Nodup ∧
      (v.binding.clicks.map fun click => (click.handler, click.param)).Nodup := by
  intro view button field onTap ready screen d v
  have hown : Member.NoneOverridden screen.members := by decide +kernel
  have hdeclared : ∀ type, Member.NoneOverridden (d.toSource.declaredMembers type) := by
    intro type
    obtain hd | ⟨entry, he, hd⟩ | ⟨c, hc, hd⟩ := d.declaredMembers_cases type
    · simp [Declarations.toSource, hd, Member.NoneOverridden]
    · have hentries : ∀ entry ∈ d.typeMembers, Member.NoneOverridden entry.2 := by decide +kernel
      simpa [Declarations.toSource, hd] using hentries entry he
    · have hcomponents : ∀ c ∈ d.components, Member.NoneOverridden c.members := by decide +kernel
      simpa [Declarations.toSource, hd] using hcomponents c hc
  have hv : (d.toSource.validate .standard screen).value = some v := by decide +kernel
  exact ⟨rfl, hown, hdeclared, hv, binding_distinct rfl hown hdeclared hv⟩

end Source

end ViewWiring
