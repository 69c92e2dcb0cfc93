import ViewWiring.Binding.Build
import ViewWiring.Proofs.Inheritance.Intermediate
import ViewWiring.Proofs.Validation.Notes
import Mathlib.Algebra.Order.BigOperators.Group.List
import Mathlib.Algebra.Order.Group.Nat

namespace ViewWiring

/-- Two validations accept the same component with the same members, and so bind the same, and report
the same but for notes. -/
structure Noted.Alike (r r' : Noted (Option Validated)) : Prop where
  value_eq : r'.value = r.value
  binding_eq : r'.value.map Validated.binding = r.value.map Validated.binding
  diagnostics_eq :
    r'.diagnostics.map Diagnostic.withoutNotes = r.diagnostics.map Diagnostic.withoutNotes

namespace Source

variable {source source' : Source} {config : Config}

/-- `start` is where a walk from base type to base type begins when `c` is validated. -/
def Walks (source : Source) (config : Config) (c : Component) (start : TypeName) : Prop :=
  (c.kind = .«class» ∧ start = c.name) ∨
    (source.componentFault config c = none ∧
      ∃ m ∈ source.members config c, m.viewClass? = some start)

section Walks

variable {c : Component}

theorem mem_of_walks {start : TypeName} (h : source.Walks config c start) :
    start ∈ c.name :: (source.members config c).filterMap Member.viewClass? := by
  obtain ⟨-, rfl⟩ | ⟨-, m, hm, hclass⟩ := h
  · exact List.mem_cons_self
  · exact List.mem_cons_of_mem _ (List.mem_filterMap.mpr ⟨m, hm, hclass⟩)

/-- The walks close if the chains of a component and of the classes its members need all end. -/
theorem closesWithin_of_walks {n : Nat} (hn : n < config.maxDepth)
    (h : ∀ start ∈ c.name :: (source.members config c).filterMap Member.viewClass?,
      baseAt source.superType (n + 1) start = none) :
    ∀ start, source.Walks config c start →
      ClosesWithin source.superType start config.maxDepth := by
  intro start hstart
  exact ⟨n, hn, .inl (h start (mem_of_walks hstart))⟩

end Walks

/-- A source that knows what another one knows, and besides of a type `mid` between `lower` and its
parent `upper`, which is neither looked for nor declares anything. -/
structure Inserts (config : Config) (source source' : Source) (lower mid upper : TypeName) :
    Prop where
  puts : Puts source.superType source'.superType lower mid upper
  declaredMembers_eq : source'.declaredMembers = source.declaredMembers
  declaredMembers_mid : source.declaredMembers mid = []
  activity_ne : config.platform.activity ≠ mid
  view_ne : config.platform.view ≠ mid

/-- What validation of an accepted component comes to, member by member. -/
theorem alike_of_isSome {c : Component}
    (hsound : source.componentFault config c = none)
    (hsound' : source'.componentFault config c = none)
    (hmembers : source'.members config c = source.members config c)
    (hnotes : ∀ m ∈ source.members config c,
      (source'.viewNote config m).isSome = (source.viewNote config m).isSome) :
    (source.validate config c).Alike (source'.validate config c) := by
  have hkept : (source.members config c).filter (source'.keepsMember config) =
      (source.members config c).filter (source.keepsMember config) :=
    List.filter_congr fun m hm => keepsMember_eq_of_isSome (hnotes m hm)
  have hreported : (source.members config c).flatMap
        (fun m => (source'.memberDiagnostics config c m).map Diagnostic.withoutNotes) =
      (source.members config c).flatMap
        fun m => (source.memberDiagnostics config c m).map Diagnostic.withoutNotes :=
    List.flatMap_congr fun m hm => map_withoutNotes_memberDiagnostics c (hnotes m hm)
  constructor
  · simp [validate_eq, hsound, hsound', hmembers, hkept]
  · simp [validate_eq, hsound, hsound', hmembers, hkept]
  · simp only [validate_eq, hsound, hsound', hmembers, List.map_flatMap]
    exact hreported

theorem inheritedAlong_filter_ne {declared : TypeName → List Member} {mid : TypeName}
    (hmid : declared mid = []) (own : List Member) (types : List TypeName) :
    inheritedAlong declared own (types.filter fun type => decide (type ≠ mid)) =
      inheritedAlong declared own types := by
  induction types generalizing own with
  | nil => rfl
  | cons type types ih =>
    by_cases htype : type = mid
    · subst htype
      rw [List.filter_cons_of_neg (by simp), ih]
      simp [inheritedAlong, hmid]
    · rw [List.filter_cons_of_pos (by simp [htype]), inheritedAlong, inheritedAlong, ih]

namespace Inserts

variable {lower mid upper : TypeName} {c : Component}

theorem members_eq (h : Inserts config source source' lower mid upper) (hc : c.name ≠ mid)
    (hclosed : ClosesWithin source'.superType c.name config.maxDepth) :
    source'.members config c = source.members config c := by
  rw [members, members, h.declaredMembers_eq, ← h.puts.filter_ancestors hc hclosed,
    inheritedAlong_filter_ne h.declaredMembers_mid]

theorem componentFault_eq_none_iff (h : Inserts config source source' lower mid upper)
    (hc : c.name ≠ mid)
    (hclosed : c.kind = .«class» → ClosesWithin source'.superType c.name config.maxDepth) :
    source'.componentFault config c = none ↔ source.componentFault config c = none := by
  rw [Source.componentFault_eq_none_iff, Source.componentFault_eq_none_iff, Bindable, Bindable,
    ← ascend_isReached_iff, ← ascend_isReached_iff]
  exact and_congr_right fun hkind => h.puts.isReached_iff hc h.activity_ne (hclosed hkind)

/-- Other classes are views as before, and the new one is if its base is. -/
theorem isView_iff (h : Inserts config source source' lower mid upper) {name : TypeName}
    (hclosed : ClosesWithin source'.superType name config.maxDepth) :
    source'.IsView config name ↔
      source.IsView config name ∨ (name = mid ∧ source.IsView config upper) := by
  by_cases hname : name = mid
  · subst hname
    have hbefore : ¬source.IsView config name := by
      rw [← isReached_view_iff, Source.ascend, h.puts.not_isReached_mid h.view_ne]
      exact Bool.false_ne_true
    rw [← isReached_view_iff, Source.ascend, h.puts.isReached_mid_iff h.view_ne hclosed]
    simp [hbefore, ← isReached_view_iff source config upper, Source.ascend]
  · rw [← isReached_view_iff, Source.ascend, h.puts.isReached_iff hname h.view_ne hclosed]
    simp [hname, ← isReached_view_iff source config name, Source.ascend]

theorem alike_of_rejected (h : Inserts config source source' lower mid upper) (hc : c.name ≠ mid)
    (hclosed : c.kind = .«class» → ClosesWithin source'.superType c.name config.maxDepth)
    {fault : Component.Fault} (hfault : source.componentFault config c = some fault) :
    (source.validate config c).Alike (source'.validate config c) := by
  have hsome : source'.componentFault config c ≠ none := by
    rw [ne_eq, h.componentFault_eq_none_iff hc hclosed, hfault]
    simp
  obtain ⟨fault', hfault'⟩ := Option.ne_none_iff_exists'.mp hsome
  have hsame := withoutNotes_of_componentFault hfault hfault'
  constructor <;> simp [validate_eq, hfault, hfault', hsame]

/-- Where the new type is asked for and turns out to be a view, there is less to report. -/
theorem not_alike_of_walks (h : Inserts config source source' lower mid upper)
    (hsound : source.componentFault config c = none)
    (hsound' : source'.componentFault config c = none)
    (hmembers : source'.members config c = source.members config c)
    (hclosed : ∀ start, source'.Walks config c start →
      ClosesWithin source'.superType start config.maxDepth)
    (hview : source.IsView config upper) {m : Member} (hm : m ∈ source.members config c)
    (hmid : m.viewClass? = some mid) :
    ¬(source.validate config c).Alike (source'.validate config c) := by
  have hmember : ∀ m ∈ source.members config c, ∀ name, m.viewClass? = some name →
      (source'.IsView config name ↔
        source.IsView config name ∨ (name = mid ∧ source.IsView config upper)) := by
    intro m hm name hname
    exact h.isView_iff (hclosed name (.inr ⟨hsound', m, hmembers ▸ hm, hname⟩))
  have hle : ∀ m ∈ source.members config c,
      (source'.memberDiagnostics config c m).length ≤
        (source.memberDiagnostics config c m).length := by
    intro m hm
    obtain ⟨count, hcount⟩ := length_memberFaults config m
    rw [memberDiagnostics, memberDiagnostics, List.length_map, List.length_map, hcount, hcount]
    cases hn' : (source'.viewNote config m).isSome with
    | false => simp
    | true =>
      obtain ⟨name, hname, hnot⟩ := isSome_viewNote_iff.mp hn'
      have hnot' : ¬source.IsView config name := fun hv => hnot ((hmember m hm name hname).mpr (.inl hv))
      rw [isSome_viewNote_iff.mpr ⟨name, hname, hnot'⟩]
  have hlt : (source'.memberDiagnostics config c m).length <
      (source.memberDiagnostics config c m).length := by
    obtain ⟨count, hcount⟩ := length_memberFaults config m
    have hbefore : (source.viewNote config m).isSome = true := by
      refine isSome_viewNote_iff.mpr ⟨mid, hmid, ?_⟩
      rw [← isReached_view_iff, Source.ascend, h.puts.not_isReached_mid h.view_ne]
      exact Bool.false_ne_true
    have hafter : (source'.viewNote config m).isSome = false := by
      rw [Bool.eq_false_iff, ne_eq, isSome_viewNote_iff]
      rintro ⟨name, hname, hnot⟩
      obtain rfl : mid = name := Option.some.inj (hmid.symm.trans hname)
      exact hnot ((hmember m hm mid hmid).mpr (.inr ⟨rfl, hview⟩))
    rw [memberDiagnostics, memberDiagnostics, List.length_map, List.length_map, hcount, hcount,
      hbefore, hafter]
    simp
  intro halike
  have hlength := congrArg List.length halike.diagnostics_eq
  have hfewer := List.sum_lt_sum _ _ hle ⟨m, hm, hlt⟩
  simp [validate_eq, hsound, hsound', hmembers, List.length_flatMap] at hlength
  omega

/-- The new type makes no difference to a component, unless it is asked for as a view and its base is
one. -/
theorem alike_iff (h : Inserts config source source' lower mid upper) (hc : c.name ≠ mid)
    (hclosed : ∀ start, source'.Walks config c start →
      ClosesWithin source'.superType start config.maxDepth) :
    (source.validate config c).Alike (source'.validate config c) ↔
      (source.IsView config upper → ¬source.Walks config c mid) := by
  have hown : c.kind = .«class» → ClosesWithin source'.superType c.name config.maxDepth :=
    fun hkind => hclosed c.name (.inl ⟨hkind, rfl⟩)
  have hname : ¬(c.kind = .«class» ∧ mid = c.name) := fun he => hc he.2.symm
  cases hfault : source.componentFault config c with
  | some fault =>
    have halike := h.alike_of_rejected hc hown hfault
    simp [halike, Walks, hname, hfault]
  | none =>
    have hfault' := (h.componentFault_eq_none_iff hc hown).mpr hfault
    have hkind := ((source.componentFault_eq_none_iff config).mp hfault).1
    have hmembers := h.members_eq hc (hown hkind)
    constructor
    · rintro halike hview (he | ⟨-, m, hm, hmid⟩)
      · exact hname he
      · exact h.not_alike_of_walks hfault hfault' hmembers hclosed hview hm hmid halike
    · intro hspared
      refine alike_of_isSome hfault hfault' hmembers ?_
      intro m hm
      rw [Bool.eq_iff_iff, isSome_viewNote_iff, isSome_viewNote_iff]
      refine exists_congr fun name => and_congr_right fun hclass => not_congr ?_
      rw [h.isView_iff (hclosed name (.inr ⟨hfault', m, hmembers ▸ hm, hclass⟩)), or_iff_left]
      rintro ⟨rfl, hview⟩
      exact hspared hview (.inr ⟨hfault, m, hm, hclass⟩)

end Inserts

end Source

namespace Declarations

/-- Nothing was known of the type: it is neither declared nor the platform's, declares no members,
is no base, and is not one of the two types that validation looks for. -/
structure Fresh (d : Declarations) (config : Config) (name : TypeName) : Prop where
  parents_lookup : d.parents.lookup name = none
  notComponent : ∀ c ∈ d.components, c.name ≠ name
  platform_eq : Platform.superType name = none
  declaredMembers_eq : d.declaredMembers name = []
  notBase : ∀ type, d.superType type ≠ some name
  activity_ne : config.platform.activity ≠ name
  view_ne : config.platform.view ≠ name

variable {d : Declarations} {config : Config} {lower mid upper : TypeName}

theorem Fresh.superType_eq (h : d.Fresh config mid) : d.superType mid = none := by
  rw [superType, h.parents_lookup, component?_eq_none_iff.mpr h.notComponent, h.platform_eq]
  rfl

/-- A type that no entry, no component and no part of the platform's hierarchy mentions is fresh. -/
theorem fresh_of_unmentioned (hparents : ∀ entry ∈ d.parents, entry.1 ≠ mid ∧ entry.2 ≠ mid)
    (hcomponents : ∀ c ∈ d.components, c.name ≠ mid ∧ c.base ≠ some mid)
    (htypes : ∀ entry ∈ d.typeMembers, entry.1 ≠ mid)
    (hplatform : ∀ entry ∈ Platform.baseTypes, entry.1 ≠ mid.text ∧ entry.2 ≠ mid.text)
    (hactivity : config.platform.activity ≠ mid) (hview : config.platform.view ≠ mid) :
    d.Fresh config mid where
  parents_lookup := by
    rw [List.lookup_eq_none_iff]
    intro entry he
    simpa using (hparents entry he).1.symm
  notComponent c hc := (hcomponents c hc).1
  platform_eq := by
    rw [Platform.superType, Option.map_eq_none_iff, List.lookup_eq_none_iff]
    intro entry he
    simpa using (hplatform entry he).1.symm
  declaredMembers_eq := by
    have hlookup : d.typeMembers.lookup mid = none := by
      rw [List.lookup_eq_none_iff]
      intro entry he
      simpa using (htypes entry he).symm
    have hcomponent : d.component? mid = none :=
      component?_eq_none_iff.mpr fun c hc => (hcomponents c hc).1
    rw [declaredMembers, hlookup, hcomponent]
    rfl
  notBase := by
    intro type h
    obtain h | ⟨c, hc, h⟩ | h := superType_cases h
    · exact (hparents _ h).2 rfl
    · exact (hcomponents c hc).2 h
    · obtain ⟨base, hbase, rfl⟩ := Option.map_eq_some_iff.mp h
      obtain ⟨before, after, he, -⟩ := List.lookup_eq_some_iff.mp hbase
      exact (hplatform (type.text, base) (by simp [he])).2 rfl
  activity_ne := hactivity
  view_ne := hview

/-- A type entered between another one and its parent is there for all walks. -/
theorem inserts_withType (hbase : d.superType lower = some upper) (h : d.Fresh config mid) :
    Source.Inserts config d.toSource ((d.withType lower mid).withType mid upper).toSource lower mid
      upper where
  puts := by
    have hne : lower ≠ mid := by
      rintro rfl
      rw [h.superType_eq] at hbase
      cases hbase
    refine ⟨hbase, h.superType_eq, h.notBase, ?_, ?_, ?_⟩
    · simp [toSource, superType_withType, hne]
    · simp [toSource, superType_withType]
    · intro type hlower hmid
      simp [toSource, superType_withType, hlower, hmid]
  declaredMembers_eq := rfl
  declaredMembers_mid := h.declaredMembers_eq
  activity_ne := h.activity_ne
  view_ne := h.view_ne

/-- A fresh type between a type and its parent leaves the validation of every component as it was,
if the walks close within the limit, just when no member that is checked is of that type, or its
parent is no view. -/
theorem intermediate_transparent_iff (hbase : d.superType lower = some upper)
    (hfresh : d.Fresh config mid) {c : Component} (hc : c ∈ d.components)
    (hclosed : ∀ start, ((d.withType lower mid).withType mid upper).toSource.Walks config c start →
      ClosesWithin ((d.withType lower mid).withType mid upper).superType start config.maxDepth) :
    (d.toSource.validate config c).Alike
        (((d.withType lower mid).withType mid upper).toSource.validate config c) ↔
      (d.toSource.IsView config upper → ¬d.toSource.Walks config c mid) :=
  (inserts_withType hbase hfresh).alike_iff (hfresh.notComponent c hc) hclosed

/-- A type between the base of a screen and the platform's activity changes nothing, whether a
member is kept or reported. -/
theorem intermediate_transparent_themed :
    let label : Member := ⟨"label", .field (.declared ⟨"a.Label"⟩), [], some (.view 5)⟩
    let text : Member := ⟨"text", .field (.declared ⟨"java.lang.String"⟩), [], some (.view 6)⟩
    let setup : Member := ⟨"setup", .method [] .void, [], some .afterViews⟩
    let screen : Component :=
      ⟨⟨"a.Main"⟩, "a", .«class», some ⟨"a.Base"⟩, some 1, [label, text]⟩
    let d := (Declarations.ofComponents [screen]).withType ⟨"a.Base"⟩ ⟨"android.app.Activity"⟩
      |>.withType ⟨"a.Label"⟩ ⟨"android.widget.TextView"⟩ |>.withTypeMembers ⟨"a.Base"⟩ [setup]
    let d' := (d.withType ⟨"a.Base"⟩ ⟨"a.Themed"⟩).withType ⟨"a.Themed"⟩ ⟨"android.app.Activity"⟩
    d.superType ⟨"a.Base"⟩ = some ⟨"android.app.Activity"⟩ ∧ d.Fresh .standard ⟨"a.Themed"⟩ ∧
      screen ∈ d.components ∧
      (∀ start, d'.toSource.Walks .standard screen start →
        ClosesWithin d'.superType start Config.standard.maxDepth) ∧
      (d.toSource.validate .standard screen).value = some ⟨screen, [setup, label]⟩ ∧
      (d.toSource.validate .standard screen).diagnostics ≠ [] ∧
      (d.toSource.validate .standard screen).Alike (d'.toSource.validate .standard screen) := by
  intro label text setup screen d d'
  have hbase : d.superType ⟨"a.Base"⟩ = some ⟨"android.app.Activity"⟩ := by decide +kernel
  have hfresh : d.Fresh .standard ⟨"a.Themed"⟩ := by
    apply fresh_of_unmentioned <;> decide +kernel
  have hc : screen ∈ d.components := by decide +kernel
  have hclosed : ∀ start, d'.toSource.Walks .standard screen start →
      ClosesWithin d'.superType start Config.standard.maxDepth :=
    Source.closesWithin_of_walks (show 7 < 64 by decide) (by decide +kernel)
  refine ⟨hbase, hfresh, hc, hclosed, by decide +kernel, by decide +kernel, ?_⟩
  apply (intermediate_transparent_iff hbase hfresh hc hclosed).mpr
  intro _ hwalks
  have hnot : ⟨"a.Themed"⟩ ∉
      screen.name :: (d.toSource.members .standard screen).filterMap Member.viewClass? := by
    decide +kernel
  exact hnot (Source.mem_of_walks hwalks)

/-- A type that a bound field is of is put above another one and becomes a view, and so the field is
kept. -/
theorem inserted_type_becomes_view :
    let field : Member := ⟨"label", .field (.declared ⟨"a.Fancy"⟩), [], some (.view 5)⟩
    let screen : Component :=
      ⟨⟨"a.Main"⟩, "a", .«class», some ⟨"android.app.Activity"⟩, some 1, [field]⟩
    let d := (Declarations.ofComponents [screen]).withType ⟨"a.Label"⟩ ⟨"android.view.View"⟩
    let d' := (d.withType ⟨"a.Label"⟩ ⟨"a.Fancy"⟩).withType ⟨"a.Fancy"⟩ ⟨"android.view.View"⟩
    d.superType ⟨"a.Label"⟩ = some ⟨"android.view.View"⟩ ∧ d.Fresh .standard ⟨"a.Fancy"⟩ ∧
      screen ∈ d.components ∧
      (∀ start, d'.toSource.Walks .standard screen start →
        ClosesWithin d'.superType start Config.standard.maxDepth) ∧
      (d.toSource.validate .standard screen).value = some ⟨screen, []⟩ ∧
      (d'.toSource.validate .standard screen).value = some ⟨screen, [field]⟩ ∧
      ¬(d.toSource.validate .standard screen).Alike (d'.toSource.validate .standard screen) := by
  intro field screen d d'
  have hold : (d.toSource.validate .standard screen).value = some ⟨screen, []⟩ := by
    decide +kernel
  have hnew : (d'.toSource.validate .standard screen).value = some ⟨screen, [field]⟩ := by
    decide +kernel
  refine ⟨by decide +kernel, by apply fresh_of_unmentioned <;> decide +kernel, by decide +kernel,
    Source.closesWithin_of_walks (show 7 < 64 by decide) (by decide +kernel), hold, hnew, ?_⟩
  intro halike
  have hsame := halike.value_eq
  rw [hold, hnew] at hsame
  simp [field] at hsame

end Declarations

end ViewWiring
