import ViewWiring.Binding.Build
import ViewWiring.Manifest
import ViewWiring.Proofs.Inheritance.Ancestors
import ViewWiring.Proofs.Validation.Outcome
import Mathlib.Data.List.Nodup

namespace ViewWiring

/-- Two bindings look up the same views, call the same hooks and set the same listeners, in the same
order. -/
structure ComponentBinding.WiresAlike (b b' : ComponentBinding) : Prop where
  views_eq : b.views = b'.views
  hooks_eq : b.hooks = b'.hooks
  clicks_eq : b.clicks = b'.clicks

instance (b b' : ComponentBinding) : Decidable (b.WiresAlike b') :=
  decidable_of_iff (b.views = b'.views ∧ b.hooks = b'.hooks ∧ b.clicks = b'.clicks)
    ⟨fun ⟨hv, hh, hc⟩ => ⟨hv, hh, hc⟩, fun ⟨hv, hh, hc⟩ => ⟨hv, hh, hc⟩⟩

theorem Validated.wiresAlike {v v' : Validated} (h : v.members = v'.members) :
    v.binding.WiresAlike v'.binding := by
  constructor <;> simp only [binding, h]

namespace Source

variable (source : Source) (config : Config) {b c : Component}

/-- A component with no members of its own has those of its base, as the source declares them, if all
of these carry a directive: none is passed over, and nothing more hides what lies above. -/
theorem members_eq_of_base (hown : c.members = []) (hbase : source.superType c.name = some b.name)
    (hdirected : ∀ m ∈ source.declaredMembers b.name, m.directive.isSome = true) {n : Nat}
    (hn : n ≤ config.maxDepth) (hend : baseAt source.superType (n + 1) c.name = none) :
    source.members config c =
      source.members config { b with members := source.declaredMembers b.name } := by
  have hkept : ((source.declaredMembers b.name).filter fun m =>
      m.directive.isSome && !([] : List Member).any fun v => v.overrides m) =
        source.declaredMembers b.name := by
    rw [List.filter_eq_self]
    intro m hm
    simp [hdirected m hm]
  rw [members, members, hown, ancestors_eq_cons hbase hend hn, inheritedAlong, hkept,
    List.nil_append, List.append_nil]

theorem validate_withMembers {v : Validated} (hv : (source.validate config b).value = some v)
    (members : List Member) :
    let b' := { b with members := members }
    (source.validate config b').value =
      some ⟨b', (source.members config b').filter (source.keepsMember config)⟩ := by
  intro b'
  have hfault : source.componentFault config b' = source.componentFault config b := rfl
  obtain ⟨fault, hf, hb⟩ | ⟨hf, -⟩ := source.validate_cases config b
  · simp [hb] at hv
  · obtain ⟨fault, hf', -⟩ | ⟨-, hb'⟩ := source.validate_cases config b'
    · simp [← hfault, hf'] at hf
    · rw [hb']

end Source

namespace Declarations

theorem component?_of_mem {d : Declarations} (hd : (d.components.map Component.name).Nodup)
    {c : Component} (hc : c ∈ d.components) : d.component? c.name = some c := by
  cases hf : d.component? c.name with
  | none =>
    have hnone := List.find?_eq_none.mp hf c hc
    simp at hnone
  | some c' =>
    have hname : c'.name = c.name := by simpa using List.find?_some hf
    rw [List.inj_on_of_nodup_map hd (List.mem_of_find?_eq_some hf) hc hname]

/-- Every member of a component or of an entry for a type carries a directive. -/
structure AllDirected (d : Declarations) : Prop where
  components : ∀ c ∈ d.components, ∀ m ∈ c.members, m.directive.isSome = true
  types : ∀ entry ∈ d.typeMembers, ∀ m ∈ entry.2, m.directive.isSome = true

theorem AllDirected.declaredMembers {d : Declarations} (h : d.AllDirected) (name : TypeName) :
    ∀ m ∈ d.declaredMembers name, m.directive.isSome = true := by
  obtain hd | ⟨entry, he, hd⟩ | ⟨c, hc, hd⟩ := d.declaredMembers_cases name
  · simp [hd]
  · rw [hd]
    exact h.types entry he
  · rw [hd]
    exact h.components c hc

variable {d : Declarations} {config : Config} {b c : Component}

/-- A component without members of its own is wired as its base would be with the members that are
declared for the name of the base. These are the base's own, and so the two are wired alike, unless
an entry for a type of that name lists others. -/
theorem subclass_wiresAlike (hnames : (d.components.map Component.name).Nodup)
    (hdirected : d.AllDirected) (hb : b ∈ d.components) (hown : c.members = [])
    (hbase : d.superType c.name = some b.name) {n : Nat} (hn : n ≤ config.maxDepth)
    (hend : baseAt d.superType (n + 1) c.name = none) {vb vc : Validated}
    (hvb : (d.toSource.validate config b).value = some vb)
    (hvc : (d.toSource.validate config c).value = some vc) :
    (∃ v, (d.toSource.validate config
        { b with members := d.declaredMembers b.name }).value = some v ∧
      vc.binding.WiresAlike v.binding) ∧
    ((∀ members, d.typeMembers.lookup b.name = some members → members = b.members) →
      vc.binding.WiresAlike vb.binding) := by
  have hmembers := d.toSource.members_eq_of_base config hown hbase
    (hdirected.declaredMembers b.name) hn hend
  have hc := d.toSource.members_of_validate config c hvc
  constructor
  · refine ⟨_, d.toSource.validate_withMembers config hvb (d.declaredMembers b.name), ?_⟩
    apply Validated.wiresAlike
    rw [hc, hmembers]
    rfl
  · intro hentry
    have hdeclared : d.declaredMembers b.name = b.members := by
      unfold declaredMembers
      cases hl : d.typeMembers.lookup b.name with
      | some members => exact hentry members hl
      | none => simp [component?_of_mem hnames hb]
    have hsame : ({ b with members := d.toSource.declaredMembers b.name } : Component) = b := by
      change ({ b with members := d.declaredMembers b.name } : Component) = b
      rw [hdeclared]
    apply Validated.wiresAlike
    rw [hc, hmembers, hsame, d.toSource.members_of_validate config b hvb]

/-- The subclass takes over what its base declares, and what the base inherits unhidden. -/
theorem subclass_wiresAlike_titled :
    let view (name : String) (id : Int) : Member :=
      ⟨name, .field (.declared ⟨"android.widget.TextView"⟩), [], some (.view id)⟩
    let ready : Member := ⟨"ready", .method [] .void, [], some .afterViews⟩
    let base : Component :=
      ⟨⟨"a.Base"⟩, "a", .«class», some ⟨"a.Root"⟩, some 1, [ready, view "title" 2]⟩
    let screen : Component := ⟨⟨"a.Main"⟩, "a", .«class», some ⟨"a.Base"⟩, some 3, []⟩
    let d := (Declarations.ofComponents [screen, base]).withType ⟨"a.Root"⟩ ⟨"android.app.Activity"⟩
      |>.withTypeMembers ⟨"a.Root"⟩ [view "title" 4, view "toolbar" 5]
    let vb : Validated := ⟨base, [view "toolbar" 5, ready, view "title" 2]⟩
    let vc : Validated := ⟨screen, [view "toolbar" 5, ready, view "title" 2]⟩
    (d.components.map Component.name).Nodup ∧ d.AllDirected ∧ base ∈ d.components ∧
      screen.members = [] ∧ d.superType screen.name = some base.name ∧
      7 ≤ Config.standard.maxDepth ∧ baseAt d.superType 8 screen.name = none ∧
      (d.toSource.validate .standard base).value = some vb ∧
      (d.toSource.validate .standard screen).value = some vc ∧
      vc.binding.WiresAlike vb.binding := by
  intro view ready base screen d vb vc
  have hnames : (d.components.map Component.name).Nodup := by decide +kernel
  have hdirected : d.AllDirected := ⟨by decide +kernel, by decide +kernel⟩
  have hb : base ∈ d.components := by decide +kernel
  have hbase : d.superType screen.name = some base.name := by decide +kernel
  have hn : 7 ≤ Config.standard.maxDepth := by decide
  have hend : baseAt d.superType 8 screen.name = none := by decide +kernel
  have hvb : (d.toSource.validate .standard base).value = some vb := by decide +kernel
  have hvc : (d.toSource.validate .standard screen).value = some vc := by decide +kernel
  have hentry : d.typeMembers.lookup base.name = none := by decide +kernel
  refine ⟨hnames, hdirected, hb, rfl, hbase, hn, hend, hvb, hvc, ?_⟩
  apply (subclass_wiresAlike hnames hdirected hb rfl hbase hn hend hvb hvc).2
  intro members hmembers
  simp [hentry] at hmembers

/-- An entry for a type that is also a component takes the place of the component's members for all
that extend it, but not for the component itself. -/
theorem type_entry_replaces_members :
    let field (name : String) (id : Int) : MemberEntry :=
      ⟨name, .field, some "android.view.View", none, none, [], some id, false, none⟩
    let manifest : Manifest :=
      ⟨[⟨"a.Base", .«class», none, some "android.app.Activity", some 1, [field "title" 1]⟩,
          ⟨"a.Main", .«class», none, some "a.Base", some 2, []⟩],
        [⟨"a.Base", "android.app.Activity", [field "footer" 2]⟩]⟩
    let view (name : String) (id : Int) : Member :=
      ⟨name, .field (.declared ⟨"android.view.View"⟩), [], some (.view id)⟩
    let base : Component :=
      ⟨⟨"a.Base"⟩, "a", .«class», some ⟨"android.app.Activity"⟩, some 1, [view "title" 1]⟩
    let screen : Component := ⟨⟨"a.Main"⟩, "a", .«class», some ⟨"a.Base"⟩, some 2, []⟩
    let vb : Validated := ⟨base, [view "title" 1]⟩
    let vc : Validated := ⟨screen, [view "footer" 2]⟩
    ∃ d, manifest.declarations = .ok d ∧ d.components = [base, screen] ∧ d.AllDirected ∧
      d.superType screen.name = some base.name ∧ baseAt d.superType 7 screen.name = none ∧
      (d.toSource.validate .standard base).value = some vb ∧
      (d.toSource.validate .standard screen).value = some vc ∧
      ¬vc.binding.WiresAlike vb.binding := by
  intro field manifest view base screen vb vc
  refine ⟨(Declarations.ofComponents [base, screen]).withType ⟨"a.Base"⟩ ⟨"android.app.Activity"⟩
    |>.withTypeMembers ⟨"a.Base"⟩ [view "footer" 2], by decide +kernel, rfl,
    ⟨by decide +kernel, by decide +kernel⟩, by decide +kernel, by decide +kernel, by decide +kernel,
    by decide +kernel, by decide +kernel⟩

end Declarations

end ViewWiring
