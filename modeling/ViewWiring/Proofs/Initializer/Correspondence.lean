import ViewWiring.Proofs.Initializer.Statements
import ViewWiring.Proofs.Validation.Outcome
import ViewWiring.Proofs.Validation.Policy
import ViewWiring.Source.Declarations
import Mathlib.Algebra.Ring.Nat
import Mathlib.Data.List.Forall2

namespace ViewWiring

open Code

namespace Member

def hasViewId (m : Member) : Bool :=
  match m.directive with
  | some (.view _) => true
  | _ => false

def isHook (m : Member) : Bool :=
  match m.directive with
  | some .afterViews => true
  | _ => false

theorem hasViewId_iff {m : Member} : m.hasViewId = true ↔ ∃ id, m.directive = some (.view id) := by
  unfold hasViewId
  split
  · rename_i id hd
    simp [hd]
  · rename_i hn
    simpa using hn

theorem isHook_iff {m : Member} : m.isHook = true ↔ m.directive = some .afterViews := by
  unfold isHook
  split
  · rename_i hd
    simp [hd]
  · rename_i hn
    simpa using hn

/-- If something is bound of the picked members and of no others, what is bound stands beside them in
their order. -/
theorem forall₂_filterMap {β : Type} {bind : Member → Option β} {picks : Member → Bool}
    {R : Member → β → Prop} {members : List Member}
    (hpicked : ∀ m ∈ members, picks m = true → ∃ b, bind m = some b ∧ R m b)
    (hbound : ∀ m ∈ members, ∀ b, bind m = some b → picks m = true) :
    List.Forall₂ R (members.filter picks) (members.filterMap bind) := by
  induction members with
  | nil => exact .nil
  | cons m members ih =>
    obtain ⟨hm, hrest⟩ := List.forall_mem_cons.mp hpicked
    obtain ⟨hm', hrest'⟩ := List.forall_mem_cons.mp hbound
    cases hb : bind m with
    | none =>
      have hp : ¬picks m = true := by
        intro hp
        obtain ⟨b, hsome, -⟩ := hm hp
        simp [hb] at hsome
      rw [List.filter_cons_of_neg hp, List.filterMap_cons_none hb]
      exact ih hrest hrest'
    | some b =>
      have hp : picks m = true := hm' b hb
      obtain ⟨b', hsome, hr⟩ := hm hp
      obtain rfl : b = b' := by simpa [hb] using hsome
      rw [List.filter_cons_of_pos hp, List.filterMap_cons_some hb]
      exact .cons hr (ih hrest hrest')

/-- The ids that a handler listens on; none for other members. -/
def clickIds (m : Member) : List Int :=
  match m.directive with
  | some (.click ids) => ids
  | _ => []

/-- Each handler with each of its ids. -/
def clicks (members : List Member) : List (Member × Int) :=
  members.flatMap fun m => m.clickIds.map fun id => (m, id)

end Member

namespace Code

/-- The view of a field is looked up under its id and stored, cast to the class of the field, in
the field or in a new variable of its name. -/
inductive Statement.LooksUp (config : Config) (m : Member) : Statement → Prop
  | assign {id : Int} {type : TypeName} (hd : m.directive = some (.view id))
    (hs : m.shape = .field (.declared type)) (hstyle : config.viewStyle = .assignField) :
    LooksUp config m (.assign m.name (.cast (ClassRef.ofType type) (findView id)))
  | declare {id : Int} {type : TypeName} (hd : m.directive = some (.view id))
    (hs : m.shape = .field (.declared type)) (hstyle : config.viewStyle = .declareLocal) :
    LooksUp config m
      (.declare (ClassRef.ofType type) m.name (.cast (ClassRef.ofType type) (findView id)))

/-- What a listener hands to a handler: the clicked view, cast if the handler has one parameter and
that is of another class than the platform's view. -/
inductive Expr.PassesView (config : Config) (m : Member) : Expr → Prop
  | cast {type : TypeName} {returns : TypeRef} (hs : m.shape = .method [.declared type] returns)
    (hne : type ≠ config.platform.view) :
    PassesView config m (.cast (ClassRef.ofType type) (.ident clickedViewName))
  | plain (h : ∀ type returns, m.shape = .method [.declared type] returns →
      type = config.platform.view) :
    PassesView config m (.ident clickedViewName)

/-- A listener is set on the view of the id, and all that it does on a click is to call the
handler. -/
inductive Statement.ListensOn (config : Config) (m : Member) (id : Int) : Statement → Prop
  | onClick {arg : Expr} (harg : arg.PassesView config m) :
    ListensOn config m id (.expr (.call (some (findView id)) "setOnClickListener"
      [.new ((ClassRef.ofType config.platform.view).nested "OnClickListener")
        [{ name := onClickName
           annotations := [overrideRef]
           modifiers := [.«public»]
           returns := .void
           params := [⟨ClassRef.ofType config.platform.view, clickedViewName⟩]
           sections := [[.expr (.call none m.name [arg])]] }]]))

/-- The method overrides the one that sets a screen up: it hands its parameter on, sets the layout
and then does what the directives of the members ask, once for each: first all lookups, then all
hooks, then all clicks, handler by handler and id by id. -/
def Method.Realizes (config : Config) (layout : Int) (members : List Member) (m : Method) : Prop :=
  ∃ (parameter : Parameter) (lookups listeners : List Statement),
    m.name = onCreateName ∧ m.params = [parameter] ∧
    m.statements =
      [.expr (.call (some .super) onCreateName [.ident parameter.name]),
        .expr (.call none "setContentView" [.int layout])] ++
      lookups ++
      (members.filter Member.isHook).map (fun hook => .expr (.call none hook.name [])) ++
      listeners ∧
    List.Forall₂ (Statement.LooksUp config) (members.filter Member.hasViewId) lookups ∧
    List.Forall₂ (fun click => Statement.ListensOn config click.1 click.2)
      (Member.clicks members) listeners

theorem Method.Realizes.length_statements {config : Config} {layout : Int} {members : List Member}
    {m : Method} (h : m.Realizes config layout members) :
    m.statements.length =
      2 + members.countP Member.hasViewId + members.countP Member.isHook +
        (members.map fun m => m.clickIds.length).sum := by
  obtain ⟨parameter, lookups, listeners, -, -, hs, hlookups, hlisteners⟩ := h
  have hviews : lookups.length = members.countP Member.hasViewId := by
    rw [← hlookups.length_eq, List.countP_eq_length_filter]
  have hclicks : listeners.length = (members.map fun m => m.clickIds.length).sum := by
    rw [← hlisteners.length_eq, Member.clicks, List.length_flatMap]
    simp only [List.length_map]
  simp only [hs, List.length_append, List.length_map, hviews, hclicks,
    List.countP_eq_length_filter, List.length_cons, List.length_nil]

end Code

namespace ComponentBinding

variable (config : Config) {members : List Member}

theorem looksUp_viewLookup {m : Member} {id : Int} {type : TypeName}
    (hd : m.directive = some (.view id)) (hs : m.shape = .field (.declared type)) :
    (viewLookup config ⟨id, m.name, type⟩).LooksUp config m := by
  unfold viewLookup
  cases hstyle : config.viewStyle with
  | assignField => exact .assign hd hs hstyle
  | declareLocal => exact .declare hd hs hstyle

theorem passesView_clickArgument (m : Member) (ids : List Int) :
    (clickArgument config ⟨m.name, ids, m.onlyParam?⟩).PassesView config m := by
  have honly : ∀ type returns, m.shape = .method [.declared type] returns →
      m.onlyParam? = some type :=
    fun type returns hs => Member.onlyParam?_eq_some_iff.mpr ⟨returns, hs⟩
  unfold clickArgument
  cases hp : m.onlyParam? with
  | none =>
    apply Expr.PassesView.plain
    intro type returns hs
    simp [honly type returns hs] at hp
  | some type =>
    obtain ⟨returns, hs⟩ := Member.onlyParam?_eq_some_iff.mp hp
    by_cases ht : type = config.platform.view
    · simp only [ht, if_true]
      apply Expr.PassesView.plain
      intro type' returns' hs'
      have hsame : type = type' ∧ returns = returns' := by simpa [hs] using hs'
      exact hsame.1 ▸ ht
    · simp only [ht, if_false]
      exact .cast hs ht

theorem listensOn_clickListener (m : Member) (ids : List Int) (id : Int) :
    (clickListener config ⟨m.name, ids, m.onlyParam?⟩ id).ListensOn config m id :=
  .onClick (passesView_clickArgument config m ids)

/-- No member with a view id is passed over if all of them are fields of a class. -/
theorem looksUp_views
    (h : ∀ m ∈ members, ∀ id, m.directive = some (.view id) →
      ∃ type, m.shape = .field (.declared type)) :
    List.Forall₂ (Statement.LooksUp config) (members.filter Member.hasViewId)
      ((members.filterMap Member.viewBinding?).map (viewLookup config)) := by
  rw [List.forall₂_map_right_iff]
  apply Member.forall₂_filterMap
  · intro m hm hid
    obtain ⟨id, hd⟩ := Member.hasViewId_iff.mp hid
    obtain ⟨type, hs⟩ := h m hm id hd
    have hview : m.viewBinding? = some ⟨id, m.name, type⟩ :=
      Member.viewBinding?_eq_some_iff.mpr ⟨id, type, hd, hs, rfl⟩
    exact ⟨_, hview, looksUp_viewLookup config hd hs⟩
  · intro m _ view hview
    obtain ⟨id, -, hd, -⟩ := Member.viewBinding?_eq_some_iff.mp hview
    exact Member.hasViewId_iff.mpr ⟨id, hd⟩

theorem map_hookCall_hooks :
    (members.filterMap Member.hook?).map hookCall =
      (members.filter Member.isHook).map fun m => .expr (.call none m.name []) := by
  have hnames : List.Forall₂ (fun m hook => m.name = hook) (members.filter Member.isHook)
      (members.filterMap Member.hook?) := by
    apply Member.forall₂_filterMap
    · intro m _ his
      exact ⟨_, Member.hook?_eq_some_iff.mpr ⟨Member.isHook_iff.mp his, rfl⟩, rfl⟩
    · intro m _ hook hhook
      exact Member.isHook_iff.mpr (Member.hook?_eq_some_iff.mp hhook).1
  rw [← List.forall₂_map_left_iff, List.forall₂_eq_eq_eq] at hnames
  rw [← hnames, List.map_map]
  rfl

theorem listeners_of_clickBinding? (m : Member) :
    m.clickBinding?.toList.flatMap (clickListeners config) =
      m.clickIds.map fun id => clickListener config ⟨m.name, m.clickIds, m.onlyParam?⟩ id := by
  unfold Member.clickBinding?
  split
  · rename_i ids hd
    simp [clickListeners, Member.clickIds, hd]
  · rename_i hn
    have hids : m.clickIds = [] := by
      unfold Member.clickIds
      split
      · rename_i ids hd
        exact absurd hd (hn ids)
      · rfl
    simp [hids]

theorem listensOn_clicks :
    List.Forall₂ (fun click => Statement.ListensOn config click.1 click.2) (Member.clicks members)
      ((members.filterMap Member.clickBinding?).flatMap (clickListeners config)) := by
  have hlisteners : (members.filterMap Member.clickBinding?).flatMap (clickListeners config) =
      (Member.clicks members).map fun click =>
        clickListener config ⟨click.1.name, click.1.clickIds, click.1.onlyParam?⟩ click.2 := by
    rw [List.filterMap_eq_flatMap_toList, List.flatMap_assoc, Member.clicks, List.map_flatMap]
    simp only [listeners_of_clickBinding?, List.map_map]
    rfl
  rw [hlisteners, List.forall₂_map_right_iff, List.forall₂_same]
  intro click hclick
  exact listensOn_clickListener config click.1 click.1.clickIds click.2

theorem realizes_onCreate (layout : Int) {v : Validated}
    (h : ∀ m ∈ v.members, ∀ id, m.directive = some (.view id) →
      ∃ type, m.shape = .field (.declared type)) :
    (v.binding.onCreate config layout).Realizes config layout v.members := by
  refine ⟨⟨ClassRef.ofType config.platform.bundle, savedStateName⟩, _, _, rfl, rfl, ?_,
    looksUp_views config h, listensOn_clicks config⟩
  rw [← map_hookCall_hooks]
  simp [onCreate, Method.statements, Validated.binding]

theorem length_onCreate (layout : Int) (b : ComponentBinding) :
    (b.onCreate config layout).statements.length = b.statementCount := by
  have hclicks : (b.clicks.flatMap (clickListeners config)).length =
      (b.clicks.flatMap ClickBinding.ids).length := by
    simp [List.length_flatMap, clickListeners]
  simp only [onCreate, Method.statements, List.flatten_cons, List.flatten_nil, List.append_nil,
    List.length_append, List.length_map, List.length_cons, List.length_nil, hclicks, statementCount]
  omega

end ComponentBinding

namespace Source

variable (source : Source) (config : Config) (c : Component)

/-- A view id on anything but a field of a class is a fault that no policy lets pass. -/
theorem shape_of_keepsMember {m : Member} {id : Int} (hk : source.keepsMember config m = true)
    (hd : m.directive = some (.view id)) : ∃ type, m.shape = .field (.declared type) := by
  have hcalled : m.isCalled = false := by simp [Member.isCalled, hd]
  have hfaults : source.memberFaults config m = [] := by
    obtain hf | ⟨-, hc⟩ := keepsMember_iff.mp hk
    · exact hf
    · simp [hcalled] at hc
  obtain ⟨-, type, hs, -⟩ := (source.memberFaults_eq_nil_iff config).mp hfaults _ hd
  exact ⟨type, hs⟩

/-- Under either policy, the one method generated for an accepted component with a layout realizes
the members that were kept, so that none is left out, added or moved; without a layout nothing is
generated, and that is the only error. -/
theorem onCreate_realizes_members {v : Validated}
    (hv : (source.validate config c).value = some v) :
    (∀ layout, c.layout = some layout →
      ∃ f m, v.binding.sourceFile config = .ok f ∧ f.methods = [m] ∧
        m.Realizes config layout v.members ∧
        m.statements.length =
          2 + v.members.countP Member.hasViewId + v.members.countP Member.isHook +
            (v.members.map fun m => m.clickIds.length).sum ∧
        m.statements.length = v.binding.statementCount) ∧
    (c.layout = none →
      v.binding.sourceFile config = .error
        ⟨.missingLayoutDirective, "'" ++ c.relativeName ++ "' has no layout directive",
          some c.anchor, []⟩) := by
  have hcomponent : v.component = c := source.component_of_validate config c hv
  have hlayout : v.binding.layout = c.layout := congrArg Component.layout hcomponent
  obtain ⟨hnone, hf⟩ | ⟨layout, hsome, hf⟩ := v.binding.sourceFile_cases config
  · constructor
    · intro layout hl
      simp [← hlayout, hnone] at hl
    · intro
      rw [hf, ← hcomponent]
      rfl
  · constructor
    · intro layout' hl
      obtain rfl : layout = layout' := by simpa [← hlayout, hsome] using hl
      have hshapes : ∀ m ∈ v.members, ∀ id, m.directive = some (.view id) →
          ∃ type, m.shape = .field (.declared type) := by
        intro m hm id hd
        rw [source.members_of_validate config c hv, List.mem_filter] at hm
        exact source.shape_of_keepsMember config hm.2 hd
      have hrealizes := ComponentBinding.realizes_onCreate config layout hshapes
      exact ⟨_, _, hf, rfl, hrealizes, hrealizes.length_statements,
        ComponentBinding.length_onCreate config layout v.binding⟩
    · intro hl
      simp [← hlayout, hsome] at hl

/-- Interleaved members under the permissive policy: a private view is left out, a hook with a
parameter is called, and a handler gets one listener for each of its two ids. -/
theorem onCreate_realizes_interleaved :
    let button : TypeRef := .declared ⟨"android.widget.Button"⟩
    let onSend : Member := ⟨"onSend", .method [button] .void, [], some (.click [2, 1])⟩
    let send : Member := ⟨"send", .field button, [], some (.view 1)⟩
    let hidden : Member := ⟨"hidden", .field button, [.«private»], some (.view 3)⟩
    let ready : Member := ⟨"ready", .method [button] .void, [], some .afterViews⟩
    let plain : Member := ⟨"count", .field (.primitive .int), [], none⟩
    let back : Member := ⟨"back", .field button, [], some (.view 0)⟩
    let screen : Component :=
      ⟨⟨"a.Main"⟩, "a", .«class», some ⟨"android.app.Activity"⟩, some 9,
        [onSend, send, hidden, ready, plain, back]⟩
    let source := (Declarations.ofComponents [screen]).toSource
    let config : Config := { Config.standard with signatures := .permissive }
    let v : Validated := ⟨screen, [onSend, send, ready, plain, back]⟩
    (source.validate config screen).value = some v ∧
      ∃ f m, v.binding.sourceFile config = .ok f ∧ f.methods = [m] ∧
        m.Realizes config 9 v.members ∧ m.statements.length = 7 := by
  intro button onSend send hidden ready plain back screen source config v
  have hv : (source.validate config screen).value = some v := by decide +kernel
  obtain ⟨f, m, hf, hm, hrealizes, hlength, -⟩ :=
    (onCreate_realizes_members source config screen hv).1 9 rfl
  exact ⟨hv, f, m, hf, hm, hrealizes, hlength⟩

end Source

end ViewWiring
