import ViewWiring.Proofs.Batch.Artifacts
import ViewWiring.Proofs.Initializer.References
import ViewWiring.Proofs.Validation.Rules

namespace ViewWiring

namespace Code

mutual

/-- An expression and all those that it is made of, down into the methods of unnamed classes. -/
def Expr.subexprs : Expr → List Expr
  | .ident name => [.ident name]
  | .int value => [.int value]
  | .super => [.super]
  | .call none method args => .call none method args :: Expr.subexprsAll args
  | .call (some target) method args =>
    .call (some target) method args :: (target.subexprs ++ Expr.subexprsAll args)
  | .cast type value => .cast type value :: value.subexprs
  | .new type methods => .new type methods :: Method.subexprsAll methods

def Expr.subexprsAll : List Expr → List Expr
  | [] => []
  | e :: es => e.subexprs ++ Expr.subexprsAll es

def Statement.subexprs : Statement → List Expr
  | .expr value | .assign _ value | .declare _ _ value => value.subexprs

def Statement.subexprsAll : List Statement → List Expr
  | [] => []
  | s :: ss => s.subexprs ++ Statement.subexprsAll ss

def Statement.subexprsOfSections : List (List Statement) → List Expr
  | [] => []
  | ss :: rest => Statement.subexprsAll ss ++ Statement.subexprsOfSections rest

def Method.subexprs : Method → List Expr
  | ⟨_, _, _, _, _, sections⟩ => Statement.subexprsOfSections sections

def Method.subexprsAll : List Method → List Expr
  | [] => []
  | m :: ms => m.subexprs ++ Method.subexprsAll ms

end

theorem Statement.subexprsAll_eq_flatMap (ss : List Statement) :
    Statement.subexprsAll ss = ss.flatMap Statement.subexprs := by
  induction ss with
  | nil => rfl
  | cons s ss ih => rw [Statement.subexprsAll, ih, List.flatMap_cons]

theorem Statement.subexprsOfSections_eq_flatMap (sections : List (List Statement)) :
    Statement.subexprsOfSections sections = sections.flatten.flatMap Statement.subexprs := by
  induction sections with
  | nil => rfl
  | cons ss rest ih =>
    rw [Statement.subexprsOfSections, ih, Statement.subexprsAll_eq_flatMap, List.flatten_cons,
      List.flatMap_append]

theorem Method.subexprs_eq_flatMap (m : Method) :
    m.subexprs = m.statements.flatMap Statement.subexprs := by
  obtain ⟨name, annotations, modifiers, returns, params, sections⟩ := m
  rw [Method.subexprs, Statement.subexprsOfSections_eq_flatMap, Method.statements]

/-- All expressions of a file. -/
def SourceFile.subexprs (f : SourceFile) : List Expr := f.statements.flatMap Statement.subexprs

end Code

open Code

namespace ComponentBinding

variable {config : Config} {e : Expr}

theorem mem_subexprs_viewLookup {v : ViewBinding} :
    e ∈ (viewLookup config v).subexprs ↔
      e = .cast (ClassRef.ofType v.type) (findView v.id) ∨ e = findView v.id ∨ e = .int v.id := by
  rcases viewLookup_cases config v with h | h <;>
    simp [h, Statement.subexprs, Expr.subexprs, Expr.subexprsAll, findView]

theorem mem_subexprs_clickArgument {c : ClickBinding} :
    e ∈ (clickArgument config c).subexprs ↔
      e = clickArgument config c ∨ e = .ident clickedViewName := by
  unfold clickArgument
  split
  · split <;> simp [Expr.subexprs]
  · simp [Expr.subexprs]

theorem mem_subexprs_clickListener {c : ClickBinding} {id : Int} :
    e ∈ (clickListener config c id).subexprs ↔
      e = .call (some (findView id)) "setOnClickListener"
          [.new (listenerRef config) [onClick config c]] ∨
      e = findView id ∨ e = .int id ∨ e = .new (listenerRef config) [onClick config c] ∨
      e = .call none c.handler [clickArgument config c] ∨ e ∈ (clickArgument config c).subexprs := by
  simp [clickListener, Statement.subexprs, Expr.subexprs, Expr.subexprsAll, findView,
    Method.subexprsAll, Method.subexprs_eq_flatMap, onClick, Method.statements, listenerRef]

/-- A handler gets the clicked view uncast iff it takes the platform's view class itself. -/
theorem clickArgument_some (config : Config) (handler : String) (ids : List Int) (type : TypeName) :
    (type = config.platform.view ∧
      clickArgument config ⟨handler, ids, some type⟩ = .ident clickedViewName) ∨
    (type ≠ config.platform.view ∧
      clickArgument config ⟨handler, ids, some type⟩ =
        .cast (ClassRef.ofType type) (.ident clickedViewName)) := by
  unfold clickArgument
  by_cases ht : type = config.platform.view
  · exact .inl ⟨ht, by simp [ht]⟩
  · exact .inr ⟨ht, by simp [ht]⟩

end ComponentBinding

namespace Source

open ComponentBinding

variable (source : Source) (config : Config) (c : Component)

/-- A statement that an initializer may be made of: it sets the layout up, or does for a member what
the directive of the member says, and the member fits the directive. -/
inductive Wires : Statement → Prop
  | superCall : Wires (.expr (.call (some .super) onCreateName [.ident savedStateName]))
  | layout {layout : Int} (hl : c.layout = some layout) :
    Wires (.expr (.call none "setContentView" [.int layout]))
  | view {m : Member} {id : Int} {type : TypeName} (hm : m ∈ source.members config c)
    (hd : m.directive = some (.view id)) (hp : m.isPrivate = false)
    (hs : m.shape = .field (.declared type)) (hv : source.IsView config type) :
    Wires (viewLookup config ⟨id, m.name, type⟩)
  | hook {m : Member} (hm : m ∈ source.members config c) (hd : m.directive = some .afterViews)
    (hp : m.isPrivate = false) (hs : m.shape = .method [] .void) : Wires (hookCall m.name)
  | listener {m : Member} {ids : List Int} {id : Int} {type : TypeName}
    (hm : m ∈ source.members config c) (hd : m.directive = some (.click ids)) (hid : id ∈ ids)
    (hp : m.isPrivate = false) (hs : m.shape = .method [.declared type] .void)
    (hv : source.IsView config type) : Wires (clickListener config ⟨m.name, ids, some type⟩ id)

variable {source config c} {v : Validated} {f : SourceFile}

/-- Under the strict policy a generated file has no other statements. -/
theorem wires_of_strict (hstrict : config.signatures = .strict)
    (hv : (source.validate config c).value = some v) (hf : v.binding.sourceFile config = .ok f)
    {s : Statement} (hs : s ∈ f.statements) : source.Wires config c s := by
  have hfits : ∀ m ∈ v.members, m ∈ source.members config c ∧
      ∀ d, m.directive = some d → source.Fits config m d := by
    intro m hm
    rw [source.members_of_validate config c hv, List.mem_filter,
      source.keepsMember_iff_of_strict config hstrict] at hm
    exact hm
  obtain rfl | ⟨layout, hl, rfl⟩ | ⟨view, hview, rfl⟩ | ⟨hook, hhook, rfl⟩ |
    ⟨click, hclick, id, hid, rfl⟩ := statement_cases config hf hs
  · exact .superCall
  · rw [← source.component_of_validate config c hv]
    exact .layout hl
  · obtain ⟨m, hm, id, type, hd, hshape, rfl⟩ := mem_views.mp hview
    obtain ⟨hmem, hfit⟩ := hfits m hm
    obtain ⟨hp, type', hshape', hisView⟩ := hfit _ hd
    obtain rfl : type = type' := by simpa [hshape] using hshape'
    exact .view hmem hd hp hshape hisView
  · obtain ⟨m, hm, hd, rfl⟩ := mem_hooks.mp hhook
    obtain ⟨hmem, hfit⟩ := hfits m hm
    obtain ⟨hp, hshape⟩ := hfit _ hd
    exact .hook hmem hd hp hshape
  · obtain ⟨m, hm, ids, hd, rfl⟩ := mem_clicks.mp hclick
    obtain ⟨hmem, hfit⟩ := hfits m hm
    obtain ⟨hp, type, hshape, hisView⟩ := hfit _ hd
    have hparam : m.onlyParam? = some type := Member.onlyParam?_eq_some_iff.mpr ⟨_, hshape⟩
    rw [hparam]
    exact .listener hmem hd hid hp hshape hisView

variable (source config c) in
/-- The code of a file uses the members of a component only as they are declared: what it casts to
are views, what it stores goes to view fields of the type that it is cast to, and what it calls on
its own object takes the arguments that it is given. -/
structure UsesMembers (f : SourceFile) : Prop where
  casts : ∀ type value, .cast type value ∈ f.subexprs →
    ∃ name, type = ClassRef.ofType name ∧ source.IsView config name
  assigns : ∀ target value, .assign target value ∈ f.statements →
    ∃ m ∈ source.members config c, ∃ id name, m.directive = some (.view id) ∧
      m.isPrivate = false ∧ m.shape = .field (.declared name) ∧
      target = m.name ∧ value = .cast (ClassRef.ofType name) (findView id)
  declares : ∀ type target value, .declare type target value ∈ f.statements →
    ∃ m ∈ source.members config c, ∃ id name, m.directive = some (.view id) ∧
      m.isPrivate = false ∧ m.shape = .field (.declared name) ∧
      type = ClassRef.ofType name ∧ target = m.name ∧
      value = .cast (ClassRef.ofType name) (findView id)
  calls : ∀ method args, .expr (.call none method args) ∈ f.statements →
    (method = "setContentView" ∧ ∃ layout, c.layout = some layout ∧ args = [.int layout]) ∨
    (args = [] ∧ ∃ m ∈ source.members config c, m.directive = some .afterViews ∧
      m.isPrivate = false ∧ m.shape = .method [] .void ∧ method = m.name)
  listeners : ∀ type methods, .new type methods ∈ f.subexprs →
    type = listenerRef config ∧
    ∃ m ∈ source.members config c, ∃ ids name arg method, m.directive = some (.click ids) ∧
      m.isPrivate = false ∧ m.shape = .method [.declared name] .void ∧
      source.IsView config name ∧ methods = [method] ∧
      method.params = [⟨ClassRef.ofType config.platform.view, clickedViewName⟩] ∧
      method.statements = [.expr (.call none m.name [arg])] ∧
      ((name = config.platform.view ∧ arg = .ident clickedViewName) ∨
        (name ≠ config.platform.view ∧
          arg = .cast (ClassRef.ofType name) (.ident clickedViewName)))

theorem isView_of_cast {s : Statement} (h : source.Wires config c s) {type : ClassRef} {value : Expr}
    (he : .cast type value ∈ s.subexprs) :
    ∃ name, type = ClassRef.ofType name ∧ source.IsView config name := by
  cases h with
  | superCall | layout | hook =>
    simp [hookCall, Statement.subexprs, Expr.subexprs, Expr.subexprsAll] at he
  | view hm hd hp hs hv =>
    simp only [mem_subexprs_viewLookup, findView, Expr.cast.injEq, reduceCtorEq, or_false] at he
    exact ⟨_, he.1, hv⟩
  | @listener m ids id name hm hd hid hp hs hv =>
    simp only [mem_subexprs_clickListener, mem_subexprs_clickArgument, findView, reduceCtorEq,
      false_or, or_false] at he
    obtain ⟨-, ha⟩ | ⟨-, ha⟩ := clickArgument_some config m.name ids name
    · simp [ha] at he
    · rw [ha, Expr.cast.injEq] at he
      exact ⟨name, he.1, hv⟩

theorem handler_of_new {s : Statement} (h : source.Wires config c s) {type : ClassRef}
    {methods : List Method} (he : .new type methods ∈ s.subexprs) :
    type = listenerRef config ∧
    ∃ m ∈ source.members config c, ∃ ids name, m.directive = some (.click ids) ∧
      m.isPrivate = false ∧ m.shape = .method [.declared name] .void ∧
      source.IsView config name ∧ methods = [onClick config ⟨m.name, ids, some name⟩] := by
  cases h with
  | superCall | layout | hook =>
    simp [hookCall, Statement.subexprs, Expr.subexprs, Expr.subexprsAll] at he
  | view hm hd hp hs hv => simp [mem_subexprs_viewLookup, findView] at he
  | @listener m ids id name hm hd hid hp hs hv =>
    have hargument : .new type methods ∉
        (clickArgument config ⟨m.name, ids, some name⟩).subexprs := by
      rw [mem_subexprs_clickArgument]
      obtain ⟨-, ha⟩ | ⟨-, ha⟩ := clickArgument_some config m.name ids name <;> simp [ha]
    simp only [mem_subexprs_clickListener, hargument, findView, reduceCtorEq, false_or, or_false,
      Expr.new.injEq] at he
    exact ⟨he.1, m, hm, ids, name, hd, hp, hs, hv, he.2⟩

/-- A file that is wired together from fitting members uses them only as they are declared. -/
theorem usesMembers_of_wires (h : ∀ s ∈ f.statements, source.Wires config c s) :
    source.UsesMembers config c f where
  casts := by
    intro type value he
    obtain ⟨s, hs, he⟩ := List.mem_flatMap.mp he
    exact isView_of_cast (h s hs) he
  assigns := by
    intro target value hs
    -- the style decides whether a lookup is an assignment, so the statement is kept as a variable
    generalize hassign : Statement.assign target value = s at hs
    cases h s hs with
    | superCall | layout | hook | listener => cases hassign
    | @view m id name hm hd hp hshape hv =>
      obtain hl | hl := viewLookup_cases config ⟨id, m.name, name⟩
      · obtain ⟨ht, hval⟩ := Statement.assign.inj (hassign.trans hl)
        exact ⟨m, hm, id, name, hd, hp, hshape, ht, hval⟩
      · cases hassign.trans hl
  declares := by
    intro type target value hs
    generalize hdeclare : Statement.declare type target value = s at hs
    cases h s hs with
    | superCall | layout | hook | listener => cases hdeclare
    | @view m id name hm hd hp hshape hv =>
      obtain hl | hl := viewLookup_cases config ⟨id, m.name, name⟩
      · cases hdeclare.trans hl
      · obtain ⟨htype, ht, hval⟩ := Statement.declare.inj (hdeclare.trans hl)
        exact ⟨m, hm, id, name, hd, hp, hshape, htype, ht, hval⟩
  calls := by
    intro method args hs
    generalize hcall : Statement.expr (.call none method args) = s at hs
    cases h s hs with
    | superCall | listener => cases hcall
    | @layout layout hl =>
      cases hcall
      exact .inl ⟨rfl, layout, hl, rfl⟩
    | @hook m hm hd hp hshape =>
      cases hcall
      exact .inr ⟨rfl, m, hm, hd, hp, hshape, rfl⟩
    | @view m id name =>
      obtain hl | hl := viewLookup_cases config ⟨id, m.name, name⟩
      · cases hcall.trans hl
      · cases hcall.trans hl
  listeners := by
    intro type methods he
    obtain ⟨s, hs, he⟩ := List.mem_flatMap.mp he
    obtain ⟨htype, m, hm, ids, name, hd, hp, hshape, hv, rfl⟩ := handler_of_new (h s hs) he
    refine ⟨htype, m, hm, ids, name, clickArgument config ⟨m.name, ids, some name⟩, _, hd, hp,
      hshape, hv, rfl, rfl, rfl, ?_⟩
    exact clickArgument_some config m.name ids name

variable (source config) in
/-- Under the strict policy, whatever the writer does, the file of each component that is reported as
generated uses the members of the component only as they are declared. -/
theorem generated_usesMembers {σ : Type} (write : Writer (StateM σ)) (s : σ)
    (hstrict : config.signatures = .strict) {name : TypeName}
    (hname : name ∈ ((source.process config write).run s).1.generated) :
    ∃ c v f, source.component? name = some c ∧ (source.validate config c).value = some v ∧
      v.binding.sourceFile config = .ok f ∧
      source.artifactOf? config name = some (.ofSourceFile config f) ∧
      source.UsesMembers config c f := by
  have hgenerating := (source.generated_sublist_generating config write s).subset hname
  obtain ⟨b, hb, rfl⟩ := List.mem_map.mp hgenerating
  obtain ⟨hb, hartifact⟩ := List.mem_filter.mp hb
  obtain ⟨c, v, hc, hv, -, rfl⟩ := source.validated_of_mem_bindings config hb
  obtain ⟨-, hf⟩ | ⟨layout, -, hf⟩ := v.binding.sourceFile_cases config
  · simp [artifact?, hf, Except.toOption] at hartifact
  refine ⟨c, v, _, hc, hv, hf, ?_, ?_⟩
  · rw [artifactOf?, hc, Option.bind_some, hv, Option.bind_some, artifact?, hf]
    rfl
  · exact usesMembers_of_wires fun s hs => wires_of_strict hstrict hv hf hs

/-- A view, a hook and two handlers take part; a private view and a hook with a parameter do not. -/
theorem generated_usesMembers_screen :
    let method (name : String) (params : List TypeRef) (directive : Directive) : Member :=
      ⟨name, .method params .void, [], some directive⟩
    let button : TypeRef := .declared ⟨"android.widget.Button"⟩
    let screen : Component :=
      ⟨⟨"a.Main"⟩, "a", .«class», some ⟨"android.app.Activity"⟩, some 1,
        [⟨"send", .field button, [], some (.view 1)⟩,
          ⟨"hidden", .field button, [.«private»], some (.view 2)⟩,
          method "ready" [] .afterViews, method "readyWith" [button] .afterViews,
          method "onSend" [button] (.click [1]),
          method "onAny" [.declared ⟨"android.view.View"⟩] (.click [1, 2])]⟩
    let source := (Declarations.ofComponents [screen]).toSource
    Config.standard.signatures = .strict ∧
      ⟨"a.Main"⟩ ∈ ((source.process .standard Store.writer).run .empty).1.generated ∧
      ((source.members .standard screen).filter (source.keepsMember .standard)).map Member.name =
        ["send", "ready", "onSend", "onAny"] ∧
      ∃ c v f, source.component? ⟨"a.Main"⟩ = some c ∧
        (source.validate .standard c).value = some v ∧ v.binding.sourceFile .standard = .ok f ∧
        source.artifactOf? .standard ⟨"a.Main"⟩ = some (.ofSourceFile .standard f) ∧
        source.UsesMembers .standard c f := by
  intro method button screen source
  have hname : ⟨"a.Main"⟩ ∈ ((source.process .standard Store.writer).run .empty).1.generated := by
    decide +kernel
  have hkept : ((source.members .standard screen).filter (source.keepsMember .standard)).map
      Member.name = ["send", "ready", "onSend", "onAny"] := by
    decide +kernel
  exact ⟨rfl, hname, hkept,
    generated_usesMembers source .standard Store.writer .empty rfl hname⟩

end Source

end ViewWiring
