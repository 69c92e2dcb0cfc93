import ViewWiring.Manifest
import ViewWiring.Proofs.Inheritance.Declarers
import ViewWiring.Proofs.Initializer.Statements
import ViewWiring.Proofs.Validation.Outcome
import Mathlib.Data.List.Nodup

namespace ViewWiring

namespace Code

namespace Statement

/-- The variables that a statement declares for those after it. -/
def locals : Statement → List String
  | .declare _ name _ => [name]
  | .expr _ | .assign .. => []

/-- A statement binds the name that it is meant to bind: a store reaches the field only if no
variable in scope bears its name, and no variable may be declared over one in scope. -/
def BindsIn (scope : List String) : Statement → Prop
  | .expr _ => True
  | .assign target _ => target ∉ scope
  | .declare _ name _ => name ∉ scope

/-- Each statement finds in scope what those before it declare. -/
def AllBindIn : List String → List Statement → Prop
  | _, [] => True
  | scope, s :: ss => s.BindsIn scope ∧ AllBindIn (scope ++ s.locals) ss

instance (scope : List String) (s : Statement) : Decidable (s.BindsIn scope) :=
  match s with
  | .expr _ => .isTrue trivial
  | .assign target _ => inferInstanceAs (Decidable (target ∉ scope))
  | .declare _ name _ => inferInstanceAs (Decidable (name ∉ scope))

instance decidableAllBindIn : (scope : List String) → (ss : List Statement) →
    Decidable (AllBindIn scope ss)
  | _, [] => .isTrue trivial
  | scope, s :: ss =>
    have := decidableAllBindIn (scope ++ s.locals) ss
    inferInstanceAs (Decidable (s.BindsIn scope ∧ AllBindIn (scope ++ s.locals) ss))

theorem allBindIn_append (scope : List String) (ss ss' : List Statement) :
    AllBindIn scope (ss ++ ss') ↔
      AllBindIn scope ss ∧ AllBindIn (scope ++ ss.flatMap locals) ss' := by
  induction ss generalizing scope with
  | nil => simp [AllBindIn]
  | cons s ss ih =>
    rw [List.cons_append, AllBindIn, ih, AllBindIn, List.flatMap_cons, List.append_assoc, and_assoc]

def IsExpr : Statement → Prop
  | .expr _ => True
  | .assign .. | .declare .. => False

/-- Statements that store nothing bind nothing and leave the scope as it is. -/
theorem allBindIn_of_isExpr (scope : List String) {ss : List Statement} (h : ∀ s ∈ ss, s.IsExpr) :
    AllBindIn scope ss ∧ ss.flatMap locals = [] := by
  induction ss with
  | nil => exact ⟨trivial, rfl⟩
  | cons s ss ih =>
    obtain ⟨hs, hss⟩ := List.forall_mem_cons.mp h
    cases s with
    | expr value =>
      rw [AllBindIn, locals, List.append_nil, List.flatMap_cons, locals]
      exact ⟨⟨trivial, (ih hss).1⟩, (ih hss).2⟩
    | assign | declare => exact hs.elim

end Statement

/-- The statements of a method bind what they are meant to bind, with its parameters in scope. -/
def Method.Binds (m : Method) : Prop :=
  Statement.AllBindIn (m.params.map Parameter.name) m.statements

instance (m : Method) : Decidable m.Binds :=
  inferInstanceAs (Decidable (Statement.AllBindIn _ _))

end Code

open Code

namespace ComponentBinding

variable {config : Config}

theorem allBindIn_assign (h : config.viewStyle = .assignField) (scope : List String)
    (vs : List ViewBinding) :
    Statement.AllBindIn scope (vs.map (viewLookup config)) ↔
      ∀ name ∈ scope, name ∉ vs.map ViewBinding.member := by
  induction vs with
  | nil => simp [Statement.AllBindIn]
  | cons v vs ih =>
    have hv : viewLookup config v =
        .assign v.member (.cast (ClassRef.ofType v.type) (findView v.id)) := by
      rw [viewLookup, h]
    rw [List.map_cons, Statement.AllBindIn, hv, Statement.locals, List.append_nil, ih,
      Statement.BindsIn]
    simp only [List.map_cons, List.mem_cons, not_or]
    constructor
    · rintro ⟨hm, hs⟩ name hn
      exact ⟨fun he => hm (he ▸ hn), hs name hn⟩
    · intro hs
      exact ⟨fun hm => (hs v.member hm).1 rfl, fun name hn => (hs name hn).2⟩

theorem allBindIn_declare (h : config.viewStyle = .declareLocal) {scope : List String}
    (hs : scope.Nodup) (vs : List ViewBinding) :
    Statement.AllBindIn scope (vs.map (viewLookup config)) ↔
      (scope ++ vs.map ViewBinding.member).Nodup := by
  induction vs generalizing scope with
  | nil => simpa [Statement.AllBindIn] using hs
  | cons v vs ih =>
    have hv : viewLookup config v = .declare (ClassRef.ofType v.type) v.member
        (.cast (ClassRef.ofType v.type) (findView v.id)) := by
      rw [viewLookup, h]
    have hgrow : (scope ++ [v.member]).Nodup ↔ v.member ∉ scope := by
      rw [List.nodup_append_comm]
      simp [hs]
    have hsplit : scope ++ (v :: vs).map ViewBinding.member =
        (scope ++ [v.member]) ++ vs.map ViewBinding.member := by
      simp
    rw [List.map_cons, Statement.AllBindIn, hv, Statement.locals, Statement.BindsIn, hsplit]
    constructor
    · rintro ⟨hm, hrest⟩
      exact (ih (hgrow.mpr hm)).mp hrest
    · intro hn
      have hm : (scope ++ [v.member]).Nodup := (List.nodup_append.mp hn).1
      exact ⟨hgrow.mp hm, (ih hm).mpr hn⟩

/-- All that the initializer stores are its views, and its parameter is all that they find in
scope. -/
theorem binds_onCreate_iff (layout : Int) (b : ComponentBinding) :
    (b.onCreate config layout).Binds ↔
      savedStateName ∉ b.views.map ViewBinding.member ∧
        (config.viewStyle = .declareLocal → (b.views.map ViewBinding.member).Nodup) := by
  let setUp : List Statement := [.expr (.call (some .super) onCreateName [.ident savedStateName]),
    .expr (.call none "setContentView" [.int layout])]
  let calls : List Statement := b.hooks.map hookCall ++ b.clicks.flatMap (clickListeners config)
  have hs : (b.onCreate config layout).statements =
      setUp ++ (b.views.map (viewLookup config) ++ calls) := by
    simp [onCreate, Method.statements, setUp, calls]
  have hsetUp : ∀ s ∈ setUp, s.IsExpr := by simp [setUp, Statement.IsExpr]
  have hcalls : ∀ s ∈ calls, s.IsExpr := by
    intro s hs
    simp only [calls, List.mem_append, List.mem_map, List.mem_flatMap, clickListeners] at hs
    obtain ⟨hook, -, rfl⟩ | ⟨c, -, id, -, rfl⟩ := hs <;> trivial
  have hlookups : (b.onCreate config layout).Binds ↔
      Statement.AllBindIn [savedStateName] (b.views.map (viewLookup config)) := by
    have hscope : (b.onCreate config layout).params.map Parameter.name = [savedStateName] := rfl
    rw [Method.Binds, hs, hscope, Statement.allBindIn_append, Statement.allBindIn_append,
      (Statement.allBindIn_of_isExpr [savedStateName] hsetUp).2, List.append_nil]
    simp only [(Statement.allBindIn_of_isExpr _ hsetUp).1,
      (Statement.allBindIn_of_isExpr _ hcalls).1, true_and, and_true]
  rw [hlookups]
  cases hstyle : config.viewStyle with
  | assignField =>
    rw [allBindIn_assign hstyle]
    simp
  | declareLocal =>
    rw [allBindIn_declare hstyle (List.nodup_singleton _), List.singleton_append, List.nodup_cons]
    simp

end ComponentBinding

namespace Source

variable (source : Source) (config : Config)

/-- The names that are looked up for some members, which are those of the view fields that are
kept. -/
def lookupNames (ms : List Member) : List String :=
  ((ms.filter (source.keepsMember config)).filterMap Member.viewBinding?).map ViewBinding.member

theorem mem_lookupNames {ms : List Member} {name : String} (h : name ∈ source.lookupNames config ms) :
    ∃ m ∈ ms, m.overrideKey = (name, none) := by
  simp only [lookupNames, List.mem_map, List.mem_filterMap, List.mem_filter] at h
  obtain ⟨view, ⟨m, ⟨hm, -⟩, hv⟩, rfl⟩ := h
  obtain ⟨id, type, -, hs, rfl⟩ := Member.viewBinding?_eq_some_iff.mp hv
  exact ⟨m, hm, Member.overrideKey_of_field hs⟩

theorem views_of_validate {c : Component} {v : Validated}
    (h : (source.validate config c).value = some v) :
    v.binding.views.map ViewBinding.member =
      source.lookupNames config (source.members config c) := by
  rw [Validated.binding, source.members_of_validate config c h, lookupNames]

/-- Names are looked up twice only for one type's own fields, as a field hides those of its name
further up. -/
theorem lookupNames_nodup_iff (c : Component) :
    (source.lookupNames config (source.members config c)).Nodup ↔
      ∀ block ∈ source.memberBlocks config c, (source.lookupNames config block).Nodup := by
  have hflat : source.lookupNames config (source.members config c) =
      ((source.memberBlocks config c).map (source.lookupNames config)).flatten := by
    rw [← flatten_memberBlocks, lookupNames, List.filter_flatten, List.filterMap_flatten,
      List.map_flatten, List.map_map, List.map_map]
    rfl
  have happart : ((source.memberBlocks config c).map (source.lookupNames config)).Pairwise
      List.Disjoint :=
    source.memberBlocks_disjoint config c fun _ _ hn => source.mem_lookupNames config hn
  rw [hflat, List.nodup_flatten]
  simp [happart]

/-- The initializer of a generated file binds what it is meant to bind iff no view field that is
looked up bears the name of its parameter and, where views are kept in local variables, no type
declares two such fields of one name. Fields of different types never meet. -/
theorem initializer_binds_iff (c : Component) {v : Validated} {f : SourceFile}
    (hv : (source.validate config c).value = some v) (hf : v.binding.sourceFile config = .ok f) :
    (∀ m ∈ f.methods, m.Binds) ↔
      savedStateName ∉ source.lookupNames config (source.members config c) ∧
        (config.viewStyle = .declareLocal →
          ∀ block ∈ source.memberBlocks config c, (source.lookupNames config block).Nodup) := by
  obtain ⟨-, hn⟩ | ⟨layout, -, hok⟩ := v.binding.sourceFile_cases config
  · simp [hn] at hf
  rw [hok, Except.ok.injEq] at hf
  rw [← hf, List.forall_mem_singleton, ComponentBinding.binds_onCreate_iff,
    source.views_of_validate config hv, lookupNames_nodup_iff]

/-- A field hides that of the same name further up, so each local variable is declared once. -/
theorem initializer_binds_inherited :
    let view (name : String) (id : Int) : Member :=
      ⟨name, .field (.declared ⟨"android.widget.Button"⟩), [], some (.view id)⟩
    let screen : Component :=
      ⟨⟨"a.Main"⟩, "a", .«class», some ⟨"a.Base"⟩, some 1, [view "title" 1, view "send" 2]⟩
    let source := ((Declarations.ofComponents [screen]).withType ⟨"a.Base"⟩ ⟨"android.app.Activity"⟩
      |>.withTypeMembers ⟨"a.Base"⟩ [view "back" 3, view "title" 4]).toSource
    let config : Config := { Config.standard with viewStyle := .declareLocal }
    let v : Validated := ⟨screen, [view "back" 3, view "title" 1, view "send" 2]⟩
    (source.validate config screen).value = some v ∧
      ∃ f, v.binding.sourceFile config = .ok f ∧ ∀ m ∈ f.methods, m.Binds := by
  intro view screen source config v
  have hv : (source.validate config screen).value = some v := by decide +kernel
  obtain ⟨hl, -⟩ | ⟨layout, -, hf⟩ := v.binding.sourceFile_cases config
  · simp [v, screen, Validated.binding] at hl
  refine ⟨hv, _, hf, (initializer_binds_iff source config screen hv hf).mpr ?_⟩
  decide +kernel

/-- A view field named as the parameter of the initializer is accepted without a word, and in
either style the view never reaches it. -/
theorem field_named_as_parameter :
    let entry : MemberEntry := ⟨savedStateName, .field, some "android.view.View", none, none, [],
      some 7, false, none⟩
    let manifest : Manifest :=
      ⟨[⟨"a.Main", .«class», none, some "android.app.Activity", some 1, [entry]⟩], []⟩
    let field : Member :=
      ⟨savedStateName, .field (.declared ⟨"android.view.View"⟩), [], some (.view 7)⟩
    let screen : Component :=
      ⟨⟨"a.Main"⟩, "a", .«class», some ⟨"android.app.Activity"⟩, some 1, [field]⟩
    let v : Validated := ⟨screen, [field]⟩
    manifest.declarations = .ok (.ofComponents [screen]) ∧
    Config.standard.signatures = .strict ∧
    ∀ style, let config := { Config.standard with viewStyle := style }
      (Declarations.ofComponents [screen]).toSource.validate config screen = ⟨some v, []⟩ ∧
      (v.binding.sourceFile config).toOption.map
        (fun f => f.methods.map fun m => decide m.Binds) = some [false] := by
  intro entry manifest field screen v
  refine ⟨by decide +kernel, rfl, ?_⟩
  intro style
  cases style <;> decide +kernel

end Source

end ViewWiring
