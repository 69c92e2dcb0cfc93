import ViewWiring.Proofs.Inheritance.Ascent
import ViewWiring.Proofs.Validation.Faults

namespace ViewWiring

namespace Source

variable (source : Source) (config : Config)

/-- A type is the platform's view class or has it above it, within the depth limit. -/
def IsView (type : TypeName) : Prop :=
  ∃ n ≤ config.maxDepth, baseAt source.superType n type = some config.platform.view

theorem isReached_view_iff (name : TypeName) :
    (source.ascend config name config.platform.view).isReached = true ↔ source.IsView config name :=
  ascend_isReached_iff

/-- A class that has the platform's activity above it within the depth limit, or is that class. -/
def Bindable (c : Component) : Prop :=
  c.kind = .«class» ∧
    ∃ n ≤ config.maxDepth, baseAt source.superType n c.name = some config.platform.activity

theorem componentFault_eq_none_iff {c : Component} :
    source.componentFault config c = none ↔ source.Bindable config c := by
  unfold componentFault
  by_cases hkind : c.kind = .«class»
  · rw [if_pos hkind, Option.map_eq_none_iff, Ascent.note_eq_none_iff, ascend, ascend_isReached_iff]
    simp [Bindable, hkind]
  · simp [Bindable, hkind]

theorem notViewNote_eq_none_iff (type : TypeRef) :
    source.notViewNote config type = none ↔
      ∃ name, type = .declared name ∧ source.IsView config name := by
  cases type with
  | declared name =>
    rw [notViewNote, Ascent.note_eq_none_iff, ascend, ascend_isReached_iff]
    simp [IsView]
  | void | primitive => simp [notViewNote]

/-- What a directive asks of the member that carries it. -/
def Fits (m : Member) : Directive → Prop
  | .view _ => m.isPrivate = false ∧
      ∃ type, m.shape = .field (.declared type) ∧ source.IsView config type
  | .afterViews => m.isPrivate = false ∧ m.shape = .method [] .void
  | .click _ => m.isPrivate = false ∧
      ∃ type, m.shape = .method [.declared type] .void ∧ source.IsView config type

theorem viewFieldFaults_eq_nil_iff {m : Member} {type : TypeRef} :
    source.viewFieldFaults config m type = [] ↔
      m.isPrivate = false ∧ ∃ name, type = .declared name ∧ source.IsView config name := by
  rw [← notViewNote_eq_none_iff, viewFieldFaults]
  cases source.notViewNote config type <;> cases m.isPrivate <;> simp

theorem methodFaults_eq_nil_iff {m : Member} {paramFaults : List Member.Fault} {returns : TypeRef} :
    methodFaults m paramFaults returns = [] ↔
      m.isPrivate = false ∧ paramFaults = [] ∧ returns = .void := by
  rw [methodFaults]
  cases m.isPrivate <;> simp

theorem handlerParamFaults_eq_nil_iff {params : List TypeRef} :
    source.handlerParamFaults config params = [] ↔
      ∃ name, params = [.declared name] ∧ source.IsView config name := by
  match params with
  | [type] =>
    have hnote := source.notViewNote_eq_none_iff config type
    rw [handlerParamFaults]
    cases hn : source.notViewNote config type with
    | none => simpa using hnote.mp hn
    | some note => simpa [hn] using hnote
  | [] | _ :: _ :: _ => simp [handlerParamFaults]

/-- The rules that are checked are those of the directive. -/
theorem memberFaults_eq_nil_iff {m : Member} :
    source.memberFaults config m = [] ↔ ∀ d, m.directive = some d → source.Fits config m d := by
  cases hd : m.directive with
  | none => simp [memberFaults, hd]
  | some d =>
    simp only [Option.some.injEq, forall_eq']
    cases hs : m.shape with
    | field type => cases d <;> simp [memberFaults, hd, hs, Fits, viewFieldFaults_eq_nil_iff]
    | method params returns =>
      cases d with
      | view => simp [memberFaults, hd, hs, Fits]
      | afterViews => simp [memberFaults, hd, hs, Fits, methodFaults_eq_nil_iff, hookParamFaults]
      | click =>
        simp only [memberFaults, hd, hs, Fits, methodFaults_eq_nil_iff,
          handlerParamFaults_eq_nil_iff, Shape.method.injEq]
        constructor
        · rintro ⟨hp, ⟨name, hparam, hv⟩, hvoid⟩
          exact ⟨hp, name, ⟨hparam, hvoid⟩, hv⟩
        · rintro ⟨hp, name, ⟨hparam, hvoid⟩, hv⟩
          exact ⟨hp, ⟨name, hparam, hv⟩, hvoid⟩

/-- The strict policy keeps what fits and nothing else. -/
theorem keepsMember_iff_of_strict (hs : config.signatures = .strict) {m : Member} :
    source.keepsMember config m = true ↔
      ∀ d, m.directive = some d → source.Fits config m d := by
  rw [← memberFaults_eq_nil_iff, keepsMember_iff, hs]
  simp

end Source

end ViewWiring
